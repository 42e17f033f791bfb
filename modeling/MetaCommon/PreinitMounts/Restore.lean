import MetaCommon.Lib.FileTree
import MetaCommon.Lib.Words

/-!
# Restoring the defaults

Before the overlay is mounted, `init` removes what is saved of it. The targeted clean spares in
`etc` the paths with the keys, certificates and identity of the board. It selects by the path, but
`rm -rf` takes what is below a selected directory with it.
-/

namespace MetaCommon.PreinitMounts

variable {γ : Type*}

def etc : List Char := "etc".toList

/-- What the clean takes away as a whole, after `etc`. -/
def cleaned : List (List Char) :=
  ["etc.work".toList, "home".toList, "home.work".toList, "var".toList, "var.work".toList]

def spared : List (List Char) :=
  ["ssl".toList, "dropbear".toList, "machine-id".toList, "fru".toList]

/-- The text of a path as `find .` has it. -/
def pathText (p : TreePath) : List Char := '.' :: p.flatMap fun name => '/' :: name

/-- `-regex '.*/\(ssl\|dropbear\|machine-id\|fru\).*'`, which has to match the whole text. -/
def matchesRegex (text : List Char) : Bool := spared.any fun word => '/' :: word <:+: text

/-- `! -regex … -a ! -path '.'` -/
def test (p : TreePath) : Bool := !matchesRegex (pathText p) && pathText p ≠ ['.']

def NV_OVERLAYS : List (List Char) := ["etc".toList, "var".toList, "home".toList]

/-- `full` is whether the arguments that `find` has collected are enough for one command. -/
def targetedClean (full : List TreePath → Bool) (t : FileTree γ) : FileTree γ :=
  -- `cd` fails where there is no directory.
  let t := if t.isDir [etc] then t.findRemove [etc] test full else t
  t.removeAll (cleaned.map fun name => [name])

def fullClean (t : FileTree γ) : FileTree γ :=
  t.removeAll (NV_OVERLAYS.flatMap fun name => [[name], [name ++ ".work".toList]])

/-- What is done for the number that the flag file holds. -/
def restore (full : List TreePath → Bool) (restoreOp : ℤ) (t : FileTree γ) : FileTree γ :=
  let restoreOp := restoreOp % 4
  if restoreOp = 1 then targetedClean full t
  else if restoreOp = 2 then fullClean t
  else if restoreOp = 3 then .empty
  else t

/-! ### What is asked of it -/

def Spared (name : List Char) : Prop := ∃ word ∈ spared, word <+: name

/-- Some component of the path begins with a protected name. -/
def Protected (p : TreePath) : Prop := ∃ name ∈ p, Spared name

structure Restored (t t' : FileTree γ) : Prop where
  files : ∀ p content, p ≠ [] → ((etc :: p, .file content) ∈ t'.entries ↔
    (etc :: p, .file content) ∈ t.entries ∧ Protected p)
  nothingElse : ∀ e ∈ t'.entries, ∀ name ∈ cleaned, ¬ [name] <+: e.1

/-- Every protected file is below a protected entry of `etc` itself. -/
def AtTop (t : FileTree γ) : Prop :=
  ∀ p content, (etc :: p, .file content) ∈ t.entries → Protected p →
    ∃ name ∈ p.head?, Spared name

/-! ### The test -/

/-- Text with a slash in front is found behind a name, if it is found. -/
theorem slash_infix_append_iff {word name rest : List Char} (hname : '/' ∉ name) :
    '/' :: word <:+: name ++ rest ↔ '/' :: word <:+: rest := by
  induction name with
  | nil => rfl
  | cons c name ih =>
    rw [List.mem_cons, not_or] at hname
    rw [List.cons_append, List.infix_cons_iff, List.cons_prefix_cons, ih hname.2]
    exact or_iff_right fun h => hname.1 h.1

theorem slash_infix_flatMap_iff {word : List Char} (hword : '/' ∉ word) {p : TreePath}
    (hp : ∀ name ∈ p, '/' ∉ name) :
    '/' :: word <:+: (p.flatMap fun name => '/' :: name) ↔ ∃ name ∈ p, word <+: name := by
  induction p with
  | nil => simp
  | cons name p ih =>
    obtain ⟨hname, hp⟩ := List.forall_mem_cons.mp hp
    have hbegins : word <+: name ++ p.flatMap (fun name => '/' :: name) ↔ word <+: name := by
      refine ⟨fun h => ?_, fun h => h.trans (List.prefix_append _ _)⟩
      cases p with
      | nil => simpa using h
      | cons name' p => exact Words.prefix_of_prefix_append_sep hword h
    rw [List.exists_mem_cons_iff, ← ih hp, List.flatMap_cons, List.cons_append, List.infix_cons_iff,
      List.cons_prefix_cons, and_iff_right rfl, hbegins, slash_infix_append_iff hname]

theorem matchesRegex_iff {p : TreePath} (hp : ∀ name ∈ p, '/' ∉ name) :
    matchesRegex (pathText p) = true ↔ Protected p := by
  have hslash : ∀ word ∈ spared, '/' ∉ word := by decide
  have hword : ∀ word ∈ spared, '/' :: word <:+: pathText p ↔ ∃ name ∈ p, word <+: name := by
    intro word hmem
    rw [pathText, List.infix_cons_iff, List.cons_prefix_cons,
      slash_infix_flatMap_iff (hslash word hmem) hp]
    exact or_iff_right fun h => absurd h.1 (by decide)
  unfold matchesRegex Protected Spared
  rw [List.any_eq_true]
  constructor
  · rintro ⟨word, hmem, hmatch⟩
    obtain ⟨name, hname, hbegins⟩ := (hword word hmem).mp (of_decide_eq_true hmatch)
    exact ⟨name, hname, word, hmem, hbegins⟩
  · rintro ⟨name, hname, word, hmem, hbegins⟩
    exact ⟨word, hmem, decide_eq_true ((hword word hmem).mpr ⟨name, hname, hbegins⟩)⟩

theorem test_iff {p : TreePath} (hp : ∀ name ∈ p, '/' ∉ name) :
    test p = true ↔ ¬ Protected p ∧ p ≠ [] := by
  have hroot : pathText p = ['.'] ↔ p = [] := by
    cases p with
    | nil => exact iff_of_true rfl rfl
    | cons name p => exact iff_of_false (by simp [pathText]) (List.cons_ne_nil _ _)
  rw [← matchesRegex_iff hp, ne_eq, ← hroot]
  simp [test]

/-! ### The clean -/

section Clean

variable {full : List TreePath → Bool} {t : FileTree γ}

/-- A file below `etc` is left if its first component is protected. -/
theorem mem_findRemove_etc {name : List Char} {p : TreePath} {content : γ}
    (he : (etc :: name :: p, .file content) ∈ t.entries) :
    (etc :: name :: p, FileNode.file content) ∈ (t.findRemove [etc] test full).entries ↔
      Spared name := by
  have hnames := List.forall_mem_cons.mp (t.names _ he)
  rw [FileTree.mem_findRemove, and_iff_right he]
  constructor
  · intro hall
    by_contra hspared
    have hbelow : [name] ∈ t.below [etc] :=
      FileTree.mem_below.mpr (t.mem_of_prefix he (List.cons_ne_nil _ _) (by simp))
    refine hall [name] hbelow ((test_iff ?_).mpr ⟨?_, List.cons_ne_nil _ _⟩) (by simp)
    · rw [List.forall_mem_singleton]
      exact hnames.2 name List.mem_cons_self
    · rintro ⟨name', hname', hspared'⟩
      exact hspared (List.mem_singleton.mp hname' ▸ hspared')
  · intro hspared q hq htest hbegins
    rw [List.singleton_append, List.cons_prefix_cons] at hbegins
    have hslash : ∀ name' ∈ q, '/' ∉ name' := fun name' hname' =>
      hnames.2 name' (hbegins.2.subset hname')
    obtain ⟨hnot, hne⟩ := (test_iff hslash).mp htest
    cases q with
    | nil => exact hne rfl
    | cons name' q =>
      obtain ⟨rfl, -⟩ := List.cons_prefix_cons.mp hbegins.2
      exact hnot ⟨name', List.mem_cons_self, hspared⟩

theorem mem_targetedClean {e : TreePath × FileNode γ} :
    e ∈ (targetedClean full t).entries ↔
      e ∈ (if t.isDir [etc] then t.findRemove [etc] test full else t).entries ∧
        ∀ name ∈ cleaned, ¬ [name] <+: e.1 := by
  rw [targetedClean, FileTree.mem_removeAll, List.forall_mem_map]

theorem isDir_of_mem {name : List Char} {p : TreePath} {node : FileNode γ}
    (he : (etc :: name :: p, node) ∈ t.entries) : t.isDir [etc] = true := by
  have hdir := t.dir_mem_of_prefix he (List.cons_ne_nil etc []) (by simp) (by simp)
  exact List.any_eq_true.mpr ⟨_, hdir, by simp⟩

theorem targetedClean_files {name : List Char} {p : TreePath} {content : γ} :
    (etc :: name :: p, FileNode.file content) ∈ (targetedClean full t).entries ↔
      (etc :: name :: p, FileNode.file content) ∈ t.entries ∧ Spared name := by
  have hother : ∀ name' ∈ cleaned, ¬ [name'] <+: etc :: name :: p := by
    have hne : ∀ name' ∈ cleaned, name' ≠ etc := by decide
    intro name' hname' hbegins
    exact hne name' hname' (List.cons_prefix_cons.mp hbegins).1
  rw [mem_targetedClean, and_iff_left hother]
  constructor
  · intro h
    split_ifs at h with hdir
    · have he := (FileTree.mem_findRemove.mp h).1
      exact ⟨he, (mem_findRemove_etc he).mp h⟩
    · exact absurd (isDir_of_mem h) hdir
  · rintro ⟨he, hspared⟩
    rw [if_pos (isDir_of_mem he)]
    exact (mem_findRemove_etc he).mpr hspared

end Clean

/-- Operation 1 restores what it should exactly if no protected file is below an entry of `etc` that
is not protected. -/
theorem restored_iff_atTop (full : List TreePath → Bool) (k : ℤ) (t : FileTree γ) :
    Restored t (restore full (4 * k + 1) t) ↔ AtTop t := by
  have hop : restore full (4 * k + 1) t = targetedClean full t := if_pos (by omega)
  rw [hop]
  constructor
  · intro h p content he hprotected
    cases p with
    | nil =>
      obtain ⟨name, hname, -⟩ := hprotected
      exact absurd hname List.not_mem_nil
    | cons name p =>
      have hleft := (h.files (name :: p) content (List.cons_ne_nil _ _)).mpr ⟨he, hprotected⟩
      exact ⟨name, rfl, (targetedClean_files.mp hleft).2⟩
  · intro htop
    refine ⟨fun p content hne => ?_, fun e he => (mem_targetedClean.mp he).2⟩
    cases p with
    | nil => exact absurd rfl hne
    | cons name p =>
      rw [targetedClean_files]
      refine and_congr_right fun he => ⟨fun h => ⟨name, List.mem_cons_self, h⟩, fun h => ?_⟩
      obtain ⟨name', hname', hspared⟩ := htop _ content he h
      exact Option.some.inj hname' ▸ hspared

/-- The keys of a service in a directory of its own. -/
def nestedKeys : FileTree Unit where
  entries := [([etc], .dir), ([etc, "ipsec".toList], .dir),
    ([etc, "ipsec".toList, "ssl".toList], .dir),
    ([etc, "ipsec".toList, "ssl".toList, "key".toList], .file ())]
  nodup := by decide
  names := by decide
  parents := by decide

/-- They go with their directory. -/
theorem not_restored_nestedKeys :
    ¬ Restored nestedKeys (restore (fun _ => false) 1 nestedKeys) := by
  intro h
  have hprotected : Protected ["ipsec".toList, "ssl".toList, "key".toList] :=
    ⟨"ssl".toList, by decide, "ssl".toList, by decide, List.prefix_rfl⟩
  have hleft := (h.files _ () (List.cons_ne_nil _ _)).mpr ⟨by decide, hprotected⟩
  exact absurd hleft (by decide +kernel)

end MetaCommon.PreinitMounts
