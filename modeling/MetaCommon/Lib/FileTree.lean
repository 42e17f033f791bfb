import Mathlib.Data.List.Basic
import Mathlib.Data.List.Infix
import Mathlib.Data.List.Nodup

/-!
# Directory trees, `rm -rf` and `find`

A tree is the list of its entries, each with its path from the root. `find` walks them and collects
those that pass its test; the command removes what has been collected, once the arguments are many
enough and again at the end. An entry stays if no path before it passes the test, whenever the
command runs.
-/

abbrev TreePath := List (List Char)

inductive FileNode (γ : Type*)
  | dir
  | file (content : γ)
deriving DecidableEq

structure FileTree (γ : Type*) where
  entries : List (TreePath × FileNode γ)
  nodup : (entries.map Prod.fst).Nodup
  names : ∀ e ∈ entries, ∀ name ∈ e.1, '/' ∉ name
  parents : ∀ e ∈ entries, e.1.dropLast ≠ [] → (e.1.dropLast, .dir) ∈ entries

namespace FileTree

variable {γ : Type*}

def empty : FileTree γ :=
  ⟨[], .nil, fun _ he => absurd he List.not_mem_nil, fun _ he => absurd he List.not_mem_nil⟩

def isDir (t : FileTree γ) (p : TreePath) : Bool :=
  t.entries.any fun e => match e.2 with
    | .dir => e.1 = p
    | .file _ => false

/-- `rm -rf` of one path. -/
def remove (t : FileTree γ) (p : TreePath) : FileTree γ where
  entries := t.entries.filter fun e => ¬ p <+: e.1
  nodup := (List.filter_sublist.map Prod.fst).nodup t.nodup
  names e he := t.names e (List.mem_of_mem_filter he)
  parents e he hne := by
    have hkept : ¬ p <+: e.1 := by simpa using (List.mem_filter.mp he).2
    refine List.mem_filter.mpr ⟨t.parents e (List.mem_of_mem_filter he) hne, ?_⟩
    rw [decide_eq_true_eq]
    exact fun hp => hkept (hp.trans (List.dropLast_prefix e.1))

def removeAll (t : FileTree γ) (args : List TreePath) : FileTree γ := args.foldl remove t

theorem mem_remove {t : FileTree γ} {p : TreePath} {e : TreePath × FileNode γ} :
    e ∈ (t.remove p).entries ↔ e ∈ t.entries ∧ ¬ p <+: e.1 := by
  simp [remove, List.mem_filter]

theorem mem_removeAll {t : FileTree γ} {args : List TreePath} {e : TreePath × FileNode γ} :
    e ∈ (t.removeAll args).entries ↔ e ∈ t.entries ∧ ∀ p ∈ args, ¬ p <+: e.1 := by
  induction args generalizing t with
  | nil => simp [removeAll]
  | cons p args ih =>
    rw [removeAll, List.foldl_cons, ← removeAll, ih, mem_remove, List.forall_mem_cons, and_assoc]

/-- What is above an entry is a directory of the tree. -/
theorem dir_mem_of_prefix (t : FileTree γ) {e : TreePath × FileNode γ} (he : e ∈ t.entries)
    {p : TreePath} (hne : p ≠ []) (hp : p <+: e.1) (hlt : p ≠ e.1) : (p, .dir) ∈ t.entries := by
  obtain ⟨rest, hrest⟩ := hp
  induction rest using List.reverseRecOn generalizing e with
  | nil => exact absurd ((List.append_nil p).symm.trans hrest) hlt
  | append_singleton rest name ih =>
    rw [← List.append_assoc] at hrest
    have hparent := t.parents e he
    rw [← hrest, List.dropLast_concat] at hparent
    replace hparent := hparent (List.append_ne_nil_of_left_ne_nil hne rest)
    by_cases hrest' : p = p ++ rest
    · rwa [← hrest'] at hparent
    · exact ih hparent hrest' rfl

theorem mem_of_prefix (t : FileTree γ) {e : TreePath × FileNode γ} (he : e ∈ t.entries)
    {p : TreePath} (hne : p ≠ []) (hp : p <+: e.1) : p ∈ t.entries.map Prod.fst := by
  by_cases hlt : p = e.1
  · exact hlt ▸ List.mem_map_of_mem he
  · exact List.mem_map_of_mem (t.dir_mem_of_prefix he hne hp hlt)

section Find

variable (base : TreePath) (test : TreePath → Bool) (full : List TreePath → Bool)

/-- `find` comes to an entry, unless it has been removed by then. The test is for the path from the
directory in which `find` was started. -/
def visit (s : FileTree γ × List TreePath) (p : TreePath) : FileTree γ × List TreePath :=
  if base ++ p ∈ s.1.entries.map Prod.fst ∧ test p = true then
    let args := s.2 ++ [base ++ p]
    if full args then (s.1.removeAll args, []) else (s.1, args)
  else s

/-- The paths below a directory, and its own one, the empty path. -/
def below (t : FileTree γ) : List TreePath :=
  (t.entries.map Prod.fst).filterMap fun p =>
    if base <+: p then some (p.drop base.length) else none

/-- `cd base; find . test -exec rm -rf {} +` -/
def findRemove (t : FileTree γ) : FileTree γ :=
  let s := (t.below base).foldl (visit base test full) (t, [])
  s.1.removeAll s.2

variable {base test full} {t : FileTree γ}

theorem mem_below {p : TreePath} : p ∈ t.below base ↔ base ++ p ∈ t.entries.map Prod.fst := by
  unfold below
  simp only [List.mem_filterMap]
  constructor
  · rintro ⟨q, hq, heq⟩
    split_ifs at heq with hbase
    obtain rfl := Option.some.inj heq
    obtain ⟨rest, rfl⟩ := hbase
    rwa [List.drop_left]
  · intro hp
    exact ⟨base ++ p, hp, by rw [if_pos (List.prefix_append base p), List.drop_left]⟩

/-- In the middle of the walk: what has been removed, and what is collected, has passed the test,
and of what has been seen nothing that passes it is left out. -/
structure Walked (base : TreePath) (test : TreePath → Bool) (t : FileTree γ)
    (seen removed : List TreePath) (s : FileTree γ × List TreePath) : Prop where
  entries : ∀ e, e ∈ s.1.entries ↔ e ∈ t.entries ∧ ∀ r ∈ removed, ¬ r <+: e.1
  tested : ∀ r ∈ removed ++ s.2, ∃ p ∈ t.below base, test p = true ∧ r = base ++ p
  seen : ∀ p ∈ seen, test p = true → base ++ p ∈ s.2 ∨ ∃ r ∈ removed, r <+: base ++ p

theorem Walked.removeAll {seen removed : List TreePath} {s : FileTree γ × List TreePath}
    (h : Walked base test t seen removed s) :
    Walked base test t seen (removed ++ s.2) (s.1.removeAll s.2, []) where
  entries e := by
    rw [mem_removeAll, h.entries, List.forall_mem_append, and_assoc]
  tested := by
    rw [List.append_nil]
    exact h.tested
  seen p hp htest := by
    refine .inr ?_
    rcases h.seen p hp htest with hmem | ⟨r, hr, hbegins⟩
    · exact ⟨_, List.mem_append_right _ hmem, List.prefix_rfl⟩
    · exact ⟨r, List.mem_append_left _ hr, hbegins⟩

theorem Walked.visit {seen removed : List TreePath} {s : FileTree γ × List TreePath} {p : TreePath}
    (full : List TreePath → Bool) (h : Walked base test t seen removed s) (hp : p ∈ t.below base) :
    ∃ removed', Walked base test t (seen ++ [p]) removed' (visit base test full s p) := by
  unfold FileTree.visit
  by_cases hvisit : base ++ p ∈ s.1.entries.map Prod.fst ∧ test p = true
  · have hcollect : Walked base test t (seen ++ [p]) removed (s.1, s.2 ++ [base ++ p]) := by
      refine ⟨h.entries, ?_, fun q hq htest => ?_⟩
      · rw [← List.append_assoc]
        refine List.forall_mem_append.mpr ⟨h.tested, ?_⟩
        rw [List.forall_mem_singleton]
        exact ⟨p, hp, hvisit.2, rfl⟩
      · rcases List.mem_append.mp hq with hq | hq
        · exact (h.seen q hq htest).imp_left (List.mem_append_left _)
        · rw [List.mem_singleton.mp hq]
          exact .inl (List.mem_append_right _ (List.mem_singleton_self _))
    rw [if_pos hvisit]
    dsimp only
    split_ifs
    · exact ⟨_, hcollect.removeAll⟩
    · exact ⟨_, hcollect⟩
  · rw [if_neg hvisit]
    refine ⟨removed, h.entries, h.tested, fun q hq htest => ?_⟩
    rcases List.mem_append.mp hq with hq | hq
    · exact h.seen q hq htest
    · -- It passes the test, so it has been removed before `find` came to it.
      rw [List.mem_singleton.mp hq] at htest ⊢
      right
      by_contra hno
      refine hvisit ⟨?_, htest⟩
      obtain ⟨e, he, heq⟩ := List.mem_map.mp (mem_below.mp hp)
      refine List.mem_map.mpr ⟨e, (h.entries e).mpr ⟨he, fun r hr hbegins => ?_⟩, heq⟩
      exact hno ⟨r, hr, heq ▸ hbegins⟩

theorem exists_walked (full : List TreePath → Bool) (ps seen removed : List TreePath)
    (s : FileTree γ × List TreePath)
    (h : Walked base test t seen removed s) (hps : ∀ p ∈ ps, p ∈ t.below base) :
    ∃ removed', Walked base test t (seen ++ ps) removed'
      (ps.foldl (FileTree.visit base test full) s) := by
  induction ps generalizing seen removed s with
  | nil => exact ⟨removed, by rwa [List.append_nil]⟩
  | cons p ps ih =>
    obtain ⟨hp, hps⟩ := List.forall_mem_cons.mp hps
    obtain ⟨removed', h'⟩ := h.visit full hp
    obtain ⟨removed'', h''⟩ := ih _ _ _ h' hps
    rw [List.append_assoc] at h''
    exact ⟨removed'', h''⟩

/-- What is left: the entries above which, themselves included, nothing passes the test. -/
theorem mem_findRemove {e : TreePath × FileNode γ} :
    e ∈ (t.findRemove base test full).entries ↔
      e ∈ t.entries ∧ ∀ p ∈ t.below base, test p = true → ¬ base ++ p <+: e.1 := by
  have hstart : Walked base test t [] [] (t, []) :=
    ⟨fun e => by simp, fun r hr => absurd hr List.not_mem_nil,
      fun p hp => absurd hp List.not_mem_nil⟩
  obtain ⟨removed, h⟩ := exists_walked full (t.below base) [] [] (t, []) hstart
    fun p hp => hp
  have hend := h.removeAll
  rw [List.nil_append] at hend
  refine (hend.entries e).trans (and_congr_right fun _ => ⟨fun hall p hp htest hbegins => ?_,
    fun hall r hr => ?_⟩)
  · obtain ⟨r, hr, hr'⟩ := (hend.seen p hp htest).resolve_left List.not_mem_nil
    exact hall r hr (hr'.trans hbegins)
  · obtain ⟨p, hp, htest, rfl⟩ := hend.tested r (List.mem_append_left _ hr)
    exact hall p hp htest

end Find

end FileTree
