import Mathlib.Logic.Relation
import MetaCommon.Fit.FullCheck

/-!
# The format check of a FIT

`fit_check_format` looks for what a FIT must have, runs the full check and, where signatures are
enabled, refuses every image with a unit address in the name of a node.
-/

namespace MetaCommon.Fit

def ENOENT : ℤ := 2
def ENOEXEC : ℤ := 8
def EINVAL : ℤ := 22
def ENOMSG : ℤ := 42
def ENODATA : ℤ := 61
def EADDRNOTAVAIL : ℤ := 99

def FIT_DESC_PROP : String := "description"
def FIT_TIMESTAMP_PROP : String := "timestamp"
def FIT_IMAGES_PATH : String := "/images"

mutual

/-- `fdt_check_no_at`; the first argument bounds the depth of its calls and the turns of its
loops. -/
def fdtCheckNoAt (fdt : Fdt) : ℕ → ℤ → Option ℤ
  | 0, _ => none
  | fuel + 1, parent =>
    match fdt.getName parent with
    | none => some (-EADDRNOTAVAIL)
    | some name =>
      if '@' ∈ name.toList then some (-EADDRNOTAVAIL)
      else checkSubnodes fdt fuel (fdt.firstSubnode parent)

/-- The rest of `fdt_for_each_subnode`, from a subnode on. -/
def checkSubnodes (fdt : Fdt) : ℕ → ℤ → Option ℤ
  | 0, _ => none
  | fuel + 1, node =>
    if node < 0 then some 0
    else match fdtCheckNoAt fdt fuel node with
      | none => none
      | some ret =>
        if ret ≠ 0 then some ret else checkSubnodes fdt fuel (fdt.nextSubnode node)

end

structure Config where
  fitFullCheck : Bool
  fitSignature : Bool
  enableTimestamp : Bool

/-- `IMAGE_SIZE_INVAL` is the absence of a size. -/
def fitCheckFormat (config : Config) (fdt : Fdt) (size : Option ℕ) (fuel : ℕ) : Option ℤ :=
  let pathCheck : Option ℤ := if fdt.pathOffset FIT_IMAGES_PATH < 0 then some (-ENOENT) else some 0
  if fdt.checkHeader ≠ 0 then some (-ENOEXEC)
  else if fdt.rootHasProp FIT_DESC_PROP = false then some (-ENOMSG)
  else if config.enableTimestamp ∧ fdt.rootHasProp FIT_TIMESTAMP_PROP = false then some (-ENODATA)
  else if config.fitFullCheck then
    match fdtCheckFull fdt (size.getD fdt.totalsize) fuel with
    | none => none
    | some err =>
      if err ≠ 0 then some (-EINVAL)
      else if config.fitSignature then
        match fdtCheckNoAt fdt fuel 0 with
        | none => none
        | some ret => if ret ≠ 0 then some ret else pathCheck
      else pathCheck
  else pathCheck

/-- The subnodes of a node, as the two functions of libfdt walk over them. -/
inductive IsSubnode (fdt : Fdt) (parent : ℤ) : ℤ → Prop where
  | first (h : 0 ≤ fdt.firstSubnode parent) : IsSubnode fdt parent (fdt.firstSubnode parent)
  | next {node : ℤ} (hnode : IsSubnode fdt parent node) (h : 0 ≤ fdt.nextSubnode node) :
      IsSubnode fdt parent (fdt.nextSubnode node)

/-- A node stands at or below another one. -/
def Below (fdt : Fdt) (root node : ℤ) : Prop := Relation.ReflTransGen (IsSubnode fdt) root node

def NameIsPlain (fdt : Fdt) (node : ℤ) : Prop :=
  ∃ name, fdt.getName node = some name ∧ '@' ∉ name.toList

def NoUnitAddress (fdt : Fdt) (root : ℤ) : Prop := ∀ node, Below fdt root node → NameIsPlain fdt node

section Walk

variable {fdt : Fdt}

/-- A node and its later siblings. -/
inductive FromSibling (fdt : Fdt) : ℤ → ℤ → Prop where
  | here {node : ℤ} : FromSibling fdt node node
  | later {node other : ℤ} (h : 0 ≤ fdt.nextSubnode node)
      (ho : FromSibling fdt (fdt.nextSubnode node) other) : FromSibling fdt node other

theorem FromSibling.trans {a b c : ℤ} (hab : FromSibling fdt a b) (hbc : FromSibling fdt b c) :
    FromSibling fdt a c := by
  induction hab with
  | here => exact hbc
  | later h _ ih => exact .later h (ih hbc)

theorem isSubnode_iff {parent node : ℤ} :
    IsSubnode fdt parent node ↔
      0 ≤ fdt.firstSubnode parent ∧ FromSibling fdt (fdt.firstSubnode parent) node := by
  constructor
  · intro h
    induction h with
    | first h => exact ⟨h, .here⟩
    | next _ h ih => exact ⟨ih.1, ih.2.trans (.later h .here)⟩
  · rintro ⟨hpos, h⟩
    have hmain : ∀ a b, FromSibling fdt a b → IsSubnode fdt parent a → IsSubnode fdt parent b := by
      intro a b hab
      induction hab with
      | here => exact id
      | later h _ ih => exact fun ha => ih (.next ha h)
    exact hmain _ _ h (.first hpos)

theorem noUnitAddress_iff {parent : ℤ} :
    NoUnitAddress fdt parent ↔
      NameIsPlain fdt parent ∧ ∀ node, IsSubnode fdt parent node → NoUnitAddress fdt node := by
  constructor
  · intro h
    exact ⟨h parent .refl, fun node hnode below hbelow => h below (hbelow.head hnode)⟩
  · rintro ⟨hparent, hsub⟩ node hnode
    cases hnode.cases_head with
    | inl heq => exact heq ▸ hparent
    | inr hex =>
      obtain ⟨child, hchild, hbelow⟩ := hex
      exact hsub child hchild node hbelow

/-- All nodes at or below the later siblings of a node have plain names. -/
def SiblingsPlain (fdt : Fdt) (node : ℤ) : Prop :=
  0 ≤ node → ∀ sibling, FromSibling fdt node sibling → NoUnitAddress fdt sibling

theorem siblingsPlain_iff {node : ℤ} (hpos : 0 ≤ node) :
    SiblingsPlain fdt node ↔ NoUnitAddress fdt node ∧ SiblingsPlain fdt (fdt.nextSubnode node) := by
  constructor
  · intro h
    exact ⟨h hpos node .here, fun hnext sibling hsib => h hpos sibling (.later hnext hsib)⟩
  · rintro ⟨hnode, hrest⟩ _ sibling hsib
    cases hsib with
    | here => exact hnode
    | later h hsib => exact hrest h sibling hsib

theorem noUnitAddress_iff_siblingsPlain {parent : ℤ} :
    NoUnitAddress fdt parent ↔
      NameIsPlain fdt parent ∧ SiblingsPlain fdt (fdt.firstSubnode parent) := by
  rw [noUnitAddress_iff]
  refine and_congr_right fun _ => ?_
  constructor
  · intro h hpos sibling hsib
    exact h sibling (isSubnode_iff.mpr ⟨hpos, hsib⟩)
  · intro h node hnode
    obtain ⟨hpos, hsib⟩ := isSubnode_iff.mp hnode
    exact h hpos node hsib

/-- What a walk returns when it is to say whether `P` holds. -/
def Decides (ret : Option ℤ) (P : Prop) : Prop :=
  (ret = some 0 ∧ P) ∨ (ret = some (-EADDRNOTAVAIL) ∧ ¬ P)

theorem Decides.congr {ret : Option ℤ} {P Q : Prop} (h : Decides ret P) (hPQ : P ↔ Q) :
    Decides ret Q := by
  rcases h with ⟨hret, hP⟩ | ⟨hret, hP⟩
  · exact Or.inl ⟨hret, hPQ.mp hP⟩
  · exact Or.inr ⟨hret, fun hQ => hP (hPQ.mpr hQ)⟩

/-- Both functions at once, by induction on the fuel: a call needs two units for every byte that
lies behind its node. -/
theorem fdtCheckNoAt_and_checkSubnodes (hfdt : fdt.Documented) (fuel : ℕ) :
    (∀ parent : ℤ, parent ≤ fdt.totalsize → 2 * (fdt.totalsize - parent) + 2 ≤ fuel →
      Decides (fdtCheckNoAt fdt fuel parent) (NoUnitAddress fdt parent)) ∧
    (∀ node : ℤ, node ≤ fdt.totalsize → 0 < fuel →
      (0 ≤ node → 2 * (fdt.totalsize - node) + 3 ≤ fuel) →
      Decides (checkSubnodes fdt fuel node) (SiblingsPlain fdt node)) := by
  induction fuel with
  | zero => exact ⟨fun parent hle hfuel => by omega, fun node _ hpos _ => by omega⟩
  | succ fuel ih =>
    obtain ⟨ihNode, ihSubnodes⟩ := ih
    constructor
    · intro parent hle hfuel
      apply Decides.congr _ noUnitAddress_iff_siblingsPlain.symm
      rw [fdtCheckNoAt]
      cases hname : fdt.getName parent with
      | none =>
        apply Or.inr
        refine ⟨rfl, fun h => ?_⟩
        obtain ⟨name, hsome, _⟩ := h.1
        rw [hname] at hsome
        exact absurd hsome (by simp)
      | some name =>
        by_cases hat : '@' ∈ name.toList
        · apply Or.inr
          refine ⟨if_pos hat, fun h => ?_⟩
          obtain ⟨name', hsome, hplain⟩ := h.1
          rw [hname, Option.some_inj] at hsome
          exact hplain (hsome ▸ hat)
        · have hsub : Decides (checkSubnodes fdt fuel (fdt.firstSubnode parent))
              (SiblingsPlain fdt (fdt.firstSubnode parent)) := by
            apply ihSubnodes _ (hfdt.firstSubnode_le parent) (by omega)
            intro hpos
            have hgt := hfdt.firstSubnode_gt parent hpos
            push_cast at hfuel
            omega
          simp only [if_neg hat]
          exact hsub.congr ⟨fun h => ⟨⟨name, hname, hat⟩, h⟩, fun h => h.2⟩
    · intro node hle _ hfuel
      rw [checkSubnodes]
      by_cases hneg : node < 0
      · exact Or.inl ⟨if_pos hneg, fun hpos => by omega⟩
      · have hpos : 0 ≤ node := by omega
        have hfuel := hfuel hpos
        push_cast at hfuel
        have hsub : Decides (checkSubnodes fdt fuel (fdt.nextSubnode node))
            (SiblingsPlain fdt (fdt.nextSubnode node)) := by
          apply ihSubnodes _ (hfdt.nextSubnode_le node) (by omega)
          intro hnext
          have hgt := hfdt.nextSubnode_gt node hnext
          omega
        apply Decides.congr _ (siblingsPlain_iff hpos).symm
        rw [if_neg hneg]
        rcases ihNode node hle (by omega) with ⟨hret, hplain⟩ | ⟨hret, hplain⟩
        · simp only [hret, ne_eq, not_true, if_false]
          exact hsub.congr ⟨fun h => ⟨hplain, h⟩, fun h => h.2⟩
        · rw [hret]
          exact Or.inr ⟨rfl, fun h => hplain h.1⟩

theorem decides_fdtCheckNoAt (hfdt : fdt.Documented) {fuel : ℕ}
    (hfuel : 2 * fdt.totalsize + 2 ≤ fuel) :
    Decides (fdtCheckNoAt fdt fuel 0) (NoUnitAddress fdt 0) := by
  apply (fdtCheckNoAt_and_checkSubnodes hfdt fuel).1 0 (Int.natCast_nonneg _)
  omega

end Walk

/-! ### The checks in their order -/

/-- The code of the first check that fails, and zero if none does. -/
inductive FirstFailing : List (Prop × ℤ) → ℤ → Prop where
  | none : FirstFailing [] 0
  | fails {p : Prop} {code : ℤ} {checks : List (Prop × ℤ)} (hp : ¬ p) :
      FirstFailing ((p, code) :: checks) code
  | passes {p : Prop} {code ret : ℤ} {checks : List (Prop × ℤ)} (hp : p)
      (hret : FirstFailing checks ret) : FirstFailing ((p, code) :: checks) ret

theorem FirstFailing.eq_zero_iff {checks : List (Prop × ℤ)} {ret : ℤ}
    (h : FirstFailing checks ret) (hcodes : ∀ c ∈ checks, c.2 ≠ 0) :
    ret = 0 ↔ ∀ c ∈ checks, c.1 := by
  induction h with
  | none => simp
  | fails hp =>
    rw [List.forall_mem_cons] at hcodes ⊢
    exact iff_of_false hcodes.1 fun h => hp h.1
  | passes hp _ ih =>
    rw [List.forall_mem_cons] at hcodes ⊢
    exact (ih hcodes.2).trans (and_iff_right hp).symm

def formatChecks (config : Config) (fdt : Fdt) (size : Option ℕ) : List (Prop × ℤ) :=
  [(fdt.checkHeader = 0, -ENOEXEC),
    (fdt.rootHasProp FIT_DESC_PROP = true, -ENOMSG),
    (config.enableTimestamp = true → fdt.rootHasProp FIT_TIMESTAMP_PROP = true, -ENODATA),
    (config.fitFullCheck = true →
      HeaderFits fdt (size.getD fdt.totalsize) ∧ WellStructured fdt, -EINVAL),
    (config.fitFullCheck = true → config.fitSignature = true → NoUnitAddress fdt 0,
      -EADDRNOTAVAIL),
    (0 ≤ fdt.pathOffset FIT_IMAGES_PATH, -ENOENT)]

theorem formatChecks_codes (config : Config) (fdt : Fdt) (size : Option ℕ) :
    ∀ c ∈ formatChecks config fdt size, c.2 ≠ 0 := by
  simp [formatChecks, ENOEXEC, ENOMSG, ENODATA, EINVAL, EADDRNOTAVAIL, ENOENT]

theorem firstFailing_pathCheck (fdt : Fdt) :
    ∃ ret, (if fdt.pathOffset FIT_IMAGES_PATH < 0 then some (-ENOENT) else some 0) = some ret ∧
      FirstFailing [(0 ≤ fdt.pathOffset FIT_IMAGES_PATH, -ENOENT)] ret := by
  by_cases hpath : fdt.pathOffset FIT_IMAGES_PATH < 0
  · exact ⟨_, if_pos hpath, .fails (Int.not_le.mpr hpath)⟩
  · exact ⟨0, if_neg hpath, .passes (Int.not_lt.mp hpath) .none⟩

theorem exists_fitCheckFormat (config : Config) {fdt : Fdt} (hfdt : fdt.Documented)
    (size : Option ℕ) {fuel : ℕ} (hfuel : 2 * fdt.totalsize + 2 ≤ fuel) :
    ∃ ret, fitCheckFormat config fdt size fuel = some ret ∧
      FirstFailing (formatChecks config fdt size) ret := by
  obtain ⟨path, hpath, hpathFirst⟩ := firstFailing_pathCheck fdt
  have hfull : fdt.totalsize < fuel := by omega
  obtain ⟨err, herr, herrIff⟩ := exists_fdtCheckFull_eq hfdt (size.getD fdt.totalsize) hfull
  simp only [fitCheckFormat, hpath, herr]
  by_cases hheader : fdt.checkHeader ≠ 0
  · exact ⟨_, if_pos hheader, .fails hheader⟩
  rw [if_neg hheader]
  by_cases hdesc : fdt.rootHasProp FIT_DESC_PROP = false
  · exact ⟨_, if_pos hdesc, .passes (not_not.mp hheader) (.fails (by simp [hdesc]))⟩
  rw [if_neg hdesc]
  by_cases htime : config.enableTimestamp ∧ fdt.rootHasProp FIT_TIMESTAMP_PROP = false
  · refine ⟨_, if_pos htime, .passes (not_not.mp hheader) (.passes (by simpa using hdesc)
      (.fails fun h => ?_))⟩
    exact absurd (h htime.1) (by simp [htime.2])
  rw [if_neg htime]
  have hbefore : ∀ {ret : ℤ}, FirstFailing ((formatChecks config fdt size).drop 3) ret →
      FirstFailing (formatChecks config fdt size) ret := by
    intro ret hrest
    refine .passes (not_not.mp hheader) (.passes (by simpa using hdesc) (.passes ?_ hrest))
    intro hon
    by_contra hmissing
    exact htime ⟨hon, by simpa using hmissing⟩
  cases hfull : config.fitFullCheck with
  | false =>
    refine ⟨path, by simp, hbefore ?_⟩
    exact .passes (by simp [hfull]) (.passes (by simp [hfull]) hpathFirst)
  | true =>
    simp only [if_true]
    by_cases hzero : err ≠ 0
    · refine ⟨_, if_pos hzero, hbefore (.fails fun h => hzero ?_)⟩
      exact herrIff.mpr (h hfull)
    · have hstruct := herrIff.mp (not_not.mp hzero)
      rw [if_neg hzero]
      cases hsig : config.fitSignature with
      | false =>
        refine ⟨path, by simp, hbefore (.passes (fun _ => hstruct) ?_)⟩
        exact .passes (by simp [hsig]) hpathFirst
      | true =>
        rcases decides_fdtCheckNoAt hfdt hfuel with ⟨hret, hplain⟩ | ⟨hret, hplain⟩
        · refine ⟨path, by simp [hret], hbefore (.passes (fun _ => hstruct) ?_)⟩
          exact .passes (fun _ _ => hplain) hpathFirst
        · refine ⟨-EADDRNOTAVAIL, by simp [hret, EADDRNOTAVAIL], hbefore ?_⟩
          exact .passes (fun _ => hstruct) (.fails fun h => hplain (h hfull hsig))

/-- Whatever the blob is, the format check returns, and what it returns is decided by the first of
its checks that fails. With signatures enabled no image passes in which a node that libfdt can reach
from the root has a name with an `@`. -/
theorem fitCheckFormat_first_failing (config : Config) (fdt : Fdt) (hfdt : fdt.Documented)
    (size : Option ℕ) (fuel : ℕ) (hfuel : 2 * fdt.totalsize + 2 ≤ fuel) :
    ∃ ret, fitCheckFormat config fdt size fuel = some ret ∧
      FirstFailing (formatChecks config fdt size) ret ∧
      (ret = 0 ↔ ∀ c ∈ formatChecks config fdt size, c.1) := by
  obtain ⟨ret, hret, hfirst⟩ := exists_fitCheckFormat config hfdt size hfuel
  exact ⟨ret, hret, hfirst, hfirst.eq_zero_iff (formatChecks_codes config fdt size)⟩

/-- Both roots of the blob are without names, so it is the missing `/images` that is found. -/
theorem fitCheckFormat_first_failing_twoRoots :
    ∃ ret, fitCheckFormat ⟨true, true, false⟩ twoRoots none 300 = some ret ∧
      FirstFailing (formatChecks ⟨true, true, false⟩ twoRoots none) ret ∧
      (ret = 0 ↔ ∀ c ∈ formatChecks ⟨true, true, false⟩ twoRoots none, c.1) :=
  fitCheckFormat_first_failing ⟨true, true, false⟩ twoRoots twoRoots_documented none 300 (by decide)

end MetaCommon.Fit
