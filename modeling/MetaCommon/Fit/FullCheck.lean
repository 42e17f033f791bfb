import Mathlib.Tactic.Linarith
import MetaCommon.Lib.Forest

/-!
# The full check of a flattened device tree

`fdt_check_full` walks over the tags of the structure block and counts the open nodes. The blob is
seen through the functions of libfdt, which are a parameter: what they document is `Documented`.
The check accepts the blobs whose tags are the stream of a forest with properties that can be read.
It says nothing about how many roots there are.
-/

namespace MetaCommon.Fit

open Forest (Token openAfter mostOpen leavesOf)

inductive Tag where
  | nop
  | fdtEnd
  | beginNode
  | endNode
  | prop
  | other (value : ℕ)
  deriving DecidableEq, Repr

def FDT_ERR_TRUNCATED : ℤ := 8
def FDT_ERR_BADSTRUCTURE : ℤ := 11
def FDT_ERR_INTERNAL : ℤ := 13
def FDT_V1_SIZE : ℕ := 28
def INT_MAX : ℕ := 2 ^ 31 - 1

/-- What libfdt answers about a blob. -/
structure Fdt where
  checkHeader : ℤ
  totalsize : ℕ
  numMemRsv : ℤ
  nextTag : ℤ → Tag × ℤ
  /-- The error, if the property at the offset cannot be read. -/
  getpropByOffset : ℤ → Option ℤ
  rootHasProp : String → Bool
  getName : ℤ → Option String
  firstSubnode : ℤ → ℤ
  nextSubnode : ℤ → ℤ
  pathOffset : String → ℤ

/-- Offsets that libfdt returns lie behind the one it was given and inside the blob, and errors are
negative. -/
structure Fdt.Documented (fdt : Fdt) : Prop where
  nextTag_gt : ∀ offset, 0 ≤ (fdt.nextTag offset).2 → offset < (fdt.nextTag offset).2
  nextTag_le : ∀ offset, (fdt.nextTag offset).2 ≤ fdt.totalsize
  getprop_neg : ∀ offset err, fdt.getpropByOffset offset = some err → err < 0
  firstSubnode_gt : ∀ node, 0 ≤ fdt.firstSubnode node → node < fdt.firstSubnode node
  firstSubnode_le : ∀ node, fdt.firstSubnode node ≤ fdt.totalsize
  nextSubnode_gt : ∀ node, 0 ≤ fdt.nextSubnode node → node < fdt.nextSubnode node
  nextSubnode_le : ∀ node, fdt.nextSubnode node ≤ fdt.totalsize

/-- The `while (1)` of `fdt_check_full`; the first argument bounds the number of tags it reads. -/
def checkTags (fdt : Fdt) : ℕ → ℤ → ℕ → Option ℤ
  | 0, _, _ => none
  | fuel + 1, offset, depth =>
    let (tag, nextoffset) := fdt.nextTag offset
    if nextoffset < 0 then some nextoffset
    else match tag with
      | .nop => checkTags fdt fuel nextoffset depth
      | .fdtEnd => if depth ≠ 0 then some (-FDT_ERR_BADSTRUCTURE) else some 0
      | .beginNode =>
        if INT_MAX < depth + 1 then some (-FDT_ERR_BADSTRUCTURE)
        else checkTags fdt fuel nextoffset (depth + 1)
      | .endNode =>
        if depth = 0 then some (-FDT_ERR_BADSTRUCTURE)
        else checkTags fdt fuel nextoffset (depth - 1)
      | .prop =>
        match fdt.getpropByOffset offset with
        | some err => some err
        | none => checkTags fdt fuel nextoffset depth
      | .other _ => some (-FDT_ERR_INTERNAL)

def fdtCheckFull (fdt : Fdt) (bufsize fuel : ℕ) : Option ℤ :=
  if bufsize < FDT_V1_SIZE then some (-FDT_ERR_TRUNCATED)
  else if fdt.checkHeader ≠ 0 then some fdt.checkHeader
  else if bufsize < fdt.totalsize then some (-FDT_ERR_TRUNCATED)
  else if fdt.numMemRsv < 0 then some fdt.numMemRsv
  else checkTags fdt fuel 0 0

/-- The tags from an offset up to the end, without those that mean nothing. A node and a property
are known by their offsets. -/
inductive Reads (fdt : Fdt) : ℤ → List (Token ℤ ℤ) → Prop where
  | done {offset next : ℤ} (h : fdt.nextTag offset = (.fdtEnd, next)) (hn : 0 ≤ next) :
      Reads fdt offset []
  | nop {offset next : ℤ} {ts : List (Token ℤ ℤ)} (h : fdt.nextTag offset = (.nop, next))
      (hn : 0 ≤ next) (hts : Reads fdt next ts) : Reads fdt offset ts
  | enter {offset next : ℤ} {ts : List (Token ℤ ℤ)} (h : fdt.nextTag offset = (.beginNode, next))
      (hn : 0 ≤ next) (hts : Reads fdt next ts) : Reads fdt offset (.enter offset :: ts)
  | leave {offset next : ℤ} {ts : List (Token ℤ ℤ)} (h : fdt.nextTag offset = (.endNode, next))
      (hn : 0 ≤ next) (hts : Reads fdt next ts) : Reads fdt offset (.leave :: ts)
  | prop {offset next : ℤ} {ts : List (Token ℤ ℤ)} (h : fdt.nextTag offset = (.prop, next))
      (hn : 0 ≤ next) (hts : Reads fdt next ts) : Reads fdt offset (.leaf offset :: ts)

/-- What the loop asks of the tags it reads when `depth` nodes are open. -/
structure Nested (fdt : Fdt) (depth : ℕ) (ts : List (Token ℤ ℤ)) : Prop where
  closes : openAfter depth ts = some 0
  shallow : mostOpen depth ts ≤ INT_MAX
  readable : ∀ offset ∈ leavesOf ts, fdt.getpropByOffset offset = none

section Loop

variable {fdt : Fdt}

/-- Every tag lies behind the one before it. -/
theorem exists_checkTags_eq (hfdt : fdt.Documented) (fuel : ℕ) {offset : ℤ} (depth : ℕ)
    (hle : offset ≤ fdt.totalsize) (hfuel : fdt.totalsize - offset < fuel) :
    ∃ ret, checkTags fdt fuel offset depth = some ret := by
  induction fuel generalizing offset depth with
  | zero => omega
  | succ fuel ih =>
    have hgt := hfdt.nextTag_gt offset
    have hle' := hfdt.nextTag_le offset
    rw [checkTags]
    cases htag : fdt.nextTag offset with
    | mk tag next =>
      rw [htag] at hgt hle'
      by_cases hneg : next < 0
      · exact ⟨next, if_pos hneg⟩
      · have hnext : ∀ depth, ∃ ret, checkTags fdt fuel next depth = some ret := by
          intro depth
          have hpos := hgt (by omega)
          apply ih depth hle'
          simp only at hpos
          push_cast at hfuel
          omega
        simp only [if_neg hneg]
        cases tag with
        | nop => exact hnext depth
        | fdtEnd => split_ifs <;> exact ⟨_, rfl⟩
        | beginNode =>
          by_cases hmax : INT_MAX < depth + 1
          · exact ⟨_, if_pos hmax⟩
          · simpa only [if_neg hmax] using hnext (depth + 1)
        | endNode =>
          by_cases hzero : depth = 0
          · exact ⟨_, if_pos hzero⟩
          · simpa only [if_neg hzero] using hnext (depth - 1)
        | prop =>
          cases hprop : fdt.getpropByOffset offset with
          | some err => exact ⟨err, rfl⟩
          | none => simpa only [hprop] using hnext depth
        | other value => exact ⟨_, rfl⟩

theorem nested_cons_leaf_iff {depth : ℕ} {offset : ℤ} {ts : List (Token ℤ ℤ)} :
    Nested fdt depth (.leaf offset :: ts) ↔
      fdt.getpropByOffset offset = none ∧ Nested fdt depth ts := by
  constructor
  · intro h
    exact ⟨h.readable offset List.mem_cons_self, h.closes, h.shallow,
      fun o ho => h.readable o (List.mem_cons_of_mem _ ho)⟩
  · rintro ⟨hoff, h⟩
    exact ⟨h.closes, h.shallow, List.forall_mem_cons.mpr ⟨hoff, h.readable⟩⟩

theorem nested_cons_leave_iff {depth : ℕ} {ts : List (Token ℤ ℤ)} :
    Nested fdt depth (.leave :: ts) ↔
      depth ≠ 0 ∧ depth ≤ INT_MAX ∧ Nested fdt (depth - 1) ts := by
  cases depth with
  | zero =>
    constructor
    · intro h
      exact absurd h.closes (by simp [openAfter])
    · intro h
      exact absurd rfl h.1
  | succ depth =>
    constructor
    · intro h
      have hmax := h.shallow
      rw [mostOpen, max_le_iff] at hmax
      exact ⟨by omega, hmax.1, h.closes, hmax.2, h.readable⟩
    · rintro ⟨_, hle, h⟩
      exact ⟨h.closes, max_le hle h.shallow, h.readable⟩

theorem nested_cons_enter_iff {depth : ℕ} {offset : ℤ} {ts : List (Token ℤ ℤ)} :
    Nested fdt depth (.enter offset :: ts) ↔ Nested fdt (depth + 1) ts := by
  constructor
  · intro h
    have hmax := h.shallow
    rw [mostOpen, max_le_iff] at hmax
    exact ⟨h.closes, hmax.2, h.readable⟩
  · intro h
    have hle := Forest.le_mostOpen (depth + 1) ts
    have hmax := h.shallow
    refine ⟨h.closes, ?_, h.readable⟩
    rw [mostOpen, max_le_iff]
    omega

theorem nested_nil_iff {depth : ℕ} : Nested fdt depth [] ↔ depth = 0 := by
  constructor
  · intro h
    simpa [openAfter] using h.closes
  · rintro rfl
    exact ⟨rfl, by simp [mostOpen], by simp [leavesOf]⟩

theorem badStructure_ne_zero : some (-FDT_ERR_BADSTRUCTURE) ≠ some 0 := by decide

theorem internal_ne_zero : some (-FDT_ERR_INTERNAL) ≠ some 0 := by decide

theorem exists_nested_of_checkTags (hfdt : fdt.Documented) {fuel : ℕ} {offset : ℤ} {depth : ℕ}
    (hdepth : depth ≤ INT_MAX) (h : checkTags fdt fuel offset depth = some 0) :
    ∃ ts, Reads fdt offset ts ∧ Nested fdt depth ts := by
  induction fuel generalizing offset depth with
  | zero => exact absurd h (by simp [checkTags])
  | succ fuel ih =>
    rw [checkTags] at h
    cases htag : fdt.nextTag offset with
    | mk tag next =>
      rw [htag] at h
      by_cases hneg : next < 0
      · simp only [if_pos hneg, Option.some.injEq] at h
        omega
      · simp only [if_neg hneg] at h
        have hn : 0 ≤ next := by omega
        cases tag with
        | nop =>
          obtain ⟨ts, hts, hnest⟩ := ih hdepth h
          exact ⟨ts, .nop htag hn hts, hnest⟩
        | fdtEnd =>
          have hzero : depth = 0 := by
            by_contra hne
            rw [if_pos hne] at h
            exact absurd h badStructure_ne_zero
          exact ⟨[], .done htag hn, nested_nil_iff.mpr hzero⟩
        | beginNode =>
          by_cases hmax : INT_MAX < depth + 1
          · rw [if_pos hmax] at h
            exact absurd h badStructure_ne_zero
          · rw [if_neg hmax] at h
            obtain ⟨ts, hts, hnest⟩ := ih (by omega) h
            exact ⟨_, .enter htag hn hts, nested_cons_enter_iff.mpr hnest⟩
        | endNode =>
          by_cases hzero : depth = 0
          · rw [if_pos hzero] at h
            exact absurd h badStructure_ne_zero
          · rw [if_neg hzero] at h
            obtain ⟨ts, hts, hnest⟩ := ih (by omega) h
            exact ⟨_, .leave htag hn hts, nested_cons_leave_iff.mpr ⟨hzero, hdepth, hnest⟩⟩
        | prop =>
          cases hprop : fdt.getpropByOffset offset with
          | some err =>
            have herr := hfdt.getprop_neg offset err hprop
            simp only [hprop, Option.some.injEq] at h
            omega
          | none =>
            simp only [hprop] at h
            obtain ⟨ts, hts, hnest⟩ := ih hdepth h
            exact ⟨_, .prop htag hn hts, nested_cons_leaf_iff.mpr ⟨hprop, hnest⟩⟩
        | other value => exact absurd h internal_ne_zero

/-- The induction is on the tags that are read; that the loop returns at all is used for its fuel. -/
theorem checkTags_eq_zero_of_nested {fuel : ℕ} {offset : ℤ} {depth : ℕ} {ret : ℤ}
    {ts : List (Token ℤ ℤ)} (hts : Reads fdt offset ts) (hnest : Nested fdt depth ts)
    (hret : checkTags fdt fuel offset depth = some ret) : ret = 0 := by
  induction hts generalizing fuel depth with
  | done htag hn =>
    cases fuel with
    | zero => exact absurd hret (by simp [checkTags])
    | succ fuel =>
      rw [nested_nil_iff] at hnest
      rw [checkTags, htag] at hret
      simp only [if_neg (Int.not_lt.mpr hn), hnest, ne_eq, not_true, if_false,
        Option.some.injEq] at hret
      exact hret.symm
  | nop htag hn hts ih =>
    cases fuel with
    | zero => exact absurd hret (by simp [checkTags])
    | succ fuel =>
      rw [checkTags, htag] at hret
      simp only [if_neg (Int.not_lt.mpr hn)] at hret
      exact ih hnest hret
  | enter htag hn hts ih =>
    cases fuel with
    | zero => exact absurd hret (by simp [checkTags])
    | succ fuel =>
      rw [nested_cons_enter_iff] at hnest
      have hle := Forest.le_mostOpen (depth + 1) _ |>.trans hnest.shallow
      rw [checkTags, htag] at hret
      simp only [if_neg (Int.not_lt.mpr hn), if_neg (Nat.not_lt.mpr hle)] at hret
      exact ih hnest hret
  | leave htag hn hts ih =>
    cases fuel with
    | zero => exact absurd hret (by simp [checkTags])
    | succ fuel =>
      rw [nested_cons_leave_iff] at hnest
      rw [checkTags, htag] at hret
      simp only [if_neg (Int.not_lt.mpr hn), if_neg hnest.1] at hret
      exact ih hnest.2.2 hret
  | prop htag hn hts ih =>
    cases fuel with
    | zero => exact absurd hret (by simp [checkTags])
    | succ fuel =>
      rw [nested_cons_leaf_iff] at hnest
      rw [checkTags, htag] at hret
      simp only [if_neg (Int.not_lt.mpr hn), hnest.1] at hret
      exact ih hnest.2 hret

end Loop

/-- The structure block is the stream of a forest that is not too deep and whose properties can be
read. -/
def WellStructured (fdt : Fdt) : Prop :=
  ∃ f : Forest ℤ ℤ, Reads fdt 0 f.tokens ∧ f.height ≤ INT_MAX ∧
    ∀ offset ∈ f.leaves, fdt.getpropByOffset offset = none

theorem wellStructured_iff (fdt : Fdt) :
    WellStructured fdt ↔ ∃ ts, Reads fdt 0 ts ∧ Nested fdt 0 ts := by
  constructor
  · rintro ⟨f, hreads, hheight, hread⟩
    refine ⟨f.tokens, hreads, Forest.openAfter_tokens f 0, ?_, ?_⟩
    · rw [Forest.mostOpen_tokens, Nat.zero_add]
      exact hheight
    · rw [Forest.leavesOf_tokens]
      exact hread
  · rintro ⟨ts, hreads, hnest⟩
    obtain ⟨f, rfl⟩ := Forest.openAfter_eq_some_zero_iff.mp hnest.closes
    have hheight := hnest.shallow
    have hread := hnest.readable
    rw [Forest.mostOpen_tokens, Nat.zero_add] at hheight
    rw [Forest.leavesOf_tokens] at hread
    exact ⟨f, hreads, hheight, hread⟩

/-- What has to be right about the header and the size before the tags are read. -/
structure HeaderFits (fdt : Fdt) (bufsize : ℕ) : Prop where
  atLeastV1 : FDT_V1_SIZE ≤ bufsize
  header : fdt.checkHeader = 0
  whole : fdt.totalsize ≤ bufsize
  memRsv : 0 ≤ fdt.numMemRsv

theorem exists_fdtCheckFull_eq {fdt : Fdt} (hfdt : fdt.Documented) (bufsize : ℕ) {fuel : ℕ}
    (hfuel : fdt.totalsize < fuel) :
    ∃ ret, fdtCheckFull fdt bufsize fuel = some ret ∧
      (ret = 0 ↔ HeaderFits fdt bufsize ∧ WellStructured fdt) := by
  obtain ⟨ret, hret⟩ := exists_checkTags_eq hfdt fuel 0 (Int.natCast_nonneg _) (by omega)
  rw [fdtCheckFull]
  by_cases hv1 : bufsize < FDT_V1_SIZE
  · refine ⟨_, if_pos hv1, ?_⟩
    constructor
    · intro h
      exact absurd h (by decide)
    · intro h
      exact absurd hv1 (Nat.not_lt.mpr h.1.atLeastV1)
  rw [if_neg hv1]
  by_cases hheader : fdt.checkHeader ≠ 0
  · exact ⟨_, if_pos hheader, fun h => absurd h hheader, fun h => h.1.header⟩
  rw [if_neg hheader]
  by_cases hwhole : bufsize < fdt.totalsize
  · refine ⟨_, if_pos hwhole, ?_⟩
    constructor
    · intro h
      exact absurd h (by decide)
    · intro h
      exact absurd hwhole (Nat.not_lt.mpr h.1.whole)
  rw [if_neg hwhole]
  by_cases hmem : fdt.numMemRsv < 0
  · refine ⟨_, if_pos hmem, ?_⟩
    constructor
    · intro h
      omega
    · intro h
      exact absurd hmem (Int.not_lt.mpr h.1.memRsv)
  rw [if_neg hmem]
  refine ⟨ret, hret, ?_⟩
  constructor
  · rintro rfl
    have hfits : HeaderFits fdt bufsize :=
      ⟨Nat.not_lt.mp hv1, not_not.mp hheader, Nat.not_lt.mp hwhole, Int.not_lt.mp hmem⟩
    exact ⟨hfits, (wellStructured_iff fdt).mpr
      (exists_nested_of_checkTags hfdt (Nat.zero_le _) hret)⟩
  · rintro ⟨_, hstruct⟩
    obtain ⟨ts, hreads, hnest⟩ := (wellStructured_iff fdt).mp hstruct
    exact checkTags_eq_zero_of_nested hreads hnest hret

/-- The check returns after at most as many tags as the blob has bytes. Any number of roots passes:
what is asked of the tags is a forest, not a tree. -/
theorem fdtCheckFull_accepts_forests (fdt : Fdt) (hfdt : fdt.Documented) (bufsize fuel : ℕ)
    (hfuel : fdt.totalsize < fuel) :
    ∃ ret, fdtCheckFull fdt bufsize fuel = some ret ∧
      (ret = 0 ↔ FDT_V1_SIZE ≤ bufsize ∧ fdt.checkHeader = 0 ∧ fdt.totalsize ≤ bufsize ∧
        0 ≤ fdt.numMemRsv ∧ ∃ f : Forest ℤ ℤ, Reads fdt 0 f.tokens ∧ f.height ≤ INT_MAX ∧
          ∀ offset ∈ f.leaves, fdt.getpropByOffset offset = none) := by
  obtain ⟨ret, hret, hiff⟩ := exists_fdtCheckFull_eq hfdt bufsize hfuel
  refine ⟨ret, hret, hiff.trans ?_⟩
  constructor
  · rintro ⟨hfits, hstruct⟩
    exact ⟨hfits.atLeastV1, hfits.header, hfits.whole, hfits.memRsv, hstruct⟩
  · rintro ⟨hv1, hheader, hwhole, hmem, hstruct⟩
    exact ⟨⟨hv1, hheader, hwhole, hmem⟩, hstruct⟩

/-- A blob with two roots: each is a node without a name, and the first has a property. -/
def twoRoots : Fdt where
  checkHeader := 0
  totalsize := 128
  numMemRsv := 0
  nextTag offset :=
    if offset = 0 then (.beginNode, 8) else if offset = 8 then (.prop, 24)
    else if offset = 24 then (.endNode, 28) else if offset = 28 then (.beginNode, 36)
    else if offset = 36 then (.endNode, 40) else if offset = 40 then (.fdtEnd, 44)
    else (.fdtEnd, -FDT_ERR_TRUNCATED)
  getpropByOffset offset := if offset = 8 then none else some (-FDT_ERR_INTERNAL)
  rootHasProp name := name = "description"
  getName offset := if offset = 0 ∨ offset = 28 then some "" else none
  firstSubnode _ := -1
  nextSubnode _ := -1
  pathOffset _ := -1

theorem twoRoots_documented : twoRoots.Documented where
  nextTag_gt offset := by
    simp only [twoRoots]
    split_ifs <;> simp_all [FDT_ERR_TRUNCATED]
  nextTag_le offset := by
    simp only [twoRoots]
    split_ifs <;> simp [FDT_ERR_TRUNCATED]
  getprop_neg offset err h := by
    simp only [twoRoots] at h
    split_ifs at h
    simp only [Option.some.injEq, FDT_ERR_INTERNAL] at h
    omega
  firstSubnode_gt _ h := by simp [twoRoots] at h
  firstSubnode_le _ := by simp [twoRoots]
  nextSubnode_gt _ h := by simp [twoRoots] at h
  nextSubnode_le _ := by simp [twoRoots]

theorem fdtCheckFull_accepts_two_roots :
    ∃ ret, fdtCheckFull twoRoots 128 129 = some ret ∧
      (ret = 0 ↔ FDT_V1_SIZE ≤ 128 ∧ twoRoots.checkHeader = 0 ∧ twoRoots.totalsize ≤ 128 ∧
        0 ≤ twoRoots.numMemRsv ∧ ∃ f : Forest ℤ ℤ, Reads twoRoots 0 f.tokens ∧
          f.height ≤ INT_MAX ∧ ∀ offset ∈ f.leaves, twoRoots.getpropByOffset offset = none) :=
  fdtCheckFull_accepts_forests twoRoots twoRoots_documented 128 129 (by decide)

example : fdtCheckFull twoRoots 128 129 = some 0 := by decide

end MetaCommon.Fit
