import Mathlib.Data.Finset.Insert
import Mathlib.Data.Finset.Lattice.Lemmas
import Mathlib.Data.Nat.Bitwise
import MetaCommon.Lib.Control

/-!
# The bus numbers of the CPUs

`getCPUBusMap` reads for each CPU the registers that hold the numbers of its own buses. The case of
Sapphire Rapids is the last one of the switch, and the case before it has no `break`: a CPU of that
case is asked for the registers of Sapphire Rapids as well.
-/

namespace MetaCommon.PeciPcie

open Control

structure CPUBusNoReg where
  seg : UInt8
  bus : UInt8
  dev : UInt8
  func : UInt8
  reg : UInt16
deriving DecidableEq

def cpuBusNoRegs : List CPUBusNoReg :=
  [⟨0, 8, 3, 0, 0x190⟩, ⟨0, 8, 3, 0, 0x194⟩, ⟨0, 8, 3, 0, 0x198⟩, ⟨0, 8, 3, 0, 0x19c⟩,
    ⟨0, 8, 3, 0, 0x1c0⟩, ⟨0, 8, 3, 0, 0x1c4⟩, ⟨0, 8, 3, 0, 0x1c8⟩, ⟨0, 8, 3, 0, 0x1cc⟩]

def cpuBusValidReg : CPUBusNoReg := ⟨0, 8, 3, 0, 0x1a0⟩

/-- One pass of the loop over the bits of the valid mask. -/
def addBus (cpuBusNums : List UInt32) (cpuBusValid : UInt32) (nums : Finset ℕ) (i : ℕ) :
    Finset ℕ :=
  if cpuBusValid &&& (1 <<< UInt32.ofNat i) = 0 then nums
  else
    let cpuBusNumReg := cpuBusNums.getD (i / 4) 0 >>> UInt32.ofNat (i % 4 * 8)
    insert (cpuBusNumReg &&& 0xFF).toNat nums

/-- What the case of Sapphire Rapids adds, by what `peci_RdEndPointConfigPciLocal` reads of the
CPU. It is none where a register cannot be read. -/
def sprCase (read : CPUBusNoReg → Option UInt32) : Option (Finset ℕ) :=
  (cpuBusNoRegs.mapM read).bind fun cpuBusNums =>
    (read cpuBusValidReg).map fun cpuBusValid =>
      (List.range 32).foldl (addBus cpuBusNums cpuBusValid) ∅

/-- The CPU models and their registers, and the cases above that of Sapphire Rapids. The last of
them is the one without a `break`. A body gives the bus numbers that it adds. -/
structure Platform (Model Hardware : Type) where
  spr : Model
  rdEndPointConfigPciLocal : Hardware → CPUBusNoReg → Option UInt32
  earlier : List (Case Model (Hardware → Option (Finset ℕ)))
  preceding : Model → Bool
  precedingCase : Hardware → Option (Finset ℕ)
  earlier_not_spr : ∀ c ∈ earlier, c.labels spr = false
  preceding_not_spr : preceding spr = false

structure CPUInfo (Model Hardware : Type) where
  model : Model
  hardware : Hardware

namespace Platform

variable {Model Hardware : Type} [DecidableEq Model] (P : Platform Model Hardware)

def cases : List (Case Model (Hardware → Option (Finset ℕ))) :=
  P.earlier ++ [⟨P.preceding, P.precedingCase, false⟩,
    ⟨fun m => m = P.spr, fun hw => sprCase (P.rdEndPointConfigPciLocal hw), false⟩]

/-- The numbers of one CPU, from an empty set on. -/
def cpuBusNums (cpu : CPUInfo Model Hardware) : Option (Finset ℕ) :=
  (ran P.cases cpu.model).foldlM (fun nums body => (body cpu.hardware).map (nums ∪ ·)) ∅

/-- It is none for `resErr`. -/
def getCPUBusMap (cpuInfo : List (CPUInfo Model Hardware)) : Option (List (Finset ℕ)) :=
  (cpuInfo.mapM P.cpuBusNums).bind fun nums => if cpuInfo.isEmpty then none else some nums

/-! ### What is asked of it -/

/-- What the registers of a model give for a CPU of it: nothing if there is no case for it. -/
def own (cpu : CPUInfo Model Hardware) : Option (Finset ℕ) :=
  match ran P.cases cpu.model with
  | [] => some ∅
  | body :: _ => body cpu.hardware

/-- The numbers of a Sapphire Rapids CPU: those of the registers that the mask calls valid. -/
def SprNums (read : CPUBusNoReg → Option UInt32) (nums : Finset ℕ) : Prop :=
  ∃ cpuBusNums : List UInt32, ∃ cpuBusValid : UInt32,
    List.Forall₂ (fun reg value => read reg = some value) cpuBusNoRegs cpuBusNums ∧
    read cpuBusValidReg = some cpuBusValid ∧
    ∀ b, b ∈ nums ↔ ∃ i < 32, cpuBusValid.toNat.testBit i = true ∧
      ∃ value, cpuBusNums[i / 4]? = some value ∧ b = value.toNat / 2 ^ (i % 4 * 8) % 2 ^ 8

def NumsOf (cpu : CPUInfo Model Hardware) (nums : Finset ℕ) : Prop :=
  if cpu.model = P.spr then SprNums (P.rdEndPointConfigPciLocal cpu.hardware) nums
  else P.own cpu = some nums

structure Right (cpuInfo : List (CPUInfo Model Hardware)) (result : Option (List (Finset ℕ))) :
    Prop where
  nums : ∀ nums, result = some nums → List.Forall₂ P.NumsOf cpuInfo nums
  error : result = none → cpuInfo = [] ∨ ∃ cpu ∈ cpuInfo, P.own cpu = none

/-- The cases into which that of the model runs on read their registers and add nothing. -/
def Stays (cpu : CPUInfo Model Hardware) : Prop :=
  ∀ nums, P.own cpu = some nums → ∀ body ∈ (ran P.cases cpu.model).tail,
    ∃ added, body cpu.hardware = some added ∧ added ⊆ nums

/-! ### The case of Sapphire Rapids -/

theorem mask_eq_zero_iff (mask : UInt32) {i : ℕ} (hi : i < 32) :
    mask &&& (1 <<< UInt32.ofNat i) = 0 ↔ mask.toNat.testBit i = false := by
  have hbit : ((1 : UInt32) <<< UInt32.ofNat i).toNat = 2 ^ i := by
    have hpow : 2 ^ i < 2 ^ 32 := Nat.pow_lt_pow_right Nat.one_lt_two hi
    have hmod : (UInt32.ofNat i).toNat % 32 = i := by
      rw [UInt32.toNat_ofNat', Nat.mod_eq_of_lt (Nat.lt_trans hi (by decide)), Nat.mod_eq_of_lt hi]
    rw [UInt32.toNat_shiftLeft, hmod, UInt32.toNat_one, Nat.shiftLeft_eq, Nat.one_mul,
      Nat.mod_eq_of_lt hpow]
  rw [← UInt32.toNat_inj, UInt32.toNat_and, hbit, Nat.and_two_pow, UInt32.toNat_zero]
  cases mask.toNat.testBit i <;> simp

theorem toNat_byte (value : UInt32) {k : ℕ} (hk : k < 32) :
    (value >>> UInt32.ofNat k &&& 0xFF).toNat = value.toNat / 2 ^ k % 2 ^ 8 := by
  have hmod : (UInt32.ofNat k).toNat % 32 = k := by
    rw [UInt32.toNat_ofNat', Nat.mod_eq_of_lt (Nat.lt_trans hk (by decide)), Nat.mod_eq_of_lt hk]
  have hmask : (0xFF : UInt32).toNat = 2 ^ 8 - 1 := rfl
  rw [UInt32.toNat_and, UInt32.toNat_shiftRight, hmod, hmask, Nat.and_two_pow_sub_one_eq_mod,
    Nat.shiftRight_eq_div_pow]

/-- The numbers that the loop has added after a number of passes. -/
theorem mem_foldl_addBus (cpuBusNums : List UInt32) (cpuBusValid : UInt32) {n : ℕ} (hn : n ≤ 32)
    (b : ℕ) :
    b ∈ (List.range n).foldl (addBus cpuBusNums cpuBusValid) ∅ ↔
      ∃ i < n, cpuBusValid.toNat.testBit i = true ∧
        b = (cpuBusNums.getD (i / 4) 0).toNat / 2 ^ (i % 4 * 8) % 2 ^ 8 := by
  induction n with
  | zero => simp
  | succ n ih =>
    have hlast := mask_eq_zero_iff cpuBusValid hn
    have hbyte := toNat_byte (cpuBusNums.getD (n / 4) 0) (k := n % 4 * 8) (by omega)
    rw [List.range_succ, List.foldl_append, List.foldl_cons, List.foldl_nil,
      Nat.exists_lt_succ_right, ← ih (Nat.le_of_succ_le hn), addBus]
    cases hbit : cpuBusValid.toNat.testBit n with
    | false =>
      rw [if_pos (hlast.mpr hbit)]
      simp
    | true =>
      rw [if_neg (hlast.not.mpr (by simp [hbit]))]
      dsimp only
      rw [Finset.mem_insert, hbyte, or_comm]
      simp

theorem sprCase_eq_some {read : CPUBusNoReg → Option UInt32} {nums : Finset ℕ}
    (h : sprCase read = some nums) : SprNums read nums := by
  obtain ⟨cpuBusNums, hnums, hrest⟩ := Option.bind_eq_some_iff.mp h
  obtain ⟨cpuBusValid, hvalid, rfl⟩ := Option.map_eq_some_iff.mp hrest
  have hreads := mapM_eq_some_iff.mp hnums
  refine ⟨cpuBusNums, cpuBusValid, hreads, hvalid, fun b => ?_⟩
  rw [mem_foldl_addBus _ _ le_rfl]
  have hlen : cpuBusNums.length = 8 := hreads.length_eq.symm
  refine exists_congr fun i => and_congr_right fun hi => and_congr_right fun _ => ?_
  have hlt : i / 4 < cpuBusNums.length := by omega
  rw [List.getD_eq_getElem _ _ hlt, List.getElem?_eq_getElem hlt]
  simp

/-! ### The CPUs -/

section Bodies

variable {bodies : List (Hardware → Option (Finset ℕ))} {hw : Hardware} {nums result : Finset ℕ}

omit [DecidableEq Model] in
theorem foldlM_adds
    (h : bodies.foldlM (fun nums body => (body hw).map (nums ∪ ·)) nums = some result) :
    nums ⊆ result ∧ ∀ body ∈ bodies, ∃ added, body hw = some added ∧ added ⊆ result := by
  induction bodies generalizing nums with
  | nil =>
    obtain rfl := Option.some.inj h
    exact ⟨Finset.Subset.refl _, fun _ hbody => absurd hbody List.not_mem_nil⟩
  | cons body bodies ih =>
    rw [List.foldlM_cons] at h
    obtain ⟨_, hbody, hrest⟩ := Option.bind_eq_some_iff.mp h
    obtain ⟨added, hadded, rfl⟩ := Option.map_eq_some_iff.mp hbody
    obtain ⟨hsub, hbodies⟩ := ih hrest
    refine ⟨Finset.subset_union_left.trans hsub, List.forall_mem_cons.mpr ⟨?_, hbodies⟩⟩
    exact ⟨added, hadded, Finset.subset_union_right.trans hsub⟩

omit [DecidableEq Model] in
theorem foldlM_stays (h : ∀ body ∈ bodies, ∃ added, body hw = some added ∧ added ⊆ nums) :
    bodies.foldlM (fun nums body => (body hw).map (nums ∪ ·)) nums = some nums := by
  induction bodies with
  | nil => rfl
  | cons body bodies ih =>
    obtain ⟨⟨added, hadded, hsub⟩, hbodies⟩ := List.forall_mem_cons.mp h
    rw [List.foldlM_cons, hadded, Option.map_some, Finset.union_eq_left.mpr hsub]
    exact ih hbodies

end Bodies

section Own

variable {P} {cpu : CPUInfo Model Hardware} {nums : Finset ℕ}

/-- The numbers are those of the own case, and those that the cases after it add. -/
theorem cpuBusNums_eq (cpu : CPUInfo Model Hardware) :
    P.cpuBusNums cpu = (P.own cpu).bind fun nums =>
      (ran P.cases cpu.model).tail.foldlM
        (fun nums body => (body cpu.hardware).map (nums ∪ ·)) nums := by
  unfold own cpuBusNums
  cases ran P.cases cpu.model with
  | nil => rfl
  | cons body bodies =>
    rw [List.foldlM_cons, List.tail_cons]
    dsimp only
    cases body cpu.hardware with
    | none => rfl
    | some added =>
      rw [Option.map_some, Finset.empty_union]
      rfl

theorem isSome_own_of_cpuBusNums (h : P.cpuBusNums cpu = some nums) : (P.own cpu).isSome := by
  rw [cpuBusNums_eq] at h
  obtain ⟨_, hown, -⟩ := Option.bind_eq_some_iff.mp h
  rw [hown]
  rfl

theorem Stays.cpuBusNums (h : P.Stays cpu) : P.cpuBusNums cpu = P.own cpu := by
  rw [cpuBusNums_eq]
  cases hown : P.own cpu with
  | none => rfl
  | some nums => rw [Option.bind_some, foldlM_stays (h nums hown)]

/-- The case of Sapphire Rapids is reached by its own label first, and is the last one. -/
theorem ran_spr : ran P.cases P.spr =
    [fun hw => sprCase (P.rdEndPointConfigPciLocal hw)] := by
  have hbefore : ∀ c ∈ P.earlier ++ [⟨P.preceding, P.precedingCase, false⟩],
      c.labels P.spr = false := by
    intro c hc
    rcases List.mem_append.mp hc with hc | hc
    · exact P.earlier_not_spr c hc
    · rw [List.mem_singleton.mp hc]
      exact P.preceding_not_spr
  have hran := ran_append hbefore
    ⟨fun m => m = P.spr, fun hw => sprCase (P.rdEndPointConfigPciLocal hw), false⟩ [] (by simp)
  rw [List.append_assoc] at hran
  exact hran

theorem own_numsOf (hown : P.own cpu = some nums) : P.NumsOf cpu nums := by
  unfold NumsOf
  split_ifs with hspr
  · unfold own at hown
    rw [hspr, ran_spr] at hown
    exact sprCase_eq_some hown
  · exact hown

end Own

section Map

variable {P} {cpuInfo : List (CPUInfo Model Hardware)}

theorem getCPUBusMap_eq_some_iff {nums : List (Finset ℕ)} :
    P.getCPUBusMap cpuInfo = some nums ↔ cpuInfo ≠ [] ∧
      List.Forall₂ (fun cpu found => P.cpuBusNums cpu = some found) cpuInfo nums := by
  rw [← mapM_eq_some_iff, getCPUBusMap, Option.bind_eq_some_iff]
  by_cases hempty : cpuInfo = []
  · simp [hempty]
  · simp [hempty]

theorem getCPUBusMap_eq_none_iff :
    P.getCPUBusMap cpuInfo = none ↔ cpuInfo = [] ∨ ∃ cpu ∈ cpuInfo, P.cpuBusNums cpu = none := by
  rw [← mapM_eq_none_iff, getCPUBusMap, Option.bind_eq_none_iff]
  by_cases hempty : cpuInfo = []
  · simp [hempty]
  · simp [hempty, Option.eq_none_iff_forall_ne_some]

/-- The map has the numbers of the own case, so the others have added nothing. -/
theorem stays_of_right (hright : P.Right cpuInfo (P.getCPUBusMap cpuInfo))
    (hown : ∀ cpu ∈ cpuInfo, (P.own cpu).isSome) : ∀ cpu ∈ cpuInfo, P.Stays cpu := by
  intro cpu hcpu
  obtain ⟨nums, hresult⟩ : ∃ nums, P.getCPUBusMap cpuInfo = some nums := by
    refine Option.ne_none_iff_exists'.mp fun hnone => ?_
    obtain ⟨cpu', hcpu', hnone'⟩ :=
      (hright.error hnone).resolve_left (List.ne_nil_of_mem hcpu)
    exact absurd (hown cpu' hcpu') (by simp [hnone'])
  obtain ⟨-, hforall⟩ := getCPUBusMap_eq_some_iff.mp hresult
  obtain ⟨found, hfound, hnumsOf⟩ :=
    exists_of_forall₂ hforall (hright.nums nums hresult) cpu hcpu
  unfold NumsOf at hnumsOf
  split_ifs at hnumsOf with hspr
  · intro _ _ body hbody
    rw [hspr, ran_spr] at hbody
    exact absurd hbody List.not_mem_nil
  · rw [cpuBusNums_eq, hnumsOf, Option.bind_some] at hfound
    intro nums hnums
    obtain rfl := Option.some.inj (hnumsOf.symm.trans hnums)
    exact (foldlM_adds hfound).2

theorem right_of_stays
    (hstays : (∀ cpu ∈ cpuInfo, (P.own cpu).isSome) → ∀ cpu ∈ cpuInfo, P.Stays cpu) :
    P.Right cpuInfo (P.getCPUBusMap cpuInfo) where
  nums nums hresult := by
    obtain ⟨-, hforall⟩ := getCPUBusMap_eq_some_iff.mp hresult
    have hown : ∀ cpu ∈ cpuInfo, (P.own cpu).isSome := by
      intro cpu hcpu
      obtain ⟨found, hfound, -⟩ := exists_of_forall₂ hforall hforall cpu hcpu
      exact isSome_own_of_cpuBusNums hfound
    have hsame : ∀ cpu ∈ cpuInfo, P.cpuBusNums cpu = P.own cpu :=
      fun cpu hcpu => (hstays hown cpu hcpu).cpuBusNums
    refine ((List.forall₂_and_left _ _).mpr ⟨hsame, hforall⟩).imp ?_
    rintro cpu nums ⟨heq, hnums⟩
    exact own_numsOf (heq.symm.trans hnums)
  error hnone := by
    by_contra hnot
    rw [not_or] at hnot
    have hown : ∀ cpu ∈ cpuInfo, (P.own cpu).isSome := by
      intro cpu hcpu
      by_contra hnone'
      exact hnot.2 ⟨cpu, hcpu, by simpa using hnone'⟩
    obtain ⟨cpu, hcpu, hfails⟩ := (getCPUBusMap_eq_none_iff.mp hnone).resolve_left hnot.1
    have hsome := hown cpu hcpu
    rw [← (hstays hown cpu hcpu).cpuBusNums, hfails] at hsome
    exact absurd hsome (by decide)

end Map

/-- The map is right exactly if no CPU gets buses or errors from a case that is not its own. -/
theorem getCPUBusMap_right_iff (cpuInfo : List (CPUInfo Model Hardware)) :
    P.Right cpuInfo (P.getCPUBusMap cpuInfo) ↔
      ((∀ cpu ∈ cpuInfo, (P.own cpu).isSome) → ∀ cpu ∈ cpuInfo, P.Stays cpu) :=
  ⟨stays_of_right, right_of_stays⟩

end Platform

inductive CPUModel
  | skx
  | spr
deriving DecidableEq

/-- A case for Skylake, which reads the bus number from one register, before the patched one. -/
def skylakeFirst : Platform CPUModel (CPUBusNoReg → Option UInt32) where
  spr := .spr
  rdEndPointConfigPciLocal read := read
  earlier := []
  preceding m := m = .skx
  precedingCase read := (read ⟨0, 0, 8, 2, 0xcc⟩).map fun value => {value.toNat}
  earlier_not_spr := by simp
  preceding_not_spr := rfl

/-- A Skylake CPU does not have the registers of Sapphire Rapids. -/
theorem not_getCPUBusMap_right :
    let cpu : CPUInfo CPUModel (CPUBusNoReg → Option UInt32) :=
      ⟨.skx, fun reg => if reg = ⟨0, 0, 8, 2, 0xcc⟩ then some 0x17 else none⟩
    ¬ skylakeFirst.Right [cpu] (skylakeFirst.getCPUBusMap [cpu]) := by
  intro cpu hright
  obtain hnil | ⟨cpu', hcpu', hnone⟩ := hright.error (by decide)
  · exact List.cons_ne_nil _ _ hnil
  · rw [List.mem_singleton.mp hcpu'] at hnone
    exact absurd hnone (by decide)

end MetaCommon.PeciPcie
