import Mathlib.Algebra.Ring.Nat
import MetaCommon.Sst.Registers

/-!
# The core lists

The compute instances are those of the valid instances that come before the first one without
cores. A core list has, for each of them in turn, the set bits of its mask with 64 times the number
of the instance added. The count of cores is not taken from the masks but from a field of a
register.
-/

namespace MetaCommon.Sst

open Fallible

namespace SSTRegisterSet

variable (ext : Externals) (level : ℕ) (s : SSTRegisterSet)

/-! ### The registers at a state -/

/-- What `validInstances` reports. -/
def reported : List ℕ :=
  match value (validInstances ext) s with
  | .ok valid => valid
  | .error _ => []

def resolvedCoreCount (inst : ℕ) : ℕ :=
  match value (ppInfo1 ext inst level) s with
  | .ok info => ext.mask info 8 15
  | .error _ => 0

def computeInstances : List ℕ :=
  (reported ext s).takeWhile fun inst => UInt8.ofNat (resolvedCoreCount ext level s inst) ≠ 0

/-- The mask that is read for an instance. -/
def coreMask (reg : ℕ → ℕ → SST (BitVec 64)) (inst : ℕ) : BitVec 64 :=
  match value (reg inst level) s with
  | .ok w => w
  | .error _ => 0

def setBits (w : BitVec 64) : List ℕ := (List.range 64).filter fun b => w.getLsbD b

theorem mem_setBits {w : BitVec 64} {b : ℕ} : b ∈ setBits w ↔ b < 64 ∧ w.getLsbD b = true := by
  simp [setBits]

theorem setBits_pairwise (w : BitVec 64) : (setBits w).Pairwise (· < ·) :=
  List.pairwise_lt_range.filter _

theorem reported_eq {valid : List ℕ} (h : value (validInstances ext) s = .ok valid) :
    reported ext s = valid := by
  unfold reported
  rw [h]

theorem reported_pairwise : (reported ext s).Pairwise (· < ·) ∧
    ∀ inst ∈ reported ext s, inst < s.feature.instances.toNat := by
  cases h : value (validInstances ext) s with
  | error e =>
    unfold reported
    rw [h]
    exact ⟨List.Pairwise.nil, fun _ hi => absurd hi List.not_mem_nil⟩
  | ok valid =>
    rw [reported_eq ext s h]
    have hvalid : value (Comp.filter (isValid ext) (List.range s.feature.instances.toNat)) s =
        .ok valid := by
      rw [← h]
      exact ((readOnly_instances ext).value_bind
        (fun _ => .filter (readOnly_isValid ext) _) s).symm
    rw [ReadOnly.value_filter (readOnly_isValid ext) hvalid]
    refine ⟨List.pairwise_lt_range.filter _, fun inst hmem => ?_⟩
    exact List.mem_range.mp (List.mem_filter.mp hmem).1

theorem computeInstances_sublist : (computeInstances ext level s).Sublist (reported ext s) :=
  List.takeWhile_sublist _

/-! ### The loop over the compute instances -/

section Loop

variable {β : Type} {cb : β → ℕ → SST β}

theorem readOnly_computeLoop (hcb : ∀ b inst, ReadOnly (view ext) (cb b inst)) (insts : List ℕ)
    (b : β) : ReadOnly (view ext) (computeLoop ext level cb b insts) := by
  induction insts generalizing b with
  | nil => exact readOnly_pure b
  | cons inst insts ih =>
    exact (readOnly_ppInfo1 ext inst level).bind fun _ =>
      (readOnly_pure b).ite ((hcb b inst).bind fun b' => ih b')

variable {level s}

/-- Where the loop ends normally it has taken the compute instances in turn. -/
theorem value_computeLoop (hcb : ∀ b inst, ReadOnly (view ext) (cb b inst)) {step : β → ℕ → β}
    (hstep : ∀ b inst b', value (cb b inst) s = .ok b' → b' = step b inst) {insts : List ℕ}
    {b b' : β} (h : value (computeLoop ext level cb b insts) s = .ok b') :
    b' = (insts.takeWhile fun inst =>
      UInt8.ofNat (resolvedCoreCount ext level s inst) ≠ 0).foldl step b := by
  induction insts generalizing b with
  | nil => exact (Except.ok.inj h).symm
  | cons inst insts ih =>
    have hrest : ∀ info : BitVec 64, ReadOnly (view ext)
        (if UInt8.ofNat (ext.mask info 8 15) = 0 then (pure b : SST β)
        else do let b' ← cb b inst; computeLoop ext level cb b' insts) := fun _ =>
      (readOnly_pure b).ite ((hcb b inst).bind fun b' => readOnly_computeLoop ext level hcb insts b')
    unfold computeLoop at h
    rw [(readOnly_ppInfo1 ext inst level).value_bind hrest] at h
    cases hinfo : value (ppInfo1 ext inst level) s with
    | error e =>
      rw [hinfo] at h
      cases h
    | ok info =>
      have hcores : resolvedCoreCount ext level s inst = ext.mask info 8 15 := by
        unfold resolvedCoreCount
        rw [hinfo]
      rw [hinfo] at h
      change value (if _ then _ else _) s = _ at h
      rw [List.takeWhile_cons, hcores]
      by_cases hzero : UInt8.ofNat (ext.mask info 8 15) = 0
      · rw [if_pos hzero] at h
        rw [if_neg (by simp [hzero])]
        exact (Except.ok.inj h).symm
      · rw [if_neg hzero,
          (hcb b inst).value_bind fun b' => readOnly_computeLoop ext level hcb insts b'] at h
        rw [if_pos (by simp [hzero]), List.foldl_cons]
        cases hround : value (cb b inst) s with
        | error e =>
          rw [hround] at h
          cases h
        | ok b₁ =>
          rw [hround] at h
          rw [← hstep b inst b₁ hround]
          exact ih h

theorem value_forEachComputeInstance (hcb : ∀ b inst, ReadOnly (view ext) (cb b inst))
    {step : β → ℕ → β} (hstep : ∀ b inst b', value (cb b inst) s = .ok b' → b' = step b inst)
    {b b' : β} (h : value (forEachComputeInstance ext level cb b) s = .ok b') :
    b' = (computeInstances ext level s).foldl step b := by
  unfold forEachComputeInstance at h
  rw [(readOnly_validInstances ext).value_bind fun _ => readOnly_computeLoop ext level hcb _ b] at h
  cases hvalid : value (validInstances ext) s with
  | error e =>
    rw [hvalid] at h
    cases h
  | ok valid =>
    rw [hvalid] at h
    unfold computeInstances
    rw [reported_eq ext s hvalid]
    exact value_computeLoop ext hcb hstep h

end Loop

/-! ### Core ids -/

/-- The id of core `b` of an instance, as `gatherCoreList` computes it. -/
def coreId (inst b : ℕ) : UInt32 := UInt32.ofNat b + 64 * UInt32.ofNat inst

theorem coreId_toNat {inst b : ℕ} (hinst : inst < 67108864) (hb : b < 64) :
    (coreId inst b).toNat = 64 * inst + b := by
  have hb' : b % 2 ^ 32 = b := Nat.mod_eq_of_lt (by omega)
  have hinst' : inst % 2 ^ 32 = inst := Nat.mod_eq_of_lt (by omega)
  have h64 : (64 : UInt32).toNat = 64 := rfl
  unfold coreId
  rw [UInt32.toNat_add, UInt32.toNat_mul, UInt32.toNat_ofNat', UInt32.toNat_ofNat', hb', hinst',
    h64]
  omega

theorem foldl_add_toNat (f : ℕ → ℕ) (insts : List ℕ) (c : UInt32) :
    (insts.foldl (fun count inst => count + UInt32.ofNat (f inst)) c).toNat =
      (c.toNat + (insts.map f).sum) % 4294967296 := by
  induction insts generalizing c with
  | nil =>
    have := c.toNat_lt
    simp
  | cons inst insts ih =>
    rw [List.foldl_cons, ih, UInt32.toNat_add, UInt32.toNat_ofNat', List.map_cons, List.sum_cons]
    omega

theorem foldl_append_eq (f : ℕ → List UInt32) (insts : List ℕ) (l : List UInt32) :
    insts.foldl (fun coreList inst => coreList ++ f inst) l = l ++ insts.flatMap f := by
  induction insts generalizing l with
  | nil => simp
  | cons inst insts ih => rw [List.foldl_cons, ih, List.flatMap_cons, List.append_assoc]

/-- The list of the cores of some instances, with a mask for each. -/
def coreIds (mask : ℕ → BitVec 64) (insts : List ℕ) : List UInt32 :=
  insts.flatMap fun inst => (setBits (mask inst)).map (coreId inst)

theorem coreIds_cons (mask : ℕ → BitVec 64) (inst : ℕ) (insts : List ℕ) :
    coreIds mask (inst :: insts) = (setBits (mask inst)).map (coreId inst) ++ coreIds mask insts :=
  List.flatMap_cons

theorem mem_coreIds {mask : ℕ → BitVec 64} {insts : List ℕ} (hlt : ∀ inst ∈ insts, inst < 67108864)
    (x : UInt32) :
    x ∈ coreIds mask insts ↔ ∃ inst ∈ insts, ∃ b < 64,
      (mask inst).getLsbD b = true ∧ x.toNat = 64 * inst + b := by
  unfold coreIds
  simp only [List.mem_flatMap, List.mem_map, mem_setBits]
  constructor
  · rintro ⟨inst, hmem, b, ⟨hb, hset⟩, rfl⟩
    exact ⟨inst, hmem, b, hb, hset, coreId_toNat (hlt inst hmem) hb⟩
  · rintro ⟨inst, hmem, b, hb, hset, hx⟩
    refine ⟨inst, hmem, b, ⟨hb, hset⟩, UInt32.toNat_inj.mp ?_⟩
    rw [coreId_toNat (hlt inst hmem) hb, hx]

/-- Each instance adds ids above all those of the instances before it. -/
theorem coreIds_pairwise (mask : ℕ → BitVec 64) {insts : List ℕ} (hinsts : insts.Pairwise (· < ·))
    (hlt : ∀ inst ∈ insts, inst < 67108864) : (coreIds mask insts).Pairwise (· < ·) := by
  induction insts with
  | nil => exact List.Pairwise.nil
  | cons inst insts ih =>
    have hinst := hlt inst List.mem_cons_self
    have hrest : ∀ i ∈ insts, i < 67108864 := fun i hi => hlt i (List.mem_cons_of_mem inst hi)
    obtain ⟨hfirst, hpairwise⟩ := List.pairwise_cons.mp hinsts
    rw [coreIds_cons, List.pairwise_append]
    refine ⟨?_, ih hpairwise hrest, ?_⟩
    · rw [List.pairwise_map]
      refine (setBits_pairwise (mask inst)).imp_of_mem fun hb hb' hbb' => ?_
      rw [UInt32.lt_iff_toNat_lt, coreId_toNat hinst (mem_setBits.mp hb).1,
        coreId_toNat hinst (mem_setBits.mp hb').1]
      omega
    · intro x hx y hy
      obtain ⟨b, hb, rfl⟩ := List.mem_map.mp hx
      obtain ⟨i, hi, b', hb', -, hy⟩ := (mem_coreIds hrest y).mp hy
      have hii := hfirst i hi
      have hb := (mem_setBits.mp hb).1
      rw [UInt32.lt_iff_toNat_lt, coreId_toNat hinst hb, hy]
      omega

theorem length_coreIds (mask : ℕ → BitVec 64) (insts : List ℕ) :
    (coreIds mask insts).length = (insts.map fun inst => (setBits (mask inst)).length).sum := by
  unfold coreIds
  rw [List.length_flatMap]
  simp

/-! ### The lists and the count -/

variable {ext level s}

theorem value_gatherCoreList (hext : ext.Lawful) {reg : ℕ → ℕ → SST (BitVec 64)}
    (hreg : ∀ inst, ReadOnly (view ext) (reg inst level)) {coreList : List UInt32}
    (h : value (gatherCoreList ext level reg) s = .ok coreList) :
    coreList = coreIds (coreMask level s reg) (computeInstances ext level s) := by
  have hstep : ∀ (l : List UInt32) (inst : ℕ) (l' : List UInt32),
      value (do
        let coreMask ← reg inst level
        return l ++ (ext.convertMaskToList coreMask).map (· + 64 * UInt32.ofNat inst) :
          SST (List UInt32)) s = .ok l' →
      l' = l ++ (setBits (coreMask level s reg inst)).map (coreId inst) := by
    intro l inst l' hl
    rw [(hreg inst).value_bind fun _ => readOnly_pure _] at hl
    cases hmask : value (reg inst level) s with
    | error e =>
      rw [hmask] at hl
      cases hl
    | ok w =>
      rw [hmask] at hl
      have hw : coreMask level s reg inst = w := by
        unfold coreMask
        rw [hmask]
      rw [hw, ← Except.ok.inj hl, hext.convertMaskToList, List.map_map]
      rfl
  have hall := value_forEachComputeInstance ext
    (fun _ inst => (hreg inst).bind fun _ => readOnly_pure _) hstep h
  rw [hall, foldl_append_eq]
  rfl

theorem value_coreCount {count : UInt32} (h : value (coreCount ext level) s = .ok count) :
    count.toNat =
      ((computeInstances ext level s).map (resolvedCoreCount ext level s)).sum % 4294967296 := by
  have hstep : ∀ (c : UInt32) (inst : ℕ) (c' : UInt32),
      value (do return c + UInt32.ofNat (ext.mask (← ppInfo1 ext inst level) 8 15) : SST UInt32) s =
        .ok c' → c' = c + UInt32.ofNat (resolvedCoreCount ext level s inst) := by
    intro c inst c' hc
    rw [(readOnly_ppInfo1 ext inst level).value_bind fun _ => readOnly_pure _] at hc
    unfold resolvedCoreCount
    cases hinfo : value (ppInfo1 ext inst level) s with
    | error e =>
      rw [hinfo] at hc
      cases hc
    | ok info =>
      rw [hinfo] at hc
      exact (Except.ok.inj hc).symm
  have hall := value_forEachComputeInstance ext
    (fun _ inst => (readOnly_ppInfo1 ext inst level).bind fun _ => readOnly_pure _) hstep h
  rw [hall, foldl_add_toNat, UInt32.toNat_zero, Nat.zero_add]

variable (ext level s) in
/-- What a core list is, for the masks read through `reg`. -/
structure IsCoreList (reg : ℕ → ℕ → SST (BitVec 64)) (coreList : List UInt32) : Prop where
  ascending : coreList.Pairwise (· < ·)
  nodup : coreList.Nodup
  mem : ∀ x, x ∈ coreList ↔ ∃ inst ∈ computeInstances ext level s, ∃ b < 64,
    (coreMask level s reg inst).getLsbD b = true ∧ x.toNat = 64 * inst + b
  length : coreList.length = ((computeInstances ext level s).map fun inst =>
    (setBits (coreMask level s reg inst)).length).sum

theorem isCoreList (hext : ext.Lawful) (hfew : s.feature.instances.toNat ≤ 67108864)
    {reg : ℕ → ℕ → SST (BitVec 64)} (hreg : ∀ inst, ReadOnly (view ext) (reg inst level))
    {coreList : List UInt32} (h : value (gatherCoreList ext level reg) s = .ok coreList) :
    IsCoreList ext level s reg coreList := by
  obtain ⟨hpairwise, hbound⟩ := reported_pairwise ext s
  have hsub := computeInstances_sublist ext level s
  have hlt : ∀ inst ∈ computeInstances ext level s, inst < 67108864 := fun inst hmem =>
    Nat.lt_of_lt_of_le (hbound inst (hsub.mem hmem)) hfew
  rw [value_gatherCoreList hext hreg h]
  have hascending := coreIds_pairwise (coreMask level s reg) (hpairwise.sublist hsub) hlt
  exact ⟨hascending, hascending.imp fun hlt => UInt32.ne_of_lt hlt, mem_coreIds hlt,
    length_coreIds _ _⟩

/-- The lists of the enabled and of the high-priority cores are in ascending order, without
duplicates, and have exactly the ids of the set bits of the compute instances' masks. The count of
cores is the sum of the instances' resolved core counts, so that it is the length of the list of
enabled cores exactly if these sums agree. -/
theorem coreLists_eq (hext : ext.Lawful) (hfew : s.feature.instances.toNat ≤ 67108864) :
    (∀ coreList, value (enabledCoreList ext level) s = .ok coreList →
      IsCoreList ext level s (ppInfo2 ext) coreList) ∧
    (∀ coreList, value (bfHighPriorityCoreList ext level) s = .ok coreList →
      IsCoreList ext level s (bfInfo1 ext) coreList) ∧
    (∀ count, value (coreCount ext level) s = .ok count → count.toNat =
      ((computeInstances ext level s).map (resolvedCoreCount ext level s)).sum % 4294967296) :=
  ⟨fun _ h => isCoreList hext hfew (fun inst => readOnly_ppInfo2 ext inst level) h,
    fun _ h => isCoreList hext hfew (fun inst => readOnly_bfInfo1 ext inst level) h,
    fun _ h => value_coreCount h⟩

/-! ### A machine with two compute dies -/

/-- Every transfer succeeds, and the helpers do what is documented. -/
def answering : Externals where
  checkPECIStatus a := a.1 == .success && a.2 == 0x40
  mask w lo hi := (w.extractLsb' lo (hi - lo + 1)).toNat
  convertMaskToList w := ((List.range 64).filter fun b => w.getLsbD b).map UInt32.ofNat
  readAnswer _ := (.success, 0x40)
  writeAnswer _ := (.success, 0x40)

theorem answering_lawful : answering.Lawful := ⟨fun _ _ _ _ _ => rfl, fun _ => rfl⟩

/-- Two instances whose registers for level 0 begin at offset 64, with the resolved core counts and
the masks of the enabled cores. -/
def twoDies (count₀ count₁ : BitVec 64) (mask₀ mask₁ : BitVec 64) : SSTRegisterSet where
  feature := ⟨0, 2, 256, true, false, false, false, false⟩
  cpuIndex := 0
  regs addr :=
    if addr % 256 = 16 then 8
    else if addr = 72 then count₀ <<< 8
    else if addr = 80 then mask₀
    else if addr = 256 + 72 then count₁ <<< 8
    else if addr = 256 + 80 then mask₁
    else 0
  cachedRegs _ := none

theorem coreLists_eq_twoDies :
    IsCoreList answering 0 (twoDies 2 1 0x5 0x8) (ppInfo2 answering) [0, 2, 67] :=
  (coreLists_eq answering_lawful (by decide)).1 [0, 2, 67] rfl

/-- With a resolved core count that is not the number of the enabled cores, the count is not the
length of the list. -/
theorem coreCount_ne_length :
    value (coreCount answering 0) (twoDies 1 0 0x3 0) = .ok 1 ∧
      value (enabledCoreList answering 0) (twoDies 1 0 0x3 0) = .ok [0, 1] :=
  ⟨rfl, rfl⟩

end SSTRegisterSet

end MetaCommon.Sst
