import MetaCommon.Lib.Fallible
import MetaCommon.Tpmi.Cache
import MetaCommon.Tpmi.WakeOnPeci

/-!
# The SST registers behind TPMI

`SSTRegisterSet` reads and writes the SST registers of each TPMI instance of a CPU through PECI.
Registers that are taken to be read-only are kept in a static cache. `SSTTPMI` goes through the
instances that are valid, and for what concerns cores through the compute instances, which come
first.
-/

namespace MetaCommon.Sst

open Fallible Tpmi

/-- What is used from outside: `checkPECIStatus`, `mask` and `convertMaskToList`, and how the
transfers to each address are answered, with the retry after a wake-up. -/
structure Externals where
  checkPECIStatus : PeciAnswer → Bool
  mask : BitVec 64 → ℕ → ℕ → ℕ
  convertMaskToList : BitVec 64 → List UInt32
  readAnswer : ℕ → PeciAnswer
  writeAnswer : ℕ → PeciAnswer

/-- What the code relies on: `mask` takes the bits from `lo` to `hi` of a register, and
`convertMaskToList` lists the set bits in ascending order. -/
structure Externals.Lawful (ext : Externals) : Prop where
  mask : ∀ w lo hi, lo ≤ hi → hi < 64 →
    ext.mask w lo hi = (w.extractLsb' lo (hi - lo + 1)).toNat
  convertMaskToList : ∀ w, ext.convertMaskToList w =
    ((List.range 64).filter fun b => w.getLsbD b).map UInt32.ofNat

inductive SSTError
  | peciError (what : String)
  | outOfRange (what : String)
deriving DecidableEq

/-- The record of the feature, the registers by their address, and the static cache, whose keys are
CPU index, instance and offset. -/
structure SSTRegisterSet where
  feature : Feature
  cpuIndex : UInt8
  regs : ℕ → BitVec 64
  cachedRegs : UInt8 × ℕ × ℕ → Option (BitVec 64)

def invalidRead : BitVec 64 := 0x00000000FFFFFFFF

abbrev SST := Comp SSTRegisterSet SSTError

namespace SSTRegisterSet

/-- The product of size and instance is one of 32-bit numbers. -/
def address (s : SSTRegisterSet) (inst offset : ℕ) : ℕ :=
  offset + s.feature.offset.toNat + s.feature.size.toNat * inst % 4294967296

variable (ext : Externals)

def readNoThrow (inst offset : ℕ) : SST (BitVec 64 × PeciAnswer) :=
  Comp.gets fun s => (s.regs (s.address inst offset), ext.readAnswer (s.address inst offset))

def read (inst offset : ℕ) : SST (BitVec 64) := do
  let instances ← Comp.gets (·.feature.instances.toNat)
  if inst ≥ instances then Comp.throw (.outOfRange "Invalid instance")
  else
    let r ← readNoThrow ext inst offset
    if ext.checkPECIStatus r.2 then return r.1 else Comp.throw (.peciError "MMIO Read failed")

/-- A write that is refused changes nothing. -/
def write (inst offset : ℕ) (data : BitVec 64) : SST Unit := do
  let instances ← Comp.gets (·.feature.instances.toNat)
  if inst ≥ instances then Comp.throw (.outOfRange "Invalid instance")
  else
    let addr ← Comp.gets (·.address inst offset)
    if ext.checkPECIStatus (ext.writeAnswer addr) then
      Comp.modify fun s => { s with regs := Function.update s.regs addr data }
    else Comp.throw (.peciError "MMIO Write failed")

def cachedRead (inst offset : ℕ) : SST (BitVec 64) := do
  let it ← Comp.gets fun s => s.cachedRegs (s.cpuIndex, inst, offset)
  match it with
  | some value => return value
  | none =>
    let value ← read ext inst offset
    Comp.modify fun s => { s with
      cachedRegs := Function.update s.cachedRegs (s.cpuIndex, inst, offset) (some value) }
    return value

/-- One round of the loop of `validInstances`. -/
def isValid (inst : ℕ) : SST Bool := do
  let r ← readNoThrow ext inst 0
  if r.2 = (.success, 0x90) then return false
  else if !ext.checkPECIStatus r.2 then Comp.throw (.peciError "MMIO Read failed")
  else return r.1 != invalidRead

def validInstances : SST (List ℕ) := do
  let instances ← Comp.gets (·.feature.instances.toNat)
  Comp.filter (isValid ext) (List.range instances)

def header (inst : ℕ) : SST (BitVec 64) := cachedRead ext inst 0

def ppOffset (inst : ℕ) : SST ℕ := do return ext.mask (← header ext inst) 24 31 * 8

def ppOffset0 (inst : ℕ) : SST (BitVec 64) := do cachedRead ext inst ((← ppOffset ext inst) + 8)

def ppOffset1 (inst : ℕ) : SST (BitVec 64) := do
  cachedRead ext inst ((← ppOffset ext inst) + 8 * 2)

def ppControl (inst : ℕ) : SST (BitVec 64) := do read ext inst ((← ppOffset ext inst) + 8 * 3)

def ppStatus (inst : ℕ) : SST (BitVec 64) := do read ext inst ((← ppOffset ext inst) + 8 * 4)

def setPpControl (inst : ℕ) (value : BitVec 64) : SST Unit := do
  write ext inst ((← ppOffset ext inst) + 8 * 3) value

def ppLevelOffset (inst level : ℕ) : SST ℕ := do
  let loBit := level * 8 % 4294967296
  let ppLevelOffset := ext.mask (← ppOffset1 ext inst) loBit (loBit + 7)
  return (← ppOffset ext inst) + ppLevelOffset * 8

def bfInfo1 (inst level : ℕ) : SST (BitVec 64) := do
  let bfOffset := ext.mask (← ppOffset0 ext inst) 8 15
  cachedRead ext inst ((← ppLevelOffset ext inst level) + bfOffset * 8 + 8)

def ppInfo1 (inst level : ℕ) : SST (BitVec 64) := do
  read ext inst ((← ppLevelOffset ext inst level) + 8)

def ppInfo2 (inst level : ℕ) : SST (BitVec 64) := do
  read ext inst ((← ppLevelOffset ext inst level) + 8 * 2)

/-! ### `SSTTPMI` -/

variable {β : Type}

/-- The loop of `forEachComputeInstance`, over what the callback keeps. -/
def computeLoop (level : ℕ) (cb : β → ℕ → SST β) : β → List ℕ → SST β
  | b, [] => return b
  | b, inst :: insts => do
    let info ← ppInfo1 ext inst level
    -- compute dies come before IO dies
    if UInt8.ofNat (ext.mask info 8 15) = 0 then return b
    else
      let b' ← cb b inst
      computeLoop level cb b' insts

def forEachComputeInstance (level : ℕ) (cb : β → ℕ → SST β) (b : β) : SST β := do
  computeLoop ext level cb b (← validInstances ext)

def coreCount (level : ℕ) : SST UInt32 :=
  forEachComputeInstance ext level (fun count inst => do
    return count + UInt32.ofNat (ext.mask (← ppInfo1 ext inst level) 8 15)) 0

def gatherCoreList (level : ℕ) (reg : ℕ → ℕ → SST (BitVec 64)) : SST (List UInt32) :=
  forEachComputeInstance ext level (fun coreList inst => do
    let coreMask ← reg inst level
    return coreList ++ (ext.convertMaskToList coreMask).map (· + 64 * UInt32.ofNat inst)) []

def enabledCoreList (level : ℕ) : SST (List UInt32) := gatherCoreList ext level (ppInfo2 ext)

def bfHighPriorityCoreList (level : ℕ) : SST (List UInt32) :=
  gatherCoreList ext level (bfInfo1 ext)

/-- One round of the loop of `setAllInstances`. -/
def setInstance (fieldMask value : BitVec 64) (errBitLo errBitHi inst : ℕ) : SST Unit := do
  let status ← ppControl ext inst
  setPpControl ext inst (status &&& ~~~fieldMask ||| value)
  let status ← ppStatus ext inst
  let error := ext.mask status errBitLo errBitHi
  if error ≠ 0 then Comp.throw (.peciError (toString error)) else return ()

def setLoop (fieldMask value : BitVec 64) (errBitLo errBitHi : ℕ) : List ℕ → SST Unit
  | [] => return ()
  | inst :: insts => do
    setInstance ext fieldMask value errBitLo errBitHi inst
    setLoop fieldMask value errBitLo errBitHi insts

def setAllInstances (fieldMask value : BitVec 64) (errBitLo errBitHi : ℕ) : SST Unit := do
  setLoop ext fieldMask value errBitLo errBitHi (← validInstances ext)

def bfBit : BitVec 64 := BitVec.twoPow 64 8

def setBfEnabled (enable : Bool) : SST Unit :=
  setAllInstances ext bfBit (if enable then bfBit else 0) 32 34

def tfBit : BitVec 64 := BitVec.twoPow 64 9

def setTfEnabled (enable : Bool) : SST Unit :=
  setAllInstances ext tfBit (if enable then tfBit else 0) 35 37

def setCurrentLevel (level : BitVec 32) : SST Unit :=
  setAllInstances ext 0x7 (level.setWidth 64) 4 7

/-! ### Reading -/

/-- What the reading functions depend on: the record, the registers, and what a cached read gives. -/
def view (s : SSTRegisterSet) :
    Feature × (ℕ → BitVec 64) × (ℕ → ℕ → Except SSTError (BitVec 64)) :=
  (s.feature, s.regs, fun inst offset => value (cachedRead ext inst offset) s)

theorem readOnly_readNoThrow (inst offset : ℕ) :
    ReadOnly (view ext) (readNoThrow ext inst offset) := by
  refine readOnly_gets fun s t h => ?_
  obtain ⟨hfeature, hregs, -⟩ : s.feature = t.feature ∧ s.regs = t.regs ∧ _ := by
    simpa [view] using h
  simp [address, hfeature, hregs]

theorem readOnly_instances :
    ReadOnly (view ext) (Comp.gets (·.feature.instances.toNat) : SST ℕ) :=
  readOnly_gets fun _ _ h => congrArg (fun v => v.1.instances.toNat) h

theorem readOnly_read (inst offset : ℕ) : ReadOnly (view ext) (read ext inst offset) :=
  (readOnly_instances ext).bind fun _ => (readOnly_throw _).ite <|
    (readOnly_readNoThrow ext inst offset).bind fun _ => (readOnly_pure _).ite (readOnly_throw _)

theorem read_state (inst offset : ℕ) (s : SSTRegisterSet) : (read ext inst offset s).2 = s := by
  unfold read readNoThrow
  simp only [bind_apply, gets_apply]
  split_ifs with hinst
  · rfl
  · simp only [bind_apply, gets_apply]
    split_ifs <;> rfl

theorem value_cachedRead (inst offset : ℕ) (s : SSTRegisterSet) :
    value (cachedRead ext inst offset) s =
      match s.cachedRegs (s.cpuIndex, inst, offset) with
      | some v => .ok v
      | none => value (read ext inst offset) s := by
  unfold cachedRead value
  rw [bind_apply, gets_apply]
  cases s.cachedRegs (s.cpuIndex, inst, offset) with
  | some v => rfl
  | none =>
    dsimp only
    cases h : (read ext inst offset s).1 with
    | ok v => rw [bind_of_ok h, bind_apply, modify_apply]; rfl
    | error e => rw [bind_of_error h]

/-- A cached read keeps the state, or fills the empty place in the cache with what it gives. -/
theorem cachedRead_state (inst offset : ℕ) (s : SSTRegisterSet) :
    (cachedRead ext inst offset s).2 = s ∨
      ∃ v, value (cachedRead ext inst offset) s = .ok v ∧
        (cachedRead ext inst offset s).2 = { s with
          cachedRegs := Function.update s.cachedRegs (s.cpuIndex, inst, offset) (some v) } := by
  have hvalue := value_cachedRead ext inst offset s
  unfold cachedRead at hvalue ⊢
  rw [bind_apply, gets_apply]
  cases hcached : s.cachedRegs (s.cpuIndex, inst, offset) with
  | some v => exact .inl rfl
  | none =>
    rw [hcached] at hvalue
    dsimp only at hvalue ⊢
    cases h : (read ext inst offset s).1 with
    | error e =>
      rw [bind_of_error h]
      exact .inl (read_state ext inst offset s)
    | ok v =>
      refine .inr ⟨v, hvalue.trans h, ?_⟩
      rw [bind_of_ok h, bind_apply, modify_apply, read_state]
      rfl

theorem value_read_congr {s t : SSTRegisterSet} (hfeature : s.feature = t.feature)
    (hregs : s.regs = t.regs) (inst offset : ℕ) :
    value (read ext inst offset) s = value (read ext inst offset) t := by
  unfold value read readNoThrow
  simp only [bind_apply, gets_apply, hfeature]
  split_ifs with hinst
  · rfl
  · simp only [bind_apply, gets_apply, address, hfeature, hregs]
    split_ifs <;> rfl

theorem readOnly_cachedRead (inst offset : ℕ) :
    ReadOnly (view ext) (cachedRead ext inst offset) := by
  constructor
  · intro s
    rcases cachedRead_state ext inst offset s with h | ⟨v, hv, h⟩
    · rw [h]
    · rw [h]
      refine Prod.ext rfl (Prod.ext rfl (funext fun i => funext fun o => ?_))
      by_cases hkey : (s.cpuIndex, i, o) = (s.cpuIndex, inst, offset)
      · obtain ⟨-, rfl, rfl⟩ : True ∧ i = inst ∧ o = offset := by simpa using hkey
        refine ((value_cachedRead ext i o _).trans ?_).trans hv.symm
        dsimp only
        rw [Function.update_self]
      · dsimp only [view]
        rw [value_cachedRead ext i o s, value_cachedRead]
        dsimp only
        rw [Function.update_of_ne hkey]
        cases s.cachedRegs (s.cpuIndex, i, o) with
        | some _ => rfl
        | none =>
          dsimp only
          apply value_read_congr <;> rfl
  · intro s t h
    exact congrFun (congrFun (congrArg (fun v => v.2.2) h) inst) offset

theorem readOnly_isValid (inst : ℕ) : ReadOnly (view ext) (isValid ext inst) :=
  (readOnly_readNoThrow ext inst 0).bind fun _ =>
    (readOnly_pure _).ite ((readOnly_throw _).ite (readOnly_pure _))

theorem readOnly_validInstances : ReadOnly (view ext) (validInstances ext) :=
  (readOnly_instances ext).bind fun _ => .filter (readOnly_isValid ext) _

theorem readOnly_ppOffset (inst : ℕ) : ReadOnly (view ext) (ppOffset ext inst) :=
  (readOnly_cachedRead ext inst 0).bind fun _ => readOnly_pure _

theorem readOnly_ppOffset0 (inst : ℕ) : ReadOnly (view ext) (ppOffset0 ext inst) :=
  (readOnly_ppOffset ext inst).bind fun _ => readOnly_cachedRead ext inst _

theorem readOnly_ppOffset1 (inst : ℕ) : ReadOnly (view ext) (ppOffset1 ext inst) :=
  (readOnly_ppOffset ext inst).bind fun _ => readOnly_cachedRead ext inst _

theorem readOnly_ppControl (inst : ℕ) : ReadOnly (view ext) (ppControl ext inst) :=
  (readOnly_ppOffset ext inst).bind fun _ => readOnly_read ext inst _

theorem readOnly_ppStatus (inst : ℕ) : ReadOnly (view ext) (ppStatus ext inst) :=
  (readOnly_ppOffset ext inst).bind fun _ => readOnly_read ext inst _

theorem readOnly_ppLevelOffset (inst level : ℕ) :
    ReadOnly (view ext) (ppLevelOffset ext inst level) :=
  (readOnly_ppOffset1 ext inst).bind fun _ =>
    (readOnly_ppOffset ext inst).bind fun _ => readOnly_pure _

theorem readOnly_bfInfo1 (inst level : ℕ) : ReadOnly (view ext) (bfInfo1 ext inst level) :=
  (readOnly_ppOffset0 ext inst).bind fun _ =>
    (readOnly_ppLevelOffset ext inst level).bind fun _ => readOnly_cachedRead ext inst _

theorem readOnly_ppInfo1 (inst level : ℕ) : ReadOnly (view ext) (ppInfo1 ext inst level) :=
  (readOnly_ppLevelOffset ext inst level).bind fun _ => readOnly_read ext inst _

theorem readOnly_ppInfo2 (inst level : ℕ) : ReadOnly (view ext) (ppInfo2 ext inst level) :=
  (readOnly_ppLevelOffset ext inst level).bind fun _ => readOnly_read ext inst _

end SSTRegisterSet

end MetaCommon.Sst
