import MetaCommon.Sst.CoreLists

/-!
# Setting a field in all instances

`setAllInstances` reads the control register of each valid instance, clears the field, puts the
value in and writes the register back. The value is not cut to the field. As long as the registers
are changed in the field only, every instance's registers stay where they are, because the field
lies outside the bits of the header that place them.
-/

namespace MetaCommon.Sst

open Fallible

/-! ### Words that differ in a field only -/

/-- The words have the same bits outside the field. -/
def SameOff (field w w' : BitVec 64) : Prop :=
  ∀ b, field.getLsbD b = false → w.getLsbD b = w'.getLsbD b

namespace SameOff

variable {field w w' w'' : BitVec 64}

theorem refl (field w : BitVec 64) : SameOff field w w := fun _ _ => rfl

theorem trans (h : SameOff field w w') (h' : SameOff field w' w'') : SameOff field w w'' :=
  fun b hb => (h b hb).trans (h' b hb)

theorem extractLsb' (h : SameOff field w w') {lo len : ℕ}
    (hclear : ∀ b, lo ≤ b → b < lo + len → field.getLsbD b = false) :
    w.extractLsb' lo len = w'.extractLsb' lo len := by
  apply BitVec.eq_of_getLsbD_eq
  intro b hb
  rw [BitVec.getLsbD_extractLsb', BitVec.getLsbD_extractLsb',
    h (lo + b) (hclear _ (Nat.le_add_right lo b) (Nat.add_lt_add_left hb lo))]

end SameOff

/-- The word with the field cleared and the value put in. -/
def setField (field v w : BitVec 64) : BitVec 64 := w &&& ~~~field ||| v

/-- The bits of the value that lie outside the field are set in the word. -/
def Covers (field v w : BitVec 64) : Prop :=
  ∀ b, field.getLsbD b = false → v.getLsbD b = true → w.getLsbD b = true

variable {field v w w' : BitVec 64}

theorem getLsbD_setField_off {b : ℕ} (hb : field.getLsbD b = false) :
    (setField field v w).getLsbD b = (w.getLsbD b || v.getLsbD b) := by
  unfold setField
  rw [BitVec.getLsbD_or, BitVec.getLsbD_and, BitVec.getLsbD_not, hb]
  by_cases hlt : b < 64
  · simp [hlt]
  · simp [BitVec.getLsbD_of_ge _ b (Nat.le_of_not_lt hlt)]

theorem setField_and_field : setField field v w &&& field = v &&& field := by
  apply BitVec.eq_of_getLsbD_eq
  intro b hb
  unfold setField
  rw [BitVec.getLsbD_and, BitVec.getLsbD_or, BitVec.getLsbD_and, BitVec.getLsbD_not,
    BitVec.getLsbD_and]
  cases field.getLsbD b <;> simp

theorem sameOff_setField_iff : SameOff field (setField field v w) w ↔ Covers field v w := by
  unfold SameOff Covers
  refine forall_congr' fun b => forall_congr' fun hb => ?_
  rw [getLsbD_setField_off hb]
  cases w.getLsbD b <;> cases v.getLsbD b <;> simp

theorem Covers.congr (h : SameOff field w w') : Covers field v w ↔ Covers field v w' :=
  forall_congr' fun b => forall_congr' fun hb => by rw [h b hb]

/-- Both throw the same, or give words that differ in the field only. -/
inductive Alike (field : BitVec 64) :
    Except SSTError (BitVec 64) → Except SSTError (BitVec 64) → Prop
  | ok {w w' : BitVec 64} : SameOff field w w' → Alike field (.ok w) (.ok w')
  | error (e : SSTError) : Alike field (.error e) (.error e)

theorem Alike.refl (field : BitVec 64) : ∀ x, Alike field x x
  | .ok w => .ok (.refl field w)
  | .error e => .error e

theorem Alike.trans {x y z : Except SSTError (BitVec 64)} (h : Alike field x y)
    (h' : Alike field y z) : Alike field x z := by
  cases h with
  | ok h =>
    cases h' with
    | ok h' => exact .ok (h.trans h')
  | error e => exact h'

namespace SSTRegisterSet

variable {ext : Externals} {s s₀ t : SSTRegisterSet}

/-! ### Reads of registers that differ in the field only -/

variable (ext field) in
/-- Since `s₀`, registers have been changed in the field only, as far as direct and cached reads
can see. -/
structure Within (s₀ s : SSTRegisterSet) : Prop where
  feature : s.feature = s₀.feature
  regs : ∀ addr, SameOff field (s.regs addr) (s₀.regs addr)
  cached : ∀ inst offset, Alike field (value (cachedRead ext inst offset) s)
    (value (cachedRead ext inst offset) s₀)

theorem Within.refl (s : SSTRegisterSet) : Within field ext s s :=
  ⟨rfl, fun _ => .refl field _, fun _ _ => .refl field _⟩

theorem Within.of_view (h : Within field ext s₀ s) (hview : view ext t = view ext s) :
    Within field ext s₀ t := by
  have hfeature : t.feature = s.feature := congrArg (·.1) hview
  have hregs : t.regs = s.regs := congrArg (·.2.1) hview
  refine ⟨hfeature.trans h.feature, fun addr => ?_, fun inst offset => ?_⟩
  · rw [hregs]
    exact h.regs addr
  · have hcached := congrFun (congrFun (congrArg (·.2.2) hview) inst) offset
    dsimp only [view] at hcached
    rw [hcached]
    exact h.cached inst offset

theorem value_read (hfeature : s.feature = s₀.feature) (inst offset : ℕ) :
    value (read ext inst offset) s =
      if inst ≥ s₀.feature.instances.toNat then .error (.outOfRange "Invalid instance")
      else if ext.checkPECIStatus (ext.readAnswer (s₀.address inst offset)) then
        .ok (s.regs (s₀.address inst offset))
      else .error (.peciError "MMIO Read failed") := by
  have haddr : s.address inst offset = s₀.address inst offset := by
    unfold address
    rw [hfeature]
  unfold value read readNoThrow
  simp only [bind_apply, gets_apply, hfeature]
  split_ifs <;> simp_all [bind_apply]

theorem Alike.read (hfeature : s.feature = s₀.feature)
    (hregs : ∀ addr, SameOff field (s.regs addr) (s₀.regs addr)) (inst offset : ℕ) :
    Alike field (value (read ext inst offset) s) (value (read ext inst offset) s₀) := by
  rw [value_read hfeature, value_read (Eq.refl s₀.feature)]
  split_ifs
  · exact .error _
  · exact .ok (hregs _)
  · exact .error _

def poke (s : SSTRegisterSet) (addr : ℕ) (w : BitVec 64) : SSTRegisterSet :=
  { s with regs := Function.update s.regs addr w }

/-- A write that changes a register in the field only. -/
theorem Within.poke (h : Within field ext s₀ s) {addr : ℕ} (hw : SameOff field w (s.regs addr)) :
    Within field ext s₀ (s.poke addr w) := by
  have hregs : ∀ a, SameOff field ((s.poke addr w).regs a) (s.regs a) := by
    intro a
    unfold SSTRegisterSet.poke
    dsimp only
    by_cases ha : a = addr
    · rw [ha, Function.update_self]
      exact hw
    · rw [Function.update_of_ne ha]
      exact .refl field _
  refine ⟨h.feature, fun a => (hregs a).trans (h.regs a), fun inst offset => ?_⟩
  refine Alike.trans ?_ (h.cached inst offset)
  have hcache : (s.poke addr w).cachedRegs ((s.poke addr w).cpuIndex, inst, offset) =
      s.cachedRegs (s.cpuIndex, inst, offset) := rfl
  rw [value_cachedRead, value_cachedRead, hcache]
  cases s.cachedRegs (s.cpuIndex, inst, offset) with
  | some v => exact .refl field _
  | none =>
    refine Alike.read ?_ hregs inst offset
    rfl

/-- The field is not among the bits of the header that give the offset of the SST-PP registers. -/
def ClearOfHeader (field : BitVec 64) : Prop := ∀ b, 24 ≤ b → b < 32 → field.getLsbD b = false

theorem value_ppOffset (inst : ℕ) (s : SSTRegisterSet) :
    value (ppOffset ext inst) s =
      (value (cachedRead ext inst 0) s).map fun w => ext.mask w 24 31 * 8 := by
  unfold ppOffset header
  rw [(readOnly_cachedRead ext inst 0).value_bind fun _ => readOnly_pure _]
  cases value (cachedRead ext inst 0) s <;> rfl

/-- The SST-PP registers of an instance stay where they are. -/
theorem Within.value_ppOffset (h : Within field ext s₀ s) (hext : ext.Lawful)
    (hclear : ClearOfHeader field) (inst : ℕ) :
    value (ppOffset ext inst) s = value (ppOffset ext inst) s₀ := by
  rw [SSTRegisterSet.value_ppOffset, SSTRegisterSet.value_ppOffset]
  have halike := h.cached inst 0
  generalize value (cachedRead ext inst 0) s = x at halike ⊢
  generalize value (cachedRead ext inst 0) s₀ = y at halike ⊢
  cases halike with
  | error e => rfl
  | ok hoff =>
    refine congrArg Except.ok ?_
    dsimp only
    rw [hext.mask _ 24 31 (by decide) (by decide), hext.mask _ 24 31 (by decide) (by decide),
      hoff.extractLsb' fun b hb hb' => hclear b hb hb']

/-- A register at a fixed distance from the SST-PP header. -/
theorem value_ppRegister (inst distance : ℕ) (s : SSTRegisterSet) :
    value (do read ext inst ((← ppOffset ext inst) + distance) : SST (BitVec 64)) s =
      value (ppOffset ext inst) s >>= fun off => value (read ext inst (off + distance)) s :=
  (readOnly_ppOffset ext inst).value_bind (fun _ => readOnly_read ext inst _) s

theorem Within.value_ppRegister (h : Within field ext s₀ s) (hext : ext.Lawful)
    (hclear : ClearOfHeader field) (inst distance : ℕ) :
    Alike field
      (value (do read ext inst ((← ppOffset ext inst) + distance) : SST (BitVec 64)) s)
      (value (do read ext inst ((← ppOffset ext inst) + distance) : SST (BitVec 64)) s₀) := by
  rw [SSTRegisterSet.value_ppRegister, SSTRegisterSet.value_ppRegister,
    h.value_ppOffset hext hclear]
  cases value (ppOffset ext inst) s₀ with
  | error e => exact .error e
  | ok off => exact Alike.read h.feature h.regs inst _

/-! ### One instance -/

variable (ext) in
/-- The address of the control register of an instance. -/
def controlAddress (s : SSTRegisterSet) (inst : ℕ) : ℕ :=
  match value (ppOffset ext inst) s with
  | .ok off => s.address inst (off + 8 * 3)
  | .error _ => 0

variable (ext) in
/-- The control register of an instance can be read and written. -/
def writes (s : SSTRegisterSet) (inst : ℕ) : Bool :=
  match value (ppControl ext inst) s with
  | .ok _ => ext.checkPECIStatus (ext.writeAnswer (controlAddress ext s inst))
  | .error _ => false

variable (ext) in
/-- The status register of an instance can be read and has no error in the bits from `lo` to
`hi`. -/
def goesOn (errBitLo errBitHi : ℕ) (s : SSTRegisterSet) (inst : ℕ) : Bool :=
  match value (ppStatus ext inst) s with
  | .ok status => ext.mask status errBitLo errBitHi == 0
  | .error _ => false

theorem Within.controlAddress_eq (h : Within field ext s₀ s) (hext : ext.Lawful)
    (hclear : ClearOfHeader field) (inst : ℕ) :
    controlAddress ext s inst = controlAddress ext s₀ inst := by
  unfold controlAddress address
  rw [h.value_ppOffset hext hclear, h.feature]

theorem Within.writes_eq (h : Within field ext s₀ s) (hext : ext.Lawful)
    (hclear : ClearOfHeader field) (inst : ℕ) : writes ext s inst = writes ext s₀ inst := by
  have halike : Alike field (value (ppControl ext inst) s) (value (ppControl ext inst) s₀) :=
    h.value_ppRegister hext hclear inst (8 * 3)
  unfold writes
  rw [h.controlAddress_eq hext hclear]
  generalize value (ppControl ext inst) s = x at halike ⊢
  generalize value (ppControl ext inst) s₀ = y at halike ⊢
  cases halike <;> rfl

theorem Within.goesOn_eq (h : Within field ext s₀ s) (hext : ext.Lawful)
    (hclear : ClearOfHeader field) {errBitLo errBitHi : ℕ} (hle : errBitLo ≤ errBitHi)
    (hlt : errBitHi < 64)
    (herr : ∀ b, errBitLo ≤ b → b ≤ errBitHi → field.getLsbD b = false) (inst : ℕ) :
    goesOn ext errBitLo errBitHi s inst = goesOn ext errBitLo errBitHi s₀ inst := by
  have halike : Alike field (value (ppStatus ext inst) s) (value (ppStatus ext inst) s₀) :=
    h.value_ppRegister hext hclear inst (8 * 4)
  unfold goesOn
  generalize value (ppStatus ext inst) s = x at halike ⊢
  generalize value (ppStatus ext inst) s₀ = y at halike ⊢
  cases halike with
  | error e => rfl
  | ok hoff =>
    dsimp only
    rw [hext.mask _ _ _ hle hlt, hext.mask _ _ _ hle hlt,
      hoff.extractLsb' fun b hb hb' => herr b hb (by omega)]

theorem write_apply (inst offset : ℕ) (w : BitVec 64) (s : SSTRegisterSet) :
    write ext inst offset w s =
      if inst ≥ s.feature.instances.toNat then (.error (.outOfRange "Invalid instance"), s)
      else if ext.checkPECIStatus (ext.writeAnswer (s.address inst offset)) then
        (.ok (), s.poke (s.address inst offset) w)
      else (.error (.peciError "MMIO Write failed"), s) := by
  unfold write
  simp only [bind_apply, gets_apply]
  split_ifs with hinst hcheck
  · rfl
  · rw [bind_apply, gets_apply]
    dsimp only
    rw [if_pos hcheck]
    rfl
  · rw [bind_apply, gets_apply]
    dsimp only
    rw [if_neg hcheck]
    rfl

/-- What is known of an instance whose control register has been read. -/
theorem ppControl_eq_ok {inst : ℕ} {w : BitVec 64} (h : value (ppControl ext inst) s = .ok w) :
    ∃ off, value (ppOffset ext inst) s = .ok off ∧ inst < s.feature.instances.toNat ∧
      controlAddress ext s inst = s.address inst (off + 8 * 3) ∧
      w = s.regs (controlAddress ext s inst) := by
  have hvalue : value (ppControl ext inst) s =
      value (ppOffset ext inst) s >>= fun off => value (read ext inst (off + 8 * 3)) s :=
    value_ppRegister inst (8 * 3) s
  rw [h] at hvalue
  cases hoff : value (ppOffset ext inst) s with
  | error e =>
    rw [hoff] at hvalue
    cases hvalue
  | ok off =>
    have haddr : controlAddress ext s inst = s.address inst (off + 8 * 3) := by
      unfold controlAddress
      rw [hoff]
    rw [hoff] at hvalue
    change .ok w = value (read ext inst (off + 8 * 3)) s at hvalue
    rw [value_read (Eq.refl s.feature)] at hvalue
    split_ifs at hvalue with hinst hcheck
    refine ⟨off, rfl, Nat.lt_of_not_le hinst, haddr, ?_⟩
    rw [haddr]
    exact Except.ok.inj hvalue

/-- The write to the control register of an instance whose control register has been read. -/
theorem setPpControl_of_ppControl {inst : ℕ} {w : BitVec 64}
    (h : value (ppControl ext inst) s = .ok w) (w' : BitVec 64) :
    ∃ t, view ext t = view ext s ∧
      setPpControl ext inst w' (ppControl ext inst s).2 =
        if ext.checkPECIStatus (ext.writeAnswer (controlAddress ext s inst)) then
          (.ok (), t.poke (controlAddress ext s inst) w')
        else (.error (.peciError "MMIO Write failed"), t) := by
  obtain ⟨off, hoff, hinst, haddr, -⟩ := ppControl_eq_ok h
  have hkeeps := (readOnly_ppControl ext inst).keeps s
  obtain ⟨s₁, hs₁⟩ : ∃ s₁, s₁ = (ppControl ext inst s).2 := ⟨_, rfl⟩
  rw [← hs₁] at hkeeps ⊢
  have hoff₁ : value (ppOffset ext inst) s₁ = .ok off :=
    ((readOnly_ppOffset ext inst).value_eq hkeeps).trans hoff
  have hkeeps₂ := ((readOnly_ppOffset ext inst).keeps s₁).trans hkeeps
  obtain ⟨t, ht⟩ : ∃ t, t = (ppOffset ext inst s₁).2 := ⟨_, rfl⟩
  rw [← ht] at hkeeps₂
  have hfeature : t.feature = s.feature := congrArg (·.1) hkeeps₂
  have haddr' : t.address inst (off + 8 * 3) = controlAddress ext s inst := by
    rw [haddr]
    unfold address
    rw [hfeature]
  refine ⟨t, hkeeps₂, ?_⟩
  unfold setPpControl
  rw [bind_of_ok hoff₁, ← ht, write_apply, hfeature, if_neg (Nat.not_le_of_lt hinst), haddr']

section Instance

variable (field v) (errBitLo errBitHi : ℕ) {inst : ℕ}

theorem setInstance_of_not_writes (h : writes ext s inst = false) :
    ∃ e, (setInstance ext field v errBitLo errBitHi inst s).1 = .error e ∧
      view ext (setInstance ext field v errBitLo errBitHi inst s).2 = view ext s := by
  unfold writes at h
  unfold setInstance
  cases hcontrol : value (ppControl ext inst) s with
  | error e =>
    rw [bind_of_error hcontrol]
    exact ⟨e, rfl, (readOnly_ppControl ext inst).keeps s⟩
  | ok w =>
    obtain ⟨t, hview, hwrite⟩ := setPpControl_of_ppControl hcontrol (w &&& ~~~field ||| v)
    rw [hcontrol] at h
    dsimp only at h
    rw [h, if_neg Bool.false_ne_true] at hwrite
    rw [bind_of_ok hcontrol, bind_of_error (congrArg Prod.fst hwrite), hwrite]
    exact ⟨_, rfl, hview⟩

/-- The control register is written, and the round ends normally exactly if the status read after it
has no error. -/
theorem setInstance_of_writes (h : writes ext s inst = true) :
    ∃ t, view ext t = view ext s ∧
      view ext (setInstance ext field v errBitLo errBitHi inst s).2 =
        view ext (t.poke (controlAddress ext s inst)
          (setField field v (t.regs (controlAddress ext s inst)))) ∧
      ((setInstance ext field v errBitLo errBitHi inst s).1 = .ok () ↔
        goesOn ext errBitLo errBitHi (t.poke (controlAddress ext s inst)
          (setField field v (t.regs (controlAddress ext s inst)))) inst = true) := by
  unfold writes at h
  unfold setInstance
  cases hcontrol : value (ppControl ext inst) s with
  | error e =>
    rw [hcontrol] at h
    cases h
  | ok w =>
    obtain ⟨t, hview, hwrite⟩ := setPpControl_of_ppControl hcontrol (w &&& ~~~field ||| v)
    obtain ⟨-, -, -, -, rfl⟩ := ppControl_eq_ok hcontrol
    rw [hcontrol] at h
    dsimp only at h
    rw [if_pos h] at hwrite
    have hregs : t.regs = s.regs := congrArg (·.2.1) hview
    refine ⟨t, hview, ?_⟩
    obtain ⟨u, hu⟩ : ∃ u, u = t.poke (controlAddress ext s inst)
      (setField field v (t.regs (controlAddress ext s inst))) := ⟨_, rfl⟩
    have hu' : t.poke (controlAddress ext s inst)
        (s.regs (controlAddress ext s inst) &&& ~~~field ||| v) = u := by
      rw [hu, hregs]
      rfl
    rw [hu'] at hwrite
    rw [← hu, bind_of_ok hcontrol, bind_of_ok (congrArg Prod.fst hwrite), hwrite]
    have hkeeps := (readOnly_ppStatus ext inst).keeps u
    unfold goesOn
    cases hstatus : value (ppStatus ext inst) u with
    | error e =>
      rw [bind_of_error hstatus]
      exact ⟨hkeeps, by simp⟩
    | ok status =>
      rw [bind_of_ok hstatus]
      dsimp only
      by_cases hzero : ext.mask status errBitLo errBitHi = 0
      · rw [if_neg (not_not.mpr hzero)]
        exact ⟨hkeeps, by simp [hzero]⟩
      · rw [if_pos hzero]
        exact ⟨hkeeps, by simp [hzero]⟩

end Instance

/-! ### All instances -/

section Loop

variable {errBitLo errBitHi : ℕ}

theorem setLoop_cons (inst : ℕ) (insts : List ℕ) (s : SSTRegisterSet) :
    setLoop ext field v errBitLo errBitHi (inst :: insts) s =
      (setInstance ext field v errBitLo errBitHi inst >>=
        fun _ => setLoop ext field v errBitLo errBitHi insts) s := rfl

variable (field v errBitLo errBitHi) in
/-- The registers after one round are those before it, or changed at the control register. -/
theorem regs_setInstance (inst : ℕ) (s : SSTRegisterSet) :
    (setInstance ext field v errBitLo errBitHi inst s).2.regs =
      if writes ext s inst then
        Function.update s.regs (controlAddress ext s inst)
          (setField field v (s.regs (controlAddress ext s inst)))
      else s.regs := by
  cases h : writes ext s inst with
  | false =>
    obtain ⟨e, -, hview⟩ := setInstance_of_not_writes field v errBitLo errBitHi h
    exact congrArg (·.2.1) hview
  | true =>
    obtain ⟨t, ht, hview, -⟩ := setInstance_of_writes field v errBitLo errBitHi h
    have hregs : t.regs = s.regs := congrArg (·.2.1) ht
    have hafter : (setInstance ext field v errBitLo errBitHi inst s).2.regs =
        (t.poke _ _).regs := congrArg (·.2.1) hview
    rw [hafter, if_pos rfl, poke, hregs]

/-- What setting the field keeps of a word, the loop keeps of every register. -/
theorem setLoop_keeps {P : BitVec 64 → Prop} (hP : ∀ w, P w → P (setField field v w))
    (insts : List ℕ) (s : SSTRegisterSet) (addr : ℕ) (hs : P (s.regs addr)) :
    P ((setLoop ext field v errBitLo errBitHi insts s).2.regs addr) := by
  induction insts generalizing s with
  | nil => exact hs
  | cons inst insts ih =>
    have hround : P ((setInstance ext field v errBitLo errBitHi inst s).2.regs addr) := by
      rw [regs_setInstance]
      split_ifs
      · by_cases haddr : addr = controlAddress ext s inst
        · rw [haddr, Function.update_self, ← haddr]
          exact hP _ hs
        · rwa [Function.update_of_ne haddr]
      · exact hs
    rw [setLoop_cons]
    cases hr : (setInstance ext field v errBitLo errBitHi inst s).1 with
    | error e => rwa [bind_of_error hr]
    | ok _ =>
      rw [bind_of_ok hr]
      exact ih _ hround

/-- No bit outside the field is ever cleared. -/
theorem setLoop_grows (insts : List ℕ) (s : SSTRegisterSet) {b : ℕ} (hb : field.getLsbD b = false)
    (addr : ℕ) (hset : (s.regs addr).getLsbD b = true) :
    ((setLoop ext field v errBitLo errBitHi insts s).2.regs addr).getLsbD b = true :=
  setLoop_keeps (P := fun w => w.getLsbD b = true)
    (fun w hw => by rw [getLsbD_setField_off hb, hw, Bool.true_or]) insts s addr hset

/-- A register whose field has the value keeps it. -/
theorem setLoop_keeps_field (insts : List ℕ) (s : SSTRegisterSet) (addr : ℕ)
    (hset : s.regs addr &&& field = v &&& field) :
    (setLoop ext field v errBitLo errBitHi insts s).2.regs addr &&& field = v &&& field :=
  setLoop_keeps (P := fun w => w &&& field = v &&& field) (fun _ _ => setField_and_field) insts s
    addr hset

variable (ext errBitLo errBitHi) in
/-- The instances whose control register is written: up to the first that fails. -/
def written (s : SSTRegisterSet) : List ℕ → List ℕ
  | [] => []
  | inst :: insts =>
    if writes ext s inst then
      inst :: if goesOn ext errBitLo errBitHi s inst then written s insts else []
    else []

/-- What a field and the bits of its error codes are expected to be. -/
structure FieldOf (field : BitVec 64) (errBitLo errBitHi : ℕ) : Prop where
  header : ClearOfHeader field
  le : errBitLo ≤ errBitHi
  lt : errBitHi < 64
  errors : ∀ b, errBitLo ≤ b → b ≤ errBitHi → field.getLsbD b = false

/-- A round whose register covers the value changes it in the field only. -/
theorem Within.setInstance (h : Within field ext s₀ s) (hext : ext.Lawful)
    (hfield : FieldOf field errBitLo errBitHi) {inst : ℕ} (hwrites : writes ext s₀ inst = true)
    (hcovers : Covers field v (s₀.regs (controlAddress ext s₀ inst))) :
    Within field ext s₀ (setInstance ext field v errBitLo errBitHi inst s).2 ∧
    ((SSTRegisterSet.setInstance ext field v errBitLo errBitHi inst s).1 = .ok () ↔
      goesOn ext errBitLo errBitHi s₀ inst = true) := by
  have hws : writes ext s inst = true := (h.writes_eq hext hfield.header inst).trans hwrites
  obtain ⟨t, ht, hview, hok⟩ := setInstance_of_writes field v errBitLo errBitHi hws
  have hwithin := h.of_view ht
  have haddr := h.controlAddress_eq hext hfield.header inst
  have hsame : SameOff field (setField field v (t.regs (controlAddress ext s inst)))
      (t.regs (controlAddress ext s inst)) := by
    rw [sameOff_setField_iff, haddr]
    exact (Covers.congr (hwithin.regs _)).mpr hcovers
  have hpoke := hwithin.poke hsame
  refine ⟨hpoke.of_view hview, hok.trans ?_⟩
  rw [hpoke.goesOn_eq hext hfield.header hfield.le hfield.lt hfield.errors]

/-- The bits of the value outside the field are set in every register that is written. -/
def Fits (ext : Externals) (field v : BitVec 64) (errBitLo errBitHi : ℕ) (s : SSTRegisterSet)
    (insts : List ℕ) : Prop :=
  ∀ inst ∈ written ext errBitLo errBitHi s insts,
    Covers field v (s.regs (controlAddress ext s inst))

theorem fits_cons {inst : ℕ} {insts : List ℕ} :
    Fits ext field v errBitLo errBitHi s (inst :: insts) ↔ (writes ext s inst = true →
      Covers field v (s.regs (controlAddress ext s inst)) ∧
        (goesOn ext errBitLo errBitHi s inst = true →
          Fits ext field v errBitLo errBitHi s insts)) := by
  unfold Fits
  rw [written]
  split_ifs with hwrites hgoes
  · simp [hwrites, hgoes]
  · simp [hwrites, hgoes]
  · simp [hwrites]

theorem setLoop_of_fits (hext : ext.Lawful) (hfield : FieldOf field errBitLo errBitHi)
    {insts : List ℕ} (h : Within field ext s₀ s)
    (hfits : Fits ext field v errBitLo errBitHi s₀ insts) :
    Within field ext s₀ (setLoop ext field v errBitLo errBitHi insts s).2 ∧
    (∀ addr, (∀ inst ∈ insts, addr ≠ controlAddress ext s₀ inst) →
      (setLoop ext field v errBitLo errBitHi insts s).2.regs addr = s.regs addr) ∧
    ((setLoop ext field v errBitLo errBitHi insts s).1 = .ok () → ∀ inst ∈ insts,
      (setLoop ext field v errBitLo errBitHi insts s).2.regs (controlAddress ext s₀ inst) &&&
        field = v &&& field) := by
  induction insts generalizing s with
  | nil => exact ⟨h, fun _ _ => rfl, fun _ inst hmem => absurd hmem List.not_mem_nil⟩
  | cons inst insts ih =>
    have haddr := h.controlAddress_eq hext hfield.header inst
    have hround : ∀ addr, addr ≠ controlAddress ext s₀ inst →
        (setInstance ext field v errBitLo errBitHi inst s).2.regs addr = s.regs addr := by
      intro addr hne
      rw [regs_setInstance, haddr]
      split_ifs
      · exact Function.update_of_ne hne _ _
      · rfl
    rw [setLoop_cons]
    cases hwrites : writes ext s₀ inst with
    | false =>
      obtain ⟨e, herror, hview⟩ := setInstance_of_not_writes field v errBitLo errBitHi
        ((h.writes_eq hext hfield.header inst).trans hwrites)
      rw [bind_of_error herror]
      exact ⟨h.of_view hview, fun addr hne => hround addr (hne inst List.mem_cons_self), nofun⟩
    | true =>
      obtain ⟨hcovers, hrest⟩ := fits_cons.mp hfits hwrites
      obtain ⟨hwithin, hok⟩ := h.setInstance hext hfield hwrites hcovers
      have hset : (setInstance ext field v errBitLo errBitHi inst s).2.regs
          (controlAddress ext s₀ inst) &&& field = v &&& field := by
        rw [regs_setInstance, if_pos ((h.writes_eq hext hfield.header inst).trans hwrites), haddr,
          Function.update_self, setField_and_field]
      cases hr : (setInstance ext field v errBitLo errBitHi inst s).1 with
      | error e =>
        rw [bind_of_error hr]
        exact ⟨hwithin, fun addr hne => hround addr (hne inst List.mem_cons_self), nofun⟩
      | ok _ =>
        obtain ⟨hend, hother, hall⟩ := ih hwithin (hrest (hok.mp hr))
        rw [bind_of_ok hr]
        refine ⟨hend, fun addr hne => ?_, fun hdone i hi => ?_⟩
        · rw [hother addr fun i hi => hne i (List.mem_cons_of_mem inst hi),
            hround addr (hne inst List.mem_cons_self)]
        · rcases List.mem_cons.mp hi with rfl | hi
          · exact setLoop_keeps_field insts _ _ hset
          · exact hall hdone i hi

/-- At the first register that does not cover the value, a bit outside the field is set for good. -/
theorem setLoop_of_not_fits (hext : ext.Lawful) (hfield : FieldOf field errBitLo errBitHi)
    {insts : List ℕ} (h : Within field ext s₀ s)
    (hfits : ¬ Fits ext field v errBitLo errBitHi s₀ insts) :
    ∃ addr b, field.getLsbD b = false ∧ (s₀.regs addr).getLsbD b = false ∧
      ((setLoop ext field v errBitLo errBitHi insts s).2.regs addr).getLsbD b = true := by
  induction insts generalizing s with
  | nil => exact absurd (fun inst hmem => absurd hmem List.not_mem_nil) hfits
  | cons inst insts ih =>
    have haddr := h.controlAddress_eq hext hfield.header inst
    cases hwrites : writes ext s₀ inst with
    | false => exact absurd (fits_cons.mpr fun hnot => by simp [hwrites] at hnot) hfits
    | true =>
      have hws := (h.writes_eq hext hfield.header inst).trans hwrites
      by_cases hcovers : Covers field v (s₀.regs (controlAddress ext s₀ inst))
      · obtain ⟨hwithin, hok⟩ := h.setInstance hext hfield hwrites hcovers
        cases hgoes : goesOn ext errBitLo errBitHi s₀ inst with
        | false =>
          exact absurd (fits_cons.mpr fun _ => ⟨hcovers, fun hnot => by simp [hgoes] at hnot⟩) hfits
        | true =>
          have hrest : ¬ Fits ext field v errBitLo errBitHi s₀ insts := fun hrest =>
            hfits (fits_cons.mpr fun _ => ⟨hcovers, fun _ => hrest⟩)
          rw [setLoop_cons, bind_of_ok (hok.mpr hgoes)]
          exact ih hwithin hrest
      · unfold Covers at hcovers
        push Not at hcovers
        obtain ⟨b, hb, hv, hclear⟩ := hcovers
        refine ⟨controlAddress ext s₀ inst, b, hb, Bool.eq_false_of_not_eq_true hclear, ?_⟩
        have hset : ((setInstance ext field v errBitLo errBitHi inst s).2.regs
            (controlAddress ext s₀ inst)).getLsbD b = true := by
          rw [regs_setInstance, if_pos hws, haddr, Function.update_self, getLsbD_setField_off hb,
            hv, Bool.or_true]
        rw [setLoop_cons]
        cases hr : (setInstance ext field v errBitLo errBitHi inst s).1 with
        | error e => rwa [bind_of_error hr]
        | ok _ =>
          rw [bind_of_ok hr]
          exact setLoop_grows insts _ hb _ hset

end Loop

/-- The registers are changed in the field only, and only the control registers of valid instances.
If all goes well then these have the value in the field. -/
structure FieldSet (ext : Externals) (field v : BitVec 64) (s : SSTRegisterSet)
    (r : Except SSTError Unit × SSTRegisterSet) : Prop where
  bits : ∀ addr, SameOff field (r.2.regs addr) (s.regs addr)
  registers : ∀ addr, (∀ inst ∈ reported ext s, addr ≠ controlAddress ext s inst) →
    r.2.regs addr = s.regs addr
  agree : r.1 = .ok () → ∀ inst ∈ reported ext s,
    r.2.regs (controlAddress ext s inst) &&& field = v &&& field

theorem fieldSet_iff (hext : ext.Lawful) {errBitLo errBitHi : ℕ}
    (hfield : FieldOf field errBitLo errBitHi) (s : SSTRegisterSet) :
    FieldSet ext field v s (setAllInstances ext field v errBitLo errBitHi s) ↔
      Fits ext field v errBitLo errBitHi s (reported ext s) := by
  have hkeeps := (readOnly_validInstances ext).keeps s
  unfold setAllInstances
  cases hvalid : value (validInstances ext) s with
  | error e =>
    have hreported : reported ext s = [] := by
      unfold reported
      rw [hvalid]
    rw [bind_of_error hvalid, hreported]
    have hregs : (validInstances ext s).2.regs = s.regs := congrArg (·.2.1) hkeeps
    refine iff_of_true ⟨fun addr => ?_, fun addr _ => congrFun hregs addr, nofun⟩ ?_
    · rw [hregs]
      exact .refl field _
    · exact fun inst hmem => absurd hmem List.not_mem_nil
  | ok valid =>
    obtain ⟨t, ht⟩ : ∃ t, t = (validInstances ext s).2 := ⟨_, rfl⟩
    have hwithin : Within field ext s t := (Within.refl s).of_view (ht ▸ hkeeps)
    have hregs : t.regs = s.regs := congrArg (·.2.1) (ht ▸ hkeeps)
    rw [bind_of_ok hvalid, ← ht, reported_eq ext s hvalid]
    constructor
    · intro hset
      by_contra hfits
      obtain ⟨addr, b, hb, hclear, hnow⟩ := setLoop_of_not_fits hext hfield hwithin hfits
      have hsame := hset.bits addr b hb
      rw [hclear, hnow] at hsame
      cases hsame
    · intro hfits
      obtain ⟨hend, hother, hall⟩ := setLoop_of_fits hext hfield hwithin hfits
      refine ⟨hend.regs, fun addr hne => ?_, ?_⟩
      · rw [reported_eq ext s hvalid] at hne
        rw [hother addr hne, hregs]
      · rw [reported_eq ext s hvalid]
        exact hall

/-- A value that has no bits outside the field is set as it should be. -/
theorem fieldSet_of_value_in_field (hext : ext.Lawful) {errBitLo errBitHi : ℕ}
    (hfield : FieldOf field errBitLo errBitHi)
    (hv : ∀ b, field.getLsbD b = false → v.getLsbD b = false) (s : SSTRegisterSet) :
    FieldSet ext field v s (setAllInstances ext field v errBitLo errBitHi s) := by
  refine (fieldSet_iff hext hfield s).mpr fun inst _ b hb hset => ?_
  rw [hv b hb] at hset
  cases hset

/-! ### The feature bits -/

theorem getLsbD_flag (i b : ℕ) (enable : Bool) (hb : (BitVec.twoPow 64 i).getLsbD b = false) :
    (if enable then BitVec.twoPow 64 i else 0).getLsbD b = false := by
  cases enable
  · exact BitVec.getLsbD_zero
  · exact hb

theorem fieldOf_flag {i errBitLo errBitHi : ℕ} (hi : i < 24) (hle : errBitLo ≤ errBitHi)
    (hlt : errBitHi < 64) (herr : i < errBitLo) :
    FieldOf (BitVec.twoPow 64 i) errBitLo errBitHi := by
  refine ⟨fun b hb _ => ?_, hle, hlt, fun b hb _ => ?_⟩
  all_goals
    have hne : i ≠ b := by omega
    rw [BitVec.getLsbD_twoPow, decide_eq_false hne, Bool.and_false]

theorem setBfEnabled_sets_field (hext : ext.Lawful) (enable : Bool) (s : SSTRegisterSet) :
    FieldSet ext bfBit (if enable then bfBit else 0) s (setBfEnabled ext enable s) :=
  fieldSet_of_value_in_field hext (fieldOf_flag (by decide) (by decide) (by decide) (by decide))
    (fun b hb => getLsbD_flag 8 b enable hb) s

theorem setTfEnabled_sets_field (hext : ext.Lawful) (enable : Bool) (s : SSTRegisterSet) :
    FieldSet ext tfBit (if enable then tfBit else 0) s (setTfEnabled ext enable s) :=
  fieldSet_of_value_in_field hext (fieldOf_flag (by decide) (by decide) (by decide) (by decide))
    (fun b hb => getLsbD_flag 9 b enable hb) s

/-! ### The level -/

theorem getLsbD_seven (b : ℕ) : (0x7 : BitVec 64).getLsbD b = decide (b < 3) := by
  by_cases hb : b < 64
  · exact (by decide : ∀ b < 64, (0x7 : BitVec 64).getLsbD b = decide (b < 3)) b hb
  · rw [BitVec.getLsbD_of_ge _ b (Nat.le_of_not_lt hb), decide_eq_false (by omega)]

theorem fieldOf_level : FieldOf 0x7 4 7 := by
  refine ⟨fun b hb _ => ?_, by decide, by decide, fun b hb _ => ?_⟩
  all_goals
    rw [getLsbD_seven]
    exact decide_eq_false (by omega)

theorem covers_level_iff (level : BitVec 32) (w : BitVec 64) :
    Covers 0x7 (level.setWidth 64) w ↔
      ∀ b, 3 ≤ b → level.getLsbD b = true → w.getLsbD b = true := by
  unfold Covers
  refine forall_congr' fun b => ?_
  rw [getLsbD_seven, decide_eq_false_iff_not, Nat.not_lt, BitVec.getLsbD_setWidth]
  by_cases hb : b < 64
  · simp [hb]
  · simp [hb, BitVec.getLsbD_of_ge level b (by omega)]

theorem getLsbD_of_level_lt {level : BitVec 32} (h : level.toNat < 8) {b : ℕ} (hb : 3 ≤ b) :
    level.getLsbD b = false := by
  rw [BitVec.getLsbD]
  exact Nat.testBit_lt_two_pow (Nat.lt_of_lt_of_le h (Nat.pow_le_pow_right (Nat.succ_pos 1) hb))

/-- `setCurrentLevel` changes the control registers of the valid instances in the level field only,
and leaves the same level in all of them if it ends normally, exactly if the bits of the level
above the field are set already in every register that it writes. A level below 8 has none. -/
theorem setCurrentLevel_sets_field_iff (hext : ext.Lawful) (level : BitVec 32)
    (s : SSTRegisterSet) :
    (FieldSet ext 0x7 (level.setWidth 64) s (setCurrentLevel ext level s) ↔
      ∀ inst ∈ written ext 4 7 s (reported ext s), ∀ b, 3 ≤ b → level.getLsbD b = true →
        (s.regs (controlAddress ext s inst)).getLsbD b = true) ∧
    (level.toNat < 8 → FieldSet ext 0x7 (level.setWidth 64) s (setCurrentLevel ext level s)) := by
  have hiff := fieldSet_iff (v := level.setWidth 64) hext fieldOf_level s
  constructor
  · refine hiff.trans ?_
    exact forall_congr' fun inst => forall_congr' fun _ => covers_level_iff level _
  · intro hlt
    refine fieldSet_of_value_in_field hext fieldOf_level (fun b hb => ?_) s
    rw [getLsbD_seven, decide_eq_false_iff_not, Nat.not_lt] at hb
    rw [BitVec.getLsbD_setWidth, getLsbD_of_level_lt hlt hb, Bool.and_false]

theorem setCurrentLevel_sets_field_three :
    FieldSet answering 0x7 3 (twoDies 2 1 0x5 0x8)
      (setCurrentLevel answering 3 (twoDies 2 1 0x5 0x8)) :=
  (setCurrentLevel_sets_field_iff answering_lawful 3 _).2 (by decide)

/-- Level 256 sets bit 8 of the control register, which enables base frequency. -/
theorem setCurrentLevel_sets_other_bit :
    ((twoDies 2 1 0x5 0x8).regs 24).getLsbD 8 = false ∧
      ((setCurrentLevel answering 256 (twoDies 2 1 0x5 0x8)).2.regs 24).getLsbD 8 = true := by
  constructor <;> decide +kernel

end SSTRegisterSet

end MetaCommon.Sst
