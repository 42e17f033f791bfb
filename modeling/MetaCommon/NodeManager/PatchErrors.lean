import MetaCommon.Lib.Runs
import MetaCommon.NodeManager.Patch

/-!
# Errors and writes of a PATCH

A PATCH that is answered with a validation error should have written nothing. The body is validated
while it is written, so this holds for a body exactly if no part of it is at fault, or no part of it
asks for a write.
-/

namespace MetaCommon.NodeManager

open Runs

/-- If the response reports an error when the body has been handled, nothing is ever written. -/
def Patch.Atomic (u : JsonUtil) (a : Answers) (patch : Patch) : Prop :=
  ∀ s, patch.handle u a = some s → s.messages ≠ [] →
    ∀ replies, (run Exchange.reply s replies).writes = []

/-! ### Faults and writes of the parts of a body -/

def Json.HasNull (keys : List String) (json : Json) : Prop := ∃ key ∈ keys, json.hasNull key = true

/-- The members of `keys` that are null are left out. -/
def Json.withoutNulls (keys : List String) (json : Json) : Json :=
  keys.foldl (fun json key => if json.hasNull key then json.erase key else json) json

/-- What is left to be read when the null members are erased, unless that is nothing. -/
def Json.rest (keys : List String) (json : Json) (rest : Json) : Prop :=
  rest = json.withoutNulls keys ∧ ¬ (json.HasNull keys ∧ rest.empty = true)

section Parts

variable (u : JsonUtil)

def PowerLimitFaulty (json : Json) : Prop :=
  ∃ rest, json.rest powerLimitKeys rest ∧ (u.readPowerLimit rest = none ∨
    ∃ l ∈ u.readPowerLimit rest, ∃ limitException ∈ l.limitException,
      limitExceptionToInt limitException = none)

def PowerLimitWrites (json : Json) : Prop :=
  json.HasNull powerLimitKeys ∨ ∃ rest, json.rest powerLimitKeys rest ∧
    ∃ l ∈ u.readPowerLimit rest, l.limitInWatts.isSome ∨ l.correctionInMs.isSome ∨
      ∃ limitException ∈ l.limitException, (limitExceptionToInt limitException).isSome

def OpenBmcFaulty (json : Json) : Prop :=
  ∃ rest, json.rest ["PowerLimitStorage"] rest ∧ (u.readPowerLimitStorage rest = none ∨
    ∃ storage, u.readPowerLimitStorage rest = some (some storage) ∧
      powerLimitStorageToInt storage = none)

def OpenBmcWrites (json : Json) : Prop :=
  ∃ rest, json.rest ["PowerLimitStorage"] rest ∧ ∃ storage,
    u.readPowerLimitStorage rest = some (some storage) ∧ (powerLimitStorageToInt storage).isSome

def OemFaulty (json : Json) : Prop :=
  ∃ rest, json.rest ["OpenBmc"] rest ∧ (u.readOpenBmc rest = none ∨
    ∃ openBmc, u.readOpenBmc rest = some (some openBmc) ∧ OpenBmcFaulty u openBmc)

def OemWrites (json : Json) : Prop :=
  ∃ rest, json.rest ["OpenBmc"] rest ∧ ∃ openBmc,
    u.readOpenBmc rest = some (some openBmc) ∧ OpenBmcWrites u openBmc

def BodyFaulty (oem powerLimit : Option Json) : Prop :=
  (∃ json ∈ oem, OemFaulty u json) ∨ ∃ json ∈ powerLimit, PowerLimitFaulty u json

def BodyWrites (oem powerLimit : Option Json) : Prop :=
  (∃ json ∈ oem, OemWrites u json) ∨ ∃ json ∈ powerLimit, PowerLimitWrites u json

/-- A member of the array: its "Oem" is patched before and after its "PowerLimit". -/
def MemberFaulty (oem powerLimit : Option Json) : Prop :=
  (∃ json ∈ oem, OemFaulty u json ∨ OemFaulty u (oemLeft u json)) ∨
    ∃ json ∈ powerLimit, PowerLimitFaulty u json

def MemberWrites (oem powerLimit : Option Json) : Prop :=
  (∃ json ∈ oem, OemWrites u json ∨ OemWrites u (oemLeft u json)) ∨
    ∃ json ∈ powerLimit, PowerLimitWrites u json

/-- The array is longer than the list, and no member before that is unreadable. -/
def MembersThrow : List DomainPolicy → List Json → Prop
  | _, [] => False
  | [], _ :: _ => True
  | _ :: list, collection :: collections =>
    (u.readMember collection).isSome ∧ MembersThrow list collections

/-- A member up to the first unreadable one is at fault. -/
def MembersFaulty : List DomainPolicy → List Json → Prop
  | _ :: list, collection :: collections =>
    match u.readMember collection with
    | none => True
    | some (oem, powerLimit) => MemberFaulty u oem powerLimit ∨ MembersFaulty list collections
  | _, _ => False

def MembersWrite : List DomainPolicy → List Json → Prop
  | _ :: list, collection :: collections =>
    match u.readMember collection with
    | none => False
    | some (oem, powerLimit) => MemberWrites u oem powerLimit ∨ MembersWrite list collections
  | _, _ => False

/-- No part of the body that is handled is at fault, or none asks for a write, or the array is
longer than the list of the power controls. -/
def Patch.Clean (a : Answers) : Patch → Prop
  | .collection body =>
    a.mapper = true → a.chassisPath = true → ∀ list ∈ a.list, ∀ collections,
      u.readCollectionAction body = some (some collections) →
      MembersThrow u list collections ∨ ¬ MembersFaulty u list collections ∨
        ¬ MembersWrite u list collections
  | .member name body =>
    ∀ list ∈ a.list, (findMember list name).isSome → ∀ oem powerLimit,
      u.readMemberAction body = some (oem, powerLimit) →
      ¬ BodyFaulty u oem powerLimit ∨ ¬ BodyWrites u oem powerLimit

end Parts

/-! ### What the patching functions add -/

/-- A function adds a message exactly if `faulty`, and a write exactly if `writes`. -/
def Adds (patch : Exchange → Exchange) (faulty writes : Prop) : Prop :=
  ∀ s, ((patch s).messages = [] ↔ s.messages = [] ∧ ¬ faulty) ∧
    ((patch s).writes = [] ↔ s.writes = [] ∧ ¬ writes)

section Rules

variable {patch patch' : Exchange → Exchange} {faulty writes faulty' writes' : Prop}

theorem Adds.nothing : Adds id False False := fun s => by simp

theorem Adds.message (m : Message) : Adds (fun s => s.message m) True False := fun s => by
  simp [Exchange.message]

theorem Adds.write (w : Write) : Adds (fun s => s.write w) False True := fun s => by
  simp [Exchange.write]

theorem Adds.comp (h : Adds patch faulty writes) (h' : Adds patch' faulty' writes') :
    Adds (fun s => patch' (patch s)) (faulty ∨ faulty') (writes ∨ writes') := by
  intro s
  obtain ⟨hm, hw⟩ := h s
  obtain ⟨hm', hw'⟩ := h' (patch s)
  rw [hm', hw', hm, hw, not_or, not_or, and_assoc, and_assoc]
  exact ⟨Iff.rfl, Iff.rfl⟩

theorem Adds.congr (h : Adds patch faulty writes) (hfaulty : faulty ↔ faulty')
    (hwrites : writes ↔ writes') : Adds patch faulty' writes' := by
  intro s
  rw [← hfaulty, ← hwrites]
  exact h s

theorem Adds.ifSome {α : Type} {value : Option α} {patch : α → Exchange → Exchange}
    {faulty writes : α → Prop} (h : ∀ v, Adds (patch v) (faulty v) (writes v)) :
    Adds (NodeManager.ifSome value patch) (∃ v ∈ value, faulty v) (∃ v ∈ value, writes v) := by
  cases value with
  | none => exact Adds.nothing.congr (by simp) (by simp)
  | some v => exact (h v).congr (by simp) (by simp)

theorem withoutNulls_cons {key : String} {keys : List String} {json : Json} :
    json.withoutNulls (key :: keys) =
      (if json.hasNull key then json.erase key else json).withoutNulls keys := by
  unfold Json.withoutNulls
  rw [List.foldl_cons]

theorem withoutNulls_of_not_hasNull {keys : List String} {json : Json}
    (h : ¬ json.HasNull keys) : json.withoutNulls keys = json := by
  induction keys with
  | nil => rfl
  | cons key keys ih =>
    have hkey : ¬ json.hasNull key = true := fun hk => h ⟨key, List.mem_cons_self, hk⟩
    rw [withoutNulls_cons, if_neg hkey]
    exact ih fun ⟨k, hk, hnull⟩ => h ⟨k, List.mem_cons_of_mem _ hk, hnull⟩

theorem not_hasNull_of_empty {keys : List String} {json : Json} (h : json.empty = true) :
    ¬ json.HasNull keys := by
  rintro ⟨key, -, hnull⟩
  cases json with
  | null => simp [Json.hasNull, Json.member?] at hnull
  | scalar => simp [Json.empty] at h
  | array => simp [Json.hasNull, Json.member?] at hnull
  | object members =>
    obtain rfl : members = [] := List.isEmpty_iff.mp h
    simp [Json.hasNull, Json.member?] at hnull

theorem hasNull_cons {key : String} {keys : List String} {json : Json} :
    json.HasNull (key :: keys) ↔ json.hasNull key = true ∨ json.HasNull keys := by
  simp [Json.HasNull]

/-- A null member is erased; the erasing goes on if something is left. -/
theorem rest_cons_of_hasNull {key : String} {keys : List String} {json rest : Json}
    (hkey : json.hasNull key = true) : json.rest (key :: keys) rest ↔
      ¬ (json.erase key).empty = true ∧ (json.erase key).rest keys rest := by
  have hnull : json.HasNull (key :: keys) := hasNull_cons.mpr (.inl hkey)
  unfold Json.rest
  rw [withoutNulls_cons, if_pos hkey]
  constructor
  · rintro ⟨hrest, hleft⟩
    refine ⟨fun hempty => hleft ⟨hnull, ?_⟩, hrest, fun h => hleft ⟨hnull, h.2⟩⟩
    rw [hrest, withoutNulls_of_not_hasNull (not_hasNull_of_empty hempty)]
    exact hempty
  · rintro ⟨hempty, hrest, hleft⟩
    refine ⟨hrest, fun h => hleft ⟨?_, h.2⟩⟩
    -- without another null member the rest is what is not empty here
    by_contra hno
    rw [withoutNulls_of_not_hasNull hno] at hrest
    exact hempty (hrest ▸ h.2)

theorem rest_cons_of_not_hasNull {key : String} {keys : List String} {json rest : Json}
    (hkey : ¬ json.hasNull key = true) :
    json.rest (key :: keys) rest ↔ json.rest keys rest := by
  unfold Json.rest
  rw [withoutNulls_cons, if_neg hkey, hasNull_cons, or_iff_right hkey]

/-- The null members are erased, each after `reset`, and the rest is handed on unless nothing is
left. -/
theorem resetNulls_spec {reset : Exchange → Exchange} {resets : Prop} (h : Adds reset False resets)
    (keys : List String) (s : Exchange) (json : Json) :
    ((resetNulls reset keys s json).1.messages = [] ↔ s.messages = []) ∧
    ((resetNulls reset keys s json).1.writes = [] ↔
      s.writes = [] ∧ ¬ (resets ∧ json.HasNull keys)) ∧
    ∀ rest, (resetNulls reset keys s json).2 = some rest ↔ json.rest keys rest := by
  induction keys generalizing s json with
  | nil =>
    refine ⟨Iff.rfl, by simp [resetNulls, Json.HasNull], fun rest => ?_⟩
    simp only [resetNulls, Option.some_inj, Json.rest, Json.withoutNulls, List.foldl_nil,
      Json.HasNull, List.not_mem_nil, false_and, exists_false, not_false_eq_true, and_true]
    exact eq_comm
  | cons key keys ih =>
    unfold resetNulls
    by_cases hkey : json.hasNull key = true
    · have hnull : json.HasNull (key :: keys) := hasNull_cons.mpr (.inl hkey)
      simp only [if_pos hkey, rest_cons_of_hasNull hkey, hnull, and_true]
      by_cases hempty : (json.erase key).empty = true
      · rw [if_pos hempty]
        exact ⟨by simpa using (h s).1, (h s).2, fun rest => by simp [hempty]⟩
      · rw [if_neg hempty]
        obtain ⟨hm, hw, hr⟩ := ih (reset s) (json.erase key)
        refine ⟨by rw [hm, (h s).1]; simp, ?_, fun rest => by simp [hr, hempty]⟩
        rw [hw, (h s).2]
        tauto
    · obtain ⟨hm, hw, hr⟩ := ih s json
      simp only [if_neg hkey, rest_cons_of_not_hasNull hkey, hasNull_cons, or_iff_right hkey]
      exact ⟨hm, hw, hr⟩

/-- `next` goes on with what is left, if anything is. -/
def continueWith (next : Json → Exchange → Exchange) (r : Exchange × Option Json) : Exchange :=
  ifSome r.2 next r.1

/-- The error of a reader ends the patching. -/
def patchRead {α : Type} (read : Option α) (patch : α → Exchange → Exchange) (s : Exchange) :
    Exchange :=
  match read with
  | none => s.message .invalidJson
  | some v => patch v s

theorem Adds.patchRead {α : Type} {read : Option α} {patch : α → Exchange → Exchange}
    {faulty writes : α → Prop} (h : ∀ v, Adds (patch v) (faulty v) (writes v)) :
    Adds (NodeManager.patchRead read patch) (read = none ∨ ∃ v ∈ read, faulty v)
      (∃ v ∈ read, writes v) := by
  cases read with
  | none => exact (Adds.message .invalidJson).congr (by simp) (by simp)
  | some v => exact (h v).congr (by simp) (by simp)

/-- The patching of what is left when the null members are erased. -/
theorem Adds.resetNulls {reset : Exchange → Exchange} {resets : Prop} (h : Adds reset False resets)
    {keys : List String} {json : Json} {next : Json → Exchange → Exchange}
    {faulty writes : Json → Prop} (hnext : ∀ rest, Adds (next rest) (faulty rest) (writes rest)) :
    Adds (fun s => continueWith next (NodeManager.resetNulls reset keys s json))
      (∃ rest, json.rest keys rest ∧ faulty rest)
      ((resets ∧ json.HasNull keys) ∨ ∃ rest, json.rest keys rest ∧ writes rest) := by
  intro s
  obtain ⟨hm, hw, hr⟩ := resetNulls_spec h keys s json
  have hifSome : Adds (NodeManager.ifSome (NodeManager.resetNulls reset keys s json).2 next) _ _ :=
    Adds.ifSome hnext
  obtain ⟨hm', hw'⟩ := hifSome (NodeManager.resetNulls reset keys s json).1
  simp only [Option.mem_def, hr] at hm' hw'
  unfold continueWith
  rw [hm', hw', hm, hw, not_or, and_assoc]
  exact ⟨Iff.rfl, Iff.rfl⟩

end Rules

/-! ### The patching functions -/

theorem resets_updatePolicyToDefaults (domain policy : String) (deviceIndex : DeviceIndex) :
    Adds (updatePolicyToDefaults domain policy deviceIndex) False True :=
  ((Adds.write _).comp (Adds.write _)).congr (by simp) (by simp)

theorem adds_patchLimitException (domain policy limitException : String) :
    Adds (patchLimitException domain policy limitException)
      (limitExceptionToInt limitException = none) (limitExceptionToInt limitException).isSome := by
  unfold patchLimitException
  cases hvalue : limitExceptionToInt limitException with
  | none => exact (Adds.message _).congr (by simp) (by simp)
  | some value => exact (Adds.write _).congr (by simp) (by simp)

theorem adds_patchPowerLimitStorage (domain policy storage : String) :
    Adds (patchPowerLimitStorage domain policy storage)
      (powerLimitStorageToInt storage = none) (powerLimitStorageToInt storage).isSome := by
  unfold patchPowerLimitStorage
  cases hvalue : powerLimitStorageToInt storage with
  | none => exact (Adds.message _).congr (by simp) (by simp)
  | some value => exact (Adds.write _).congr (by simp) (by simp)

section Functions

variable (u : JsonUtil) (domain policy : String)

/-- The limits of a "PowerLimit" that could be read. -/
def patchLimits (l : PowerLimit) (s : Exchange) : Exchange :=
  let s := ifSome l.limitInWatts (fun limit s => s.write (.setLimit domain policy limit)) s
  let s := ifSome l.limitException (patchLimitException domain policy) s
  ifSome l.correctionInMs (fun ms s => s.write (.setCorrectionInMs domain policy ms)) s

theorem adds_patchLimits (l : PowerLimit) :
    Adds (patchLimits domain policy l)
      (∃ limitException ∈ l.limitException, limitExceptionToInt limitException = none)
      (l.limitInWatts.isSome ∨ l.correctionInMs.isSome ∨
        ∃ limitException ∈ l.limitException, (limitExceptionToInt limitException).isSome) := by
  have hwatts : Adds (ifSome l.limitInWatts fun limit s => s.write (.setLimit domain policy limit))
      _ _ := Adds.ifSome fun limit => Adds.write (.setLimit domain policy limit)
  have hexception : Adds (ifSome l.limitException (patchLimitException domain policy)) _ _ :=
    Adds.ifSome (adds_patchLimitException domain policy)
  have hcorrection : Adds (ifSome l.correctionInMs fun ms s =>
      s.write (.setCorrectionInMs domain policy ms)) _ _ :=
    Adds.ifSome fun ms => Adds.write (.setCorrectionInMs domain policy ms)
  refine ((hwatts.comp hexception).comp hcorrection).congr (by simp) ?_
  simp only [Option.mem_def, and_true, ← Option.isSome_iff_exists]
  rw [or_assoc, or_congr_right or_comm]

theorem patchPowerPowerControlPowerLimit_eq (deviceIndex : DeviceIndex) (json : Json) :
    patchPowerPowerControlPowerLimit u domain policy deviceIndex json = fun s =>
      continueWith (fun rest => patchRead (u.readPowerLimit rest) (patchLimits domain policy))
        (resetNulls (updatePolicyToDefaults domain policy deviceIndex) powerLimitKeys s json) := by
  funext s
  unfold patchPowerPowerControlPowerLimit
  split
  case h_1 h => rw [h]; rfl
  case h_2 s' rest h =>
    rw [h]
    simp only [continueWith, ifSome, patchRead]
    cases u.readPowerLimit rest <;> rfl

theorem patchPowerPowerControlOemOpenBmc_eq (json : Json) :
    patchPowerPowerControlOemOpenBmc u domain policy json = fun s =>
      continueWith (fun rest => patchRead (u.readPowerLimitStorage rest) fun storage =>
        ifSome storage (patchPowerLimitStorage domain policy))
        (resetNulls id ["PowerLimitStorage"] s json) := by
  funext s
  unfold patchPowerPowerControlOemOpenBmc
  split
  case h_1 h => rw [h]; rfl
  case h_2 s' rest h =>
    rw [h]
    simp only [continueWith, ifSome, patchRead]
    cases u.readPowerLimitStorage rest <;> rfl

theorem patchPowerPowerControlOem_eq (json : Json) :
    patchPowerPowerControlOem u domain policy json = fun s =>
      continueWith (fun rest => patchRead (u.readOpenBmc rest) fun openBmc =>
        ifSome openBmc (patchPowerPowerControlOemOpenBmc u domain policy))
        (resetNulls id ["OpenBmc"] s json) := by
  funext s
  unfold patchPowerPowerControlOem
  split
  case h_1 h => rw [h]; rfl
  case h_2 s' rest h =>
    rw [h]
    simp only [continueWith, ifSome, patchRead]
    cases u.readOpenBmc rest <;> rfl

theorem adds_patchPowerPowerControlPowerLimit (deviceIndex : DeviceIndex) (json : Json) :
    Adds (patchPowerPowerControlPowerLimit u domain policy deviceIndex json)
      (PowerLimitFaulty u json) (PowerLimitWrites u json) := by
  rw [patchPowerPowerControlPowerLimit_eq]
  apply Adds.congr (Adds.resetNulls (resets_updatePolicyToDefaults domain policy deviceIndex)
    fun rest => Adds.patchRead (adds_patchLimits domain policy))
  · exact Iff.rfl
  · rw [true_and]
    exact Iff.rfl

theorem adds_patchPowerPowerControlOemOpenBmc (json : Json) :
    Adds (patchPowerPowerControlOemOpenBmc u domain policy json) (OpenBmcFaulty u json)
      (OpenBmcWrites u json) := by
  rw [patchPowerPowerControlOemOpenBmc_eq]
  apply Adds.congr (Adds.resetNulls Adds.nothing fun rest => Adds.patchRead fun storage =>
    Adds.ifSome (adds_patchPowerLimitStorage domain policy))
  · simp [OpenBmcFaulty]
  · simp [OpenBmcWrites]

theorem adds_patchPowerPowerControlOem (json : Json) :
    Adds (patchPowerPowerControlOem u domain policy json) (OemFaulty u json) (OemWrites u json) := by
  rw [patchPowerPowerControlOem_eq]
  apply Adds.congr (Adds.resetNulls Adds.nothing fun rest => Adds.patchRead fun openBmc =>
    Adds.ifSome (adds_patchPowerPowerControlOemOpenBmc u domain policy))
  · simp [OemFaulty]
  · simp [OemWrites]

end Functions

section Requests

variable (u : JsonUtil)

theorem adds_patchMember (entry : DomainPolicy) (oem powerLimit : Option Json) :
    Adds (patchMember u entry oem powerLimit) (MemberFaulty u oem powerLimit)
      (MemberWrites u oem powerLimit) := by
  have hoem : ∀ value, Adds (ifSome value (patchPowerPowerControlOem u entry.domain entry.policy))
      (∃ json ∈ value, OemFaulty u json) (∃ json ∈ value, OemWrites u json) :=
    fun value => Adds.ifSome (adds_patchPowerPowerControlOem u entry.domain entry.policy)
  have hlimit : Adds (ifSome powerLimit
      (patchPowerPowerControlPowerLimit u entry.domain entry.policy entry.index)) _ _ :=
    Adds.ifSome (adds_patchPowerPowerControlPowerLimit u entry.domain entry.policy entry.index)
  apply Adds.congr (((hoem oem).comp hlimit).comp (hoem (oem.map (oemLeft u))))
  · unfold MemberFaulty
    cases oem with
    | none => simp
    | some json => simp [or_right_comm]
  · unfold MemberWrites
    cases oem with
    | none => simp
    | some json => simp [or_right_comm]

/-- What the loop over the array adds, unless it throws. -/
theorem adds_patchMembers (list : List DomainPolicy) (collections : List Json) (s : Exchange) :
    (patchMembers u list collections s = none ↔ MembersThrow u list collections) ∧
    ∀ s', patchMembers u list collections s = some s' →
      (s'.messages = [] ↔ s.messages = [] ∧ ¬ MembersFaulty u list collections) ∧
      (s'.writes = [] ↔ s.writes = [] ∧ ¬ MembersWrite u list collections) := by
  induction collections generalizing list s with
  | nil => simp [patchMembers, MembersThrow, MembersFaulty, MembersWrite]
  | cons collection collections ih =>
    cases list with
    | nil => simp [patchMembers, MembersThrow]
    | cons entry list =>
      cases hread : u.readMember collection with
      | none =>
        simp [patchMembers, MembersThrow, MembersFaulty, MembersWrite, hread, Exchange.message]
      | some members =>
        obtain ⟨oem, powerLimit⟩ := members
        obtain ⟨hthrow, hadds⟩ := ih list (patchMember u entry oem powerLimit s)
        obtain ⟨hm, hw⟩ := adds_patchMember u entry oem powerLimit s
        simp only [patchMembers, MembersThrow, MembersFaulty, MembersWrite, hread, hthrow,
          Option.isSome_some, true_and, not_or]
        intro s' hs'
        obtain ⟨hm', hw'⟩ := hadds s' hs'
        rw [hm', hw', hm, hw, and_assoc, and_assoc]
        exact ⟨Iff.rfl, Iff.rfl⟩

/-- The handling of one member of the list. -/
theorem adds_member (entry : DomainPolicy) (oem powerLimit : Option Json) :
    Adds (fun s => ifSome oem (patchPowerPowerControlOem u entry.domain entry.policy)
        (ifSome powerLimit
          (patchPowerPowerControlPowerLimit u entry.domain entry.policy entry.index) s))
      (BodyFaulty u oem powerLimit) (BodyWrites u oem powerLimit) :=
  ((Adds.ifSome (adds_patchPowerPowerControlPowerLimit u entry.domain entry.policy entry.index)).comp
    (Adds.ifSome (adds_patchPowerPowerControlOem u entry.domain entry.policy))).congr or_comm or_comm

end Requests

/-! ### Replies -/

/-- A reply leads to a write only after a write. -/
theorem Exchange.reply_writes (s : Exchange) (a : Exchange.Reply) (h : s.writes = []) :
    (s.reply a).writes = [] := by
  unfold Exchange.reply
  rw [h]
  exact h

theorem run_reply_writes (s : Exchange) :
    (∀ replies, (run Exchange.reply s replies).writes = []) ↔ s.writes = [] := by
  constructor
  · intro h
    exact h []
  · intro h replies
    exact run_invariant Exchange.reply_writes h replies

theorem Patch.atomic_iff (u : JsonUtil) (a : Answers) (patch : Patch) :
    patch.Atomic u a ↔ ∀ s, patch.handle u a = some s → s.messages = [] ∨ s.writes = [] := by
  unfold Patch.Atomic
  refine forall_congr' fun s => imp_congr_right fun _ => ?_
  rw [run_reply_writes, or_iff_not_imp_left]

/-! ### When a PATCH is atomic -/

theorem collection_iff (u : JsonUtil) (a : Answers) (body : String) :
    (∀ s, setPowerCapOverride u a body = some s → s.messages = [] ∨ s.writes = []) ↔
      (Patch.collection body).Clean u a := by
  unfold Patch.Clean setPowerCapOverride
  by_cases hmapper : a.mapper = true
  swap
  · simp [hmapper, Exchange.start, Exchange.message]
  simp only [hmapper, not_true, if_false, true_imp_iff]
  cases hread : u.readCollectionAction body with
  | none => simp [Exchange.start, Exchange.message]
  | some collections? =>
    cases collections? with
    | none => simp [Exchange.start]
    | some collections =>
      simp only [Option.some_inj, forall_eq']
      by_cases hpath : a.chassisPath = true
      swap
      · simp [hpath, Exchange.start, Exchange.message]
      simp only [hpath, not_true, if_false, true_imp_iff]
      cases hlist : a.list with
      | none => cases collections <;> simp [Exchange.start]
      | some list =>
        simp only [Option.mem_some_iff, forall_eq']
        obtain ⟨hthrow, hadds⟩ := adds_patchMembers u list collections .start
        rw [← hthrow, show (if collections.isEmpty = true then some Exchange.start
          else patchMembers u list collections .start) = patchMembers u list collections .start by
            cases collections <;> simp [patchMembers]]
        cases hpatch : patchMembers u list collections .start with
        | none => simp
        | some s =>
          obtain ⟨hm, hw⟩ := hadds s hpatch
          simp [hm, hw, Exchange.start]

theorem member_iff (u : JsonUtil) (a : Answers) (name body : String) :
    ((patchNmDmtfComponentByMemberId u a name body).messages = [] ∨
        (patchNmDmtfComponentByMemberId u a name body).writes = []) ↔
      (Patch.member name body).Clean u a := by
  unfold Patch.Clean patchNmDmtfComponentByMemberId
  cases a.list with
  | none => simp [Exchange.start]
  | some list =>
    simp only [Option.mem_some_iff, forall_eq']
    cases hread : u.readMemberAction body with
    | none => simp [Exchange.start, Exchange.message]
    | some members =>
      obtain ⟨oem, powerLimit⟩ := members
      cases hfind : findMember list name with
      | none => simp [Exchange.start, Exchange.message]
      | some entry =>
        obtain ⟨hm, hw⟩ := adds_member u entry oem powerLimit .start
        dsimp only at hm hw
        rw [hm, hw]
        simp [Exchange.start]

/-- A PATCH that reports an error writes nothing exactly if no part of the body that is handled is
at fault, or none asks for a write, or the handler throws. -/
theorem Patch.atomic_iff_clean (u : JsonUtil) (a : Answers) (patch : Patch) :
    patch.Atomic u a ↔ patch.Clean u a := by
  rw [Patch.atomic_iff]
  cases patch with
  | collection body => exact collection_iff u a body
  | member name body =>
    rw [← member_iff]
    simp [Patch.handle]

/-- The readers on the body {"PowerLimit": {"LimitInWatts": 100, "LimitException": "Bad"}}. -/
def badExceptionUtil : JsonUtil where
  readPowerLimit := fun _ => some ⟨some 100, some "Bad", none⟩
  readPowerLimitStorage := fun _ => some none
  readOpenBmc := fun _ => some none
  leftOpenBmc := id
  readMember := fun json => some (none, json.member? "PowerLimit")
  readMemberAction := fun _ =>
    some (none, some (.object [("LimitInWatts", .scalar "100"), ("LimitException", .scalar "Bad")]))
  readCollectionAction := fun _ => some none

/-- The limit of the first power control is set before its exception action is rejected. -/
theorem Patch.not_atomic :
    ¬ ∀ (u : JsonUtil) (a : Answers) (patch : Patch), patch.Atomic u a := by
  intro h
  have hwrites := h badExceptionUtil ⟨"chassis", true, true, some ([], [], [])⟩ (.member "0" "") _ rfl
    (by decide) []
  revert hwrites
  decide

end MetaCommon.NodeManager
