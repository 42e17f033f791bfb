import MetaCommon.SlotIpmb.Request

/-!
# What the tries of a slot request come to

Every try ends in the block after its `do` loop, so the first one is the only one and the call
answers an error, whether or not the command has been sent.
-/

namespace MetaCommon.SlotIpmb

open Statements

variable {ρ : Type} (c : Config) (w : World ρ) (request : IpmbRequest) (buffer : I2cBuffer)
  (pcieSlot : UInt8)

/-! ### The `do` loop -/

@[simp] theorem transferAndHoldMux_table (s : CallState) (ok : Bool) :
    (s.transferAndHoldMux buffer ok).2.table = s.table := by
  unfold CallState.transferAndHoldMux
  split_ifs <;> rfl

@[simp] theorem sendLoop_table (i cnt n : ℕ) (s : CallState) :
    (sendLoop w buffer i cnt n s).table = s.table := by
  induction n generalizing cnt s with
  | zero => rfl
  | succ n ih =>
    unfold sendLoop
    dsimp only
    split_ifs
    · exact transferAndHoldMux_table buffer s _
    · rw [ih, transferAndHoldMux_table]

/-- The response is waited for once if a transfer succeeds, else not at all. -/
theorem sendLoop_awaited (i cnt n : ℕ) (s : CallState) :
    (sendLoop w buffer i cnt n s).awaited =
      if s.mux.fdOpen ∧ ∃ j < n, w.transfers i (cnt + j) then s.awaited ++ [s.table]
      else s.awaited := by
  induction n generalizing cnt s with
  | zero => simp [sendLoop]
  | succ n ih =>
    have hex : (∃ j < n + 1, w.transfers i (cnt + j)) ↔
        w.transfers i cnt ∨ ∃ j < n, w.transfers i (cnt + 1 + j) := by
      rw [Nat.exists_lt_succ_left]
      simp only [Nat.add_zero, Nat.add_assoc, Nat.add_comm 1]
    unfold sendLoop
    simp only [hex]
    cases hfd : s.mux.fdOpen with
    | false => simp [CallState.transferAndHoldMux, hfd, ih]
    | true =>
      cases hok : w.transfers i cnt with
      | false => simp [CallState.transferAndHoldMux, hfd, ih]
      | true => simp [CallState.transferAndHoldMux, hfd]

/-! ### The tries -/

theorem slotTry_returns (i : ℕ) (s : CallState) :
    slotTry c w request buffer i s =
      ((sendLoop w buffer i 0 c.sendRounds s).makeRequestInvalid request,
        some (.status .error)) := by
  unfold slotTry
  rw [Stmt.effect_andThen, Stmt.effect_andThen]
  exact Stmt.andThen_of_returns _ rfl

theorem slotTries_run (s : CallState) :
    ((Stmt.forLoop (slotTry c w request buffer) 0 ipmbNumberOfTries).andThen
        (Stmt.effect (·.makeRequestInvalid request))).run (.status .timeout) s =
      ((sendLoop w buffer 0 0 c.sendRounds s).makeRequestInvalid request, .status .error) := by
  have hpos : 0 < ipmbNumberOfTries := by decide
  have hfirst := slotTry_returns c w request buffer 0 s
  have hloop := Stmt.forLoop_of_returns (slotTry c w request buffer) hpos hfirst
  exact Stmt.run_of_returns _ (Stmt.andThen_of_returns _ hloop)

/-- The mux is reached and the command laid out: the tries begin. -/
def Reaches : Prop :=
  w.pathExists (slotPath pcieSlot) ∧ w.isSymlink (slotPath pcieSlot) ∧
    w.opens (slotPath pcieSlot) ∧ (c.ipmbToi2cConstruct request).isSome

instance : Decidable (Reaches c w request pcieSlot) :=
  inferInstanceAs (Decidable (_ ∧ _ ∧ _ ∧ _))

/-- In try `i` the driver takes one of the transfers. -/
def Sent (i : ℕ) : Prop :=
  Reaches c w request pcieSlot ∧ ∃ j < c.sendRounds, w.transfers i j

instance (i : ℕ) : Decidable (Sent c w request pcieSlot i) :=
  inferInstanceAs (Decidable (_ ∧ _))

theorem slotRequestAdd_of_reaches (hr : Reaches c w request pcieSlot) (t : Table) :
    ∃ buffer, c.ipmbToi2cConstruct request = some buffer ∧
      slotRequestAdd c w request pcieSlot t =
        (((sendLoop w buffer 0 0 c.sendRounds ⟨t, ⟨true, false⟩, [], []⟩).makeRequestInvalid
          request).destroyMux, .status .error) := by
  obtain ⟨hp, hl, ho, hb⟩ := hr
  obtain ⟨buffer, hb⟩ := Option.isSome_iff_exists.mp hb
  refine ⟨buffer, hb, ?_⟩
  simp [slotRequestAdd, hp, hl, ho, hb, slotTries_run]

theorem slotRequestAdd_of_not_reaches (hr : ¬ Reaches c w request pcieSlot) (t : Table) :
    ∃ opened, slotRequestAdd c w request pcieSlot t =
      (⟨t, ⟨opened, false⟩, [], []⟩, .status .error) := by
  unfold Reaches at hr
  cases hp : w.pathExists (slotPath pcieSlot) with
  | false => exact ⟨false, by simp [slotRequestAdd, hp]⟩
  | true =>
    cases hl : w.isSymlink (slotPath pcieSlot) with
    | false => exact ⟨false, by simp [slotRequestAdd, hl]⟩
    | true =>
      cases ho : w.opens (slotPath pcieSlot) with
      | false =>
        exact ⟨false, by simp [slotRequestAdd, hp, hl, ho, CallState.destroyMux]⟩
      | true =>
        cases hb : c.ipmbToi2cConstruct request with
        | none => exact ⟨true, by simp [slotRequestAdd, hp, hl, ho, hb, CallState.destroyMux]⟩
        | some buffer => exact absurd ⟨hp, hl, ho, by rw [hb]; rfl⟩ hr

theorem slotRequestAdd_result (t : Table) :
    (slotRequestAdd c w request pcieSlot t).2 = .status .error := by
  by_cases hr : Reaches c w request pcieSlot
  · obtain ⟨buffer, -, h⟩ := slotRequestAdd_of_reaches c w request pcieSlot hr t
    rw [h]
  · obtain ⟨opened, h⟩ := slotRequestAdd_of_not_reaches c w request pcieSlot hr t
    rw [h]

/-- The answer of a call is the response of the first try that is sent and answered in time, and it
is a status only if there is no such try. -/
structure AnswersDelivered (result : Result ρ) : Prop where
  response : ∀ i < ipmbNumberOfTries, ∀ r, Sent c w request pcieSlot i → w.reply i = some r →
    (∀ j < i, Sent c w request pcieSlot j → w.reply j = none) → result = .response r
  status : ∀ st, result = .status st →
    ∀ i < ipmbNumberOfTries, ¬ Sent c w request pcieSlot i ∨ w.reply i = none

/-- A call answers what it should exactly if no try is both sent and answered in time. -/
theorem slotRequestAdd_answersDelivered_iff (t : Table) :
    AnswersDelivered c w request pcieSlot (slotRequestAdd c w request pcieSlot t).2 ↔
      ∀ i < ipmbNumberOfTries, Sent c w request pcieSlot i → w.reply i = none := by
  have hresult := slotRequestAdd_result c w request pcieSlot t
  constructor
  · intro h i hi hsent
    rcases h.status _ hresult i hi with hnot | hnone
    · exact absurd hsent hnot
    · exact hnone
  · intro h
    refine ⟨fun i hi r hsent hr _ => ?_, fun st _ i hi => ?_⟩
    · rw [h i hi hsent] at hr
      cases hr
    · by_cases hsent : Sent c w request pcieSlot i
      · exact .inr (h i hi hsent)
      · exact .inl hsent

/-- A request as the card sees it: the address, the rest of the header and the data, each part with
its checksum. -/
def layOut (request : IpmbRequest) : I2cBuffer :=
  let netFnLun := request.netFn <<< 2 ||| request.rsLun
  let body := request.rqSA :: (UInt8.ofNat request.seq.val <<< 2 ||| request.rqLun) ::
    request.cmd :: request.data
  { length := UInt8.ofNat (body.length + 4)
    targetAddr := request.address
    payload := netFnLun :: (0 - (request.address + netFnLun)) :: body ++ [0 - body.foldl (· + ·) 0] }

def firstFree (t : Table) : Option SeqNum :=
  (List.finRange ipmbMaxOutstandingRequestsCount).find? fun seq => (t seq).isNone

theorem firstFree_free (t : Table) : ∀ seq ∈ firstFree t, t seq = none := fun _ h =>
  Option.isNone_iff_eq_none.mp (List.find?_some (p := fun seq => (t seq).isNone) h)

theorem firstFree_full (t : Table) (h : firstFree t = none) (seq : SeqNum) : t seq ≠ none := by
  have hno := List.find?_eq_none.mp h seq (List.mem_finRange seq)
  rwa [Option.isNone_iff_eq_none] at hno

/-- A daemon that retries twice and takes the first free sequence number. -/
def twoRetries : Config where
  ipmbI2cNumberOfRetries := 2
  ipmbRsLun := 0
  bmcSlaveAddress := 18
  ipmbToi2cConstruct request := some (layOut request)
  seqNumGet _ := firstFree
  seqNumGet_free _ := firstFree_free
  seqNumGet_full _ := firstFree_full

/-- All works, and the response to every try comes in time. -/
def promptCard : World ℕ where
  channel := true
  timer := true
  pathExists _ := true
  isSymlink _ := true
  opens _ := true
  transfers _ _ := true
  waitFails _ := false
  reply _ := some 0
  meanwhile _ := id

/-- "Get Device ID", for the card in slot 1. -/
def getDeviceId : SlotCall := ⟨1, 176, 6, 1, []⟩

def getDeviceIdRequest : IpmbRequest := slotRequest twoRetries getDeviceId ⟨0, by decide⟩

/-- The command to the card in slot 1 is sent and answered, and the call answers an error. -/
theorem not_answersDelivered : ¬ AnswersDelivered twoRetries promptCard getDeviceIdRequest 1
    (slotRequestAdd twoRetries promptCard getDeviceIdRequest 1 fun _ => none).2 := by
  intro h
  have hresponse := h.response 0 (by decide) 0 (by decide +kernel) rfl (fun j hj => nomatch hj)
  rw [slotRequestAdd_result] at hresponse
  cases hresponse

end MetaCommon.SlotIpmb
