import MetaCommon.Lib.Runs
import MetaCommon.SlotIpmb.Retries

/-!
# Slot requests and the table of outstanding requests

The slot requests share the table with the ordinary ones. A call of `slotIpmbHandleRequest` leaves
the table as it is, so failing calls use none of it up; but no call enters its request, so there is
none in the table while a command that has been sent waits for its response.
-/

namespace MetaCommon.SlotIpmb

open Runs

inductive Event (ρ : Type)
  | slotIpmbRequest (w : World ρ) (a : SlotCall) (last : ℕ)
  | sendRequest (last : ℕ)
  | finished (seq : SeqNum)

/-- The table, the ordinary requests in flight and the number that the next request gets. -/
structure Channel where
  table : Table
  live : List (SeqNum × ℕ)
  nextId : ℕ

variable {ρ : Type} (c : Config)

namespace Channel

def init : Channel := ⟨fun _ => none, [], 0⟩

/-- `makeRequestValid` for an ordinary request. -/
def makeRequestValid (s : Channel) (seq : SeqNum) : Channel where
  table := Function.update s.table seq (some s.nextId)
  live := (seq, s.nextId) :: s.live
  nextId := s.nextId + 1

/-- `makeRequestInvalid` for an ordinary request. -/
def makeRequestInvalid (s : Channel) (seq : SeqNum) : Channel :=
  { s with
    table := Function.update s.table seq none
    live := s.live.filter fun q => q.1 ≠ seq }

/-- A slot request does not wait, so its whole call is one step. -/
def step (s : Channel) : Event ρ → Channel
  | .slotIpmbRequest w a last => { s with
      table := (slotIpmbHandleRequest c w a last s.table).1.table
      nextId := s.nextId + 1 }
  | .sendRequest last =>
    match c.seqNumGet last s.table with
    | none => s
    | some seq => s.makeRequestValid seq
  | .finished seq => if ∃ q ∈ s.live, q.1 = seq then s.makeRequestInvalid seq else s

/-- The table has the ordinary requests in flight and no others. -/
def Wf (s : Channel) : Prop := ∀ seq id, s.table seq = some id ↔ (seq, id) ∈ s.live

theorem wf_init : init.Wf := by simp [Wf, init]

end Channel

/-! ### What a call does to the table -/

variable (w : World ρ) (a : SlotCall) (last : ℕ)

@[simp] theorem destroyMux_table (s : CallState) : s.destroyMux.table = s.table := by
  unfold CallState.destroyMux
  split_ifs <;> rfl

@[simp] theorem destroyMux_awaited (s : CallState) : s.destroyMux.awaited = s.awaited := by
  unfold CallState.destroyMux
  split_ifs <;> rfl

theorem slotRequestAdd_table (request : IpmbRequest) (pcieSlot : UInt8) {t : Table}
    (hfree : t request.seq = none) : (slotRequestAdd c w request pcieSlot t).1.table = t := by
  by_cases hr : Reaches c w request pcieSlot
  · obtain ⟨buffer, -, h⟩ := slotRequestAdd_of_reaches c w request pcieSlot hr t
    rw [h, destroyMux_table]
    simp [CallState.makeRequestInvalid, ← hfree]
  · obtain ⟨opened, h⟩ := slotRequestAdd_of_not_reaches c w request pcieSlot hr t
    rw [h]

theorem slotRequestAdd_awaited (request : IpmbRequest) (pcieSlot : UInt8) (t : Table) :
    (slotRequestAdd c w request pcieSlot t).1.awaited =
      if Sent c w request pcieSlot 0 then [t] else [] := by
  by_cases hr : Reaches c w request pcieSlot
  · have hsent : Sent c w request pcieSlot 0 ↔ ∃ j < c.sendRounds, w.transfers 0 j :=
      and_iff_right hr
    obtain ⟨buffer, -, h⟩ := slotRequestAdd_of_reaches c w request pcieSlot hr t
    rw [h, destroyMux_awaited]
    simp [CallState.makeRequestInvalid, sendLoop_awaited, hsent]
  · have hnot : ¬ Sent c w request pcieSlot 0 := fun hsent => hr hsent.1
    obtain ⟨opened, h⟩ := slotRequestAdd_of_not_reaches c w request pcieSlot hr t
    rw [h, if_neg hnot]

/-- The call gets its command onto the bus. -/
def Sends (t : Table) : Prop :=
  w.channel ∧ w.timer ∧
    ∃ seq ∈ c.seqNumGet last t, Sent c w (slotRequest c a seq) a.slotNumber 0

instance (t : Table) : Decidable (Sends c w a last t) :=
  inferInstanceAs (Decidable (_ ∧ _ ∧ ∃ seq ∈ c.seqNumGet last t, _))

/-- What a call of the method can do: turn the request away, or make the tries with the sequence
number it has got. -/
theorem slotIpmbHandleRequest_cases (t : Table) :
    (¬ Sends c w a last t ∧ ∃ st, (st = .busy → c.seqNumGet last t = none) ∧
      slotIpmbHandleRequest c w a last t = (⟨t, ⟨false, false⟩, [], []⟩, .status st)) ∨
    (∃ seq, c.seqNumGet last t = some seq ∧
      (Sends c w a last t ↔ Sent c w (slotRequest c a seq) a.slotNumber 0) ∧
      slotIpmbHandleRequest c w a last t =
        slotRequestAdd c w (slotRequest c a seq) a.slotNumber t) := by
  cases hchannel : w.channel with
  | false => exact .inl ⟨by simp [Sends, hchannel], .error, nofun,
      by simp [slotIpmbHandleRequest, hchannel]⟩
  | true =>
    cases hseq : c.seqNumGet last t with
    | none => exact .inl ⟨by simp [Sends, hseq], .busy, fun _ => rfl,
        by simp [slotIpmbHandleRequest, hchannel, hseq]⟩
    | some seq =>
      cases htimer : w.timer with
      | false => exact .inl ⟨by simp [Sends, htimer], .error, nofun,
          by simp [slotIpmbHandleRequest, hchannel, hseq, htimer]⟩
      | true => exact .inr ⟨seq, rfl, by simp [Sends, hchannel, htimer, hseq],
          by simp [slotIpmbHandleRequest, hchannel, hseq, htimer]⟩

theorem slotIpmbHandleRequest_table (t : Table) :
    (slotIpmbHandleRequest c w a last t).1.table = t := by
  obtain ⟨-, st, -, h⟩ | ⟨seq, hseq, -, h⟩ := slotIpmbHandleRequest_cases c w a last t
  · rw [h]
  · rw [h]
    exact slotRequestAdd_table c w _ _ (c.seqNumGet_free last t seq hseq)

theorem slotIpmbHandleRequest_busy {t : Table}
    (hbusy : (slotIpmbHandleRequest c w a last t).2 = .status .busy) :
    c.seqNumGet last t = none := by
  obtain ⟨-, st, hst, h⟩ | ⟨seq, -, -, h⟩ := slotIpmbHandleRequest_cases c w a last t
  · rw [h] at hbusy
    exact hst (Result.status.inj hbusy)
  · rw [h, slotRequestAdd_result] at hbusy
    cases hbusy

theorem slotIpmbHandleRequest_awaited (t : Table) :
    (slotIpmbHandleRequest c w a last t).1.awaited =
      if Sends c w a last t then [t] else [] := by
  obtain ⟨hno, st, -, h⟩ | ⟨seq, -, hsends, h⟩ := slotIpmbHandleRequest_cases c w a last t
  · rw [h, if_neg hno]
  · simp only [h, slotRequestAdd_awaited, hsends]

/-! ### Runs -/

theorem Channel.Wf.step {s : Channel} (h : s.Wf) (e : Event ρ) : (s.step c e).Wf := by
  cases e with
  | slotIpmbRequest w a last =>
    intro seq id
    simp only [Channel.step, slotIpmbHandleRequest_table]
    exact h seq id
  | sendRequest last =>
    unfold Channel.step
    dsimp only
    split
    · exact h
    · next seq hseq =>
      intro k id
      have hfree := c.seqNumGet_free last s.table seq hseq
      have hnot : ∀ id, (seq, id) ∉ s.live := fun id hmem => by
        rw [(h seq id).mpr hmem] at hfree
        cases hfree
      by_cases hk : k = seq
      · subst hk
        simp [Channel.makeRequestValid, hnot, eq_comm]
      · simp [Channel.makeRequestValid, hk, h k id]
  | finished seq =>
    unfold Channel.step
    dsimp only
    split_ifs
    · intro k id
      by_cases hk : k = seq
      · subst hk
        simp [Channel.makeRequestInvalid]
      · simp [Channel.makeRequestInvalid, hk, h k id]
    · exact h

/-- What is asked of a slot request that finds the channel in state `s`: as long as its response is
waited for it is in the table, under a sequence number that no other request in flight has; it
leaves its own slot free and the others as they were; and it is turned away only if ordinary
requests in flight have all the slots. -/
structure SlotSound (s : Channel) (w : World ρ) (a : SlotCall) (last : ℕ) : Prop where
  registered : ∀ seq ∈ c.seqNumGet last s.table,
    ∀ t ∈ (slotIpmbHandleRequest c w a last s.table).1.awaited,
      t seq = some s.nextId ∧ ∀ q ∈ s.live, q.1 ≠ seq
  freed : ∀ k, (slotIpmbHandleRequest c w a last s.table).1.table k =
    if c.seqNumGet last s.table = some k then none else s.table k
  busy : (slotIpmbHandleRequest c w a last s.table).2 = .status .busy →
    ∀ k, ∃ q ∈ s.live, q.1 = k

def EventSound (s : Channel) : Event ρ → Prop
  | .slotIpmbRequest w a last => SlotSound c s w a last
  | .sendRequest _ => True
  | .finished _ => True

/-- The event is a slot request that gets its command onto the bus. -/
def EventSends (s : Channel) : Event ρ → Prop
  | .slotIpmbRequest w a last => Sends c w a last s.table
  | .sendRequest _ => False
  | .finished _ => False

theorem slotSound_iff {s : Channel} (hs : s.Wf) :
    SlotSound c s w a last ↔ ¬ Sends c w a last s.table := by
  constructor
  · intro h hsends
    obtain ⟨seq, hseq, -⟩ := hsends.2.2
    have hawaited : s.table ∈ (slotIpmbHandleRequest c w a last s.table).1.awaited := by
      rw [slotIpmbHandleRequest_awaited, if_pos hsends]
      exact List.mem_singleton_self _
    have hreg := (h.registered seq hseq _ hawaited).1
    rw [c.seqNumGet_free last s.table seq hseq] at hreg
    cases hreg
  · intro hno
    refine ⟨fun seq _ t ht => ?_, fun k => ?_, fun hbusy k => ?_⟩
    · rw [slotIpmbHandleRequest_awaited, if_neg hno] at ht
      cases ht
    · rw [slotIpmbHandleRequest_table]
      split_ifs with hseq
      · exact c.seqNumGet_free last s.table k hseq
      · rfl
    · have hnone := slotIpmbHandleRequest_busy c w a last hbusy
      have htaken := c.seqNumGet_full last s.table hnone k
      obtain ⟨id, hid⟩ := Option.ne_none_iff_exists'.mp htaken
      exact ⟨(k, id), (hs k id).mp hid, rfl⟩

theorem eventSound_iff {s : Channel} (hs : s.Wf) (e : Event ρ) :
    EventSound c s e ↔ ¬ EventSends c s e := by
  cases e with
  | slotIpmbRequest w a last => exact slotSound_iff c w a last hs
  | sendRequest last => exact ⟨fun _ h => h, fun _ => trivial⟩
  | finished seq => exact ⟨fun _ h => h, fun _ => trivial⟩

/-- The slot requests of a run are all treated as they should exactly if none gets its command onto
the bus. -/
theorem run_slotSound_iff (es : List (Event ρ)) :
    Guarded (Channel.step c) (EventSound c) Channel.init es ↔
      Guarded (Channel.step c) (fun s e => ¬ EventSends c s e) Channel.init es :=
  guarded_congr (fun _ e hs _ => Channel.Wf.step c hs e) (fun _ e hs => eventSound_iff c hs e)
    Channel.wf_init

/-- The command to the card in slot 1 is sent while its request is in no slot of the table. -/
theorem not_run_slotSound : ¬ Guarded (Channel.step twoRetries) (EventSound twoRetries)
    Channel.init [.slotIpmbRequest promptCard getDeviceId 0] := by
  rintro ⟨h, -⟩
  have hsends : Sends twoRetries promptCard getDeviceId 0 Channel.init.table := by decide +kernel
  exact (slotSound_iff twoRetries promptCard getDeviceId 0 Channel.wf_init).mp h hsends

end MetaCommon.SlotIpmb
