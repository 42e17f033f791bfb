import Mathlib.Tactic.Linarith
import MetaCommon.Lib.Runs
import MetaCommon.Lib.Shared

/-!
# Waiting for the completion of a virtual media action

A mount or an eject is answered twice on D-Bus: by the reply to the method call and by a later
`Completion` signal. The response to the client is sent when nobody holds it any more. It is held by
the handler of the reply and by the matcher of the signal, and the matcher belongs to a wrapper that
its own handler holds, so somebody has to remove it: the reply, the handler that the signal posts, or
the timer.
-/

namespace MetaCommon.VirtualMedia

inductive Message where
  | success
  | accessDenied (url : String)
  | resourceInUse
  | operationFailed
  | internalError
  deriving DecidableEq, Repr

inductive Errc where
  | deviceOrResourceBusy
  | permissionDenied
  | other
  deriving DecidableEq, Repr

inductive Reply where
  | failed (ec : Errc)
  | answered (success : Bool)
  deriving DecidableEq, Repr

/-- The method call that an action makes. -/
structure Call where
  name : String
  action : String
  objectPath : String
  interface : String
  method : String
  deriving DecidableEq, Repr

def getModeName (isLegacy : Bool) : String := if isLegacy then "Legacy" else "Proxy"

def doMountVmLegacy (name : String) : Call where
  name := name
  action := "VirtualMedia.InsertMedia"
  objectPath := "/xyz/openbmc_project/VirtualMedia/Legacy/" ++ name
  interface := "xyz.openbmc_project.VirtualMedia.Legacy"
  method := "Mount"

def doEjectAction (name : String) (legacy : Bool) : Call where
  name := name
  action := "VirtualMedia.Eject"
  objectPath := "/xyz/openbmc_project/VirtualMedia/" ++ getModeName legacy ++ "/" ++ name
  interface := "xyz.openbmc_project.VirtualMedia." ++ getModeName legacy
  method := "Unmount"

def EPERM : ℤ := 1
def EBUSY : ℤ := 16

/-- What the handler of the signal adds to the response; a signal that cannot be read adds nothing. -/
def signalMessages (call : Call) : Option ℤ → List Message
  | none => []
  | some errorCode =>
    if errorCode = 0 then [.success]
    else if errorCode = EPERM then [.accessDenied call.action]
    else if errorCode = EBUSY then [.resourceInUse]
    else [.operationFailed]

def replyMessages (call : Call) : Reply → List Message
  | .failed .deviceOrResourceBusy => [.resourceInUse]
  | .failed .permissionDenied =>
    [.accessDenied ("/redfish/v1/Managers/bmc/VirtualMedia/" ++ call.name ++ "/Actions/" ++
      call.action)]
  | .failed .other => [.internalError]
  | .answered false => [.operationFailed]
  | .answered true => []

inductive Timer where
  | waiting
  | cancelled
  | done
  deriving DecidableEq, Repr

/-- The callbacks that are still to come, and the two objects they hold. -/
structure Listener where
  resp : Shared (List Message)
  wrapper : Shared Unit
  replyPending : Bool
  matcher : Bool
  timer : Timer
  posted : ℕ

/-- After `doListenForCompletion` and the call of the method: the response is held by the matcher
and the handler of the reply, the wrapper by these two and the timer. -/
def doListenForCompletion : Listener where
  resp := Shared.make 2 []
  wrapper := Shared.make 3 ()
  replyPending := true
  matcher := true
  timer := .waiting
  posted := 0

def Listener.removeMatcher (s : Listener) : Listener :=
  if s.matcher then
    { s with matcher := false, resp := s.resp.release, wrapper := s.wrapper.release }
  else s

/-- `MatchWrapper::stop` -/
def Listener.stop (s : Listener) : Listener :=
  Listener.removeMatcher
    { s with timer := if s.timer = .waiting then .cancelled else s.timer }

inductive Event where
  | reply (r : Reply)
  | signal (errorCode : Option ℤ)
  | posted
  /-- The handler of the timer, which is told whether the time was over. -/
  | timer (expired : Bool)
  deriving DecidableEq, Repr

def onReply (call : Call) (s : Listener) (r : Reply) : Listener :=
  let s := { s with resp := s.resp.modify (· ++ replyMessages call r), replyPending := false }
  let s := if r = .answered true then s else s.stop
  { s with resp := s.resp.release, wrapper := s.wrapper.release }

def onSignal (call : Call) (s : Listener) (errorCode : Option ℤ) : Listener :=
  { s with
    resp := s.resp.modify (· ++ signalMessages call errorCode)
    wrapper := s.wrapper.acquire
    posted := s.posted + 1 }

def onPosted (s : Listener) : Listener :=
  let s := Listener.stop { s with posted := s.posted - 1 }
  { s with wrapper := s.wrapper.release }

def onTimer (s : Listener) (expired : Bool) : Listener :=
  let s := if expired then s.removeMatcher else s
  { s with timer := .done, wrapper := s.wrapper.release }

/-- A callback runs if it is still to come. A timer that was cancelled may have run out just before,
and one that waits has to run out. -/
def step (call : Call) (s : Listener) : Event → Option Listener
  | .reply r => if s.replyPending then some (onReply call s r) else none
  | .signal errorCode => if s.matcher then some (onSignal call s errorCode) else none
  | .posted => if 0 < s.posted then some (onPosted s) else none
  | .timer expired =>
    if s.timer = .cancelled ∨ (s.timer = .waiting ∧ expired = true) then some (onTimer s expired)
    else none

/-! ### What holds between the callbacks -/

/-- Who holds the response and the wrapper: the callbacks that are still to come, and the given
number of further holders, which is one while a callback runs. -/
structure During (s : Listener) (inResp inWrapper : ℕ) : Prop where
  respSound : s.resp.Sound
  wrapperSound : s.wrapper.Sound
  respHolders : s.resp.holders = inResp + s.replyPending.toNat + s.matcher.toNat
  wrapperHolders : s.wrapper.holders = inWrapper +
    s.replyPending.toNat + s.matcher.toNat + (if s.timer = .done then 0 else 1) + s.posted

structure Inv (s : Listener) : Prop extends During s 0 0 where
  matcherWaits : s.matcher = true ↔ s.timer = .waiting

theorem inv_doListenForCompletion : Inv doListenForCompletion where
  respSound := Shared.sound_make (by decide) _
  wrapperSound := Shared.sound_make (by decide) _
  respHolders := rfl
  wrapperHolders := rfl
  matcherWaits := by decide

theorem During.removeMatcher {s : Listener} {m n : ℕ} (h : During s m n) :
    During s.removeMatcher m n := by
  unfold Listener.removeMatcher
  by_cases hm : s.matcher = true
  · have hresp := h.respHolders
    have hwrapper := h.wrapperHolders
    rw [hm, Bool.toNat_true] at hresp hwrapper
    rw [if_pos hm]
    refine ⟨h.respSound.release (by omega), h.wrapperSound.release (by omega), ?_, ?_⟩
    · simp only [Shared.holders_release, Bool.toNat_false]
      omega
    · simp only [Shared.holders_release, Bool.toNat_false]
      omega
  · rw [if_neg hm]
    exact h

theorem During.stop {s : Listener} {m n : ℕ} (h : During s m n) : During s.stop m n := by
  apply During.removeMatcher
  refine ⟨h.respSound, h.wrapperSound, h.respHolders, ?_⟩
  have hwrapper := h.wrapperHolders
  cases ht : s.timer with
  | waiting =>
    rw [ht] at hwrapper
    exact hwrapper
  | cancelled =>
    rw [ht] at hwrapper
    exact hwrapper
  | done =>
    rw [ht] at hwrapper
    exact hwrapper

@[simp] theorem matcher_removeMatcher (s : Listener) : s.removeMatcher.matcher = false := by
  unfold Listener.removeMatcher
  by_cases hm : s.matcher = true
  · rw [if_pos hm]
  · rw [if_neg hm]
    simpa using hm

@[simp] theorem timer_removeMatcher (s : Listener) : s.removeMatcher.timer = s.timer := by
  unfold Listener.removeMatcher
  split_ifs <;> rfl

@[simp] theorem replyPending_removeMatcher (s : Listener) :
    s.removeMatcher.replyPending = s.replyPending := by
  unfold Listener.removeMatcher
  split_ifs <;> rfl

@[simp] theorem posted_removeMatcher (s : Listener) : s.removeMatcher.posted = s.posted := by
  unfold Listener.removeMatcher
  split_ifs <;> rfl

@[simp] theorem messages_removeMatcher (s : Listener) :
    s.removeMatcher.resp.value = s.resp.value := by
  unfold Listener.removeMatcher
  split_ifs <;> rfl

@[simp] theorem matcher_stop (s : Listener) : s.stop.matcher = false := matcher_removeMatcher _

@[simp] theorem replyPending_stop (s : Listener) : s.stop.replyPending = s.replyPending :=
  replyPending_removeMatcher _

@[simp] theorem posted_stop (s : Listener) : s.stop.posted = s.posted := posted_removeMatcher _

@[simp] theorem messages_stop (s : Listener) : s.stop.resp.value = s.resp.value :=
  messages_removeMatcher _

theorem timer_stop_ne_waiting (s : Listener) : s.stop.timer ≠ .waiting := by
  rw [Listener.stop, timer_removeMatcher]
  by_cases hw : s.timer = .waiting
  · simp [hw]
  · simp [hw]

/-! ### One callback -/

variable {call : Call} {s s' : Listener}

theorem During.releaseWrapper {m n : ℕ} (h : During s m (n + 1)) :
    During { s with wrapper := s.wrapper.release } m n := by
  have hw := h.wrapperHolders
  refine ⟨h.respSound, h.wrapperSound.release (by omega), h.respHolders, ?_⟩
  simp only [Shared.holders_release]
  omega

theorem During.releaseResp {m n : ℕ} (h : During s (m + 1) n) :
    During { s with resp := s.resp.release } m n := by
  have hr := h.respHolders
  refine ⟨h.respSound.release (by omega), h.wrapperSound, ?_, h.wrapperHolders⟩
  simp only [Shared.holders_release]
  omega

theorem inv_onReply (h : Inv s) (hp : s.replyPending = true) (r : Reply) :
    Inv (onReply call s r) := by
  have hresp := h.respHolders
  have hwrapper := h.wrapperHolders
  rw [hp, Bool.toNat_true] at hresp hwrapper
  have hstart : During
      { s with resp := s.resp.modify (· ++ replyMessages call r), replyPending := false } 1 1 := by
    refine ⟨h.respSound.modify (by omega) _, h.wrapperSound, ?_, ?_⟩
    · simp only [Shared.holders_modify, Bool.toNat_false]
      omega
    · simp only [Bool.toNat_false]
      omega
  unfold onReply
  by_cases hr : r = .answered true
  · simp only [if_pos hr]
    exact ⟨hstart.releaseResp.releaseWrapper, h.matcherWaits⟩
  · simp only [if_neg hr]
    refine ⟨hstart.stop.releaseResp.releaseWrapper, ?_⟩
    rw [matcher_stop]
    exact iff_of_false (by decide) (timer_stop_ne_waiting _)

theorem inv_onSignal (h : Inv s) (hm : s.matcher = true) (errorCode : Option ℤ) :
    Inv (onSignal call s errorCode) := by
  have hresp := h.respHolders
  have hwrapper := h.wrapperHolders
  rw [hm, Bool.toNat_true] at hresp hwrapper
  refine ⟨⟨h.respSound.modify (by omega) _, h.wrapperSound.acquire (by omega), ?_, ?_⟩,
    h.matcherWaits⟩
  · exact h.respHolders
  · simp only [onSignal, Shared.holders_acquire, hm, Bool.toNat_true]
    omega

theorem inv_onPosted (h : Inv s) (hpos : 0 < s.posted) : Inv (onPosted s) := by
  have hwrapper := h.wrapperHolders
  have hstart : During { s with posted := s.posted - 1 } 0 1 := by
    refine ⟨h.respSound, h.wrapperSound, h.respHolders, ?_⟩
    simp only
    omega
  refine ⟨hstart.stop.releaseWrapper, ?_⟩
  simp only [onPosted, matcher_stop]
  exact iff_of_false (by decide) (timer_stop_ne_waiting _)

theorem inv_onTimer (h : Inv s) {expired : Bool}
    (ht : s.timer = .cancelled ∨ (s.timer = .waiting ∧ expired = true)) :
    Inv (onTimer s expired) := by
  have hne : s.timer ≠ .done := by
    rcases ht with ht | ht
    · rw [ht]
      decide
    · rw [ht.1]
      decide
  have hfinish : ∀ t : Listener, During t 0 0 → t.timer ≠ .done → t.matcher = false →
      Inv { t with timer := .done, wrapper := t.wrapper.release } := by
    intro t h ht hm
    have hw := h.wrapperHolders
    rw [if_neg ht] at hw
    refine ⟨⟨h.respSound, h.wrapperSound.release (by omega), h.respHolders, ?_⟩, ?_⟩
    · simp only [Shared.holders_release, if_true]
      omega
    · simp [hm]
  unfold onTimer
  cases expired with
  | true =>
    simp only [if_true]
    refine hfinish _ h.toDuring.removeMatcher ?_ (matcher_removeMatcher s)
    rwa [timer_removeMatcher]
  | false =>
    have hcancelled : s.timer = .cancelled := ht.resolve_right fun h => absurd h.2 (by decide)
    have hm : s.matcher = false := by
      rw [← Bool.not_eq_true, h.matcherWaits, hcancelled]
      decide
    simp only [Bool.false_eq_true, if_false]
    exact hfinish s h.toDuring hne hm

theorem step_inv {e : Event} (h : Inv s) (hs : step call s e = some s') : Inv s' := by
  cases e with
  | reply r =>
    obtain ⟨hp, heq⟩ := Option.ite_none_right_eq_some.mp hs
    obtain rfl := Option.some.inj heq
    exact inv_onReply h hp r
  | signal errorCode =>
    obtain ⟨hm, heq⟩ := Option.ite_none_right_eq_some.mp hs
    obtain rfl := Option.some.inj heq
    exact inv_onSignal h hm errorCode
  | posted =>
    obtain ⟨hpos, heq⟩ := Option.ite_none_right_eq_some.mp hs
    obtain rfl := Option.some.inj heq
    exact inv_onPosted h hpos
  | timer expired =>
    obtain ⟨ht, heq⟩ := Option.ite_none_right_eq_some.mp hs
    obtain rfl := Option.some.inj heq
    exact inv_onTimer h ht

def messagesOf (call : Call) : Event → List Message
  | .reply r => replyMessages call r
  | .signal errorCode => signalMessages call errorCode
  | .posted => []
  | .timer _ => []

theorem step_messages {e : Event} (hs : step call s e = some s') :
    s'.resp.value = s.resp.value ++ messagesOf call e := by
  cases e with
  | reply r =>
    obtain ⟨-, heq⟩ := Option.ite_none_right_eq_some.mp hs
    obtain rfl := Option.some.inj heq
    unfold onReply
    by_cases hr : r = .answered true
    · simp [hr, messagesOf]
    · simp [hr, messagesOf]
  | signal errorCode =>
    obtain ⟨-, heq⟩ := Option.ite_none_right_eq_some.mp hs
    obtain rfl := Option.some.inj heq
    rfl
  | posted =>
    obtain ⟨-, heq⟩ := Option.ite_none_right_eq_some.mp hs
    obtain rfl := Option.some.inj heq
    simp [onPosted, messagesOf]
  | timer expired =>
    obtain ⟨-, heq⟩ := Option.ite_none_right_eq_some.mp hs
    obtain rfl := Option.some.inj heq
    cases expired <;> simp [onTimer, messagesOf]

/-! ### Whole runs -/

/-- Nothing is to come any more but signals. -/
structure AtRest (s : Listener) : Prop where
  replied : s.replyPending = false
  timerDone : s.timer = .done
  nothingPosted : s.posted = 0

theorem Inv.matcher_of_atRest (h : Inv s) (hrest : AtRest s) : s.matcher = false := by
  rw [← Bool.not_eq_true, h.matcherWaits, hrest.timerDone]
  decide

theorem Inv.wrapper_free_iff (h : Inv s) : s.wrapper.holders = 0 ↔ AtRest s := by
  have hw := h.wrapperHolders
  constructor
  · intro hfree
    have hreply : s.replyPending.toNat = 0 := by omega
    have htimer : (if s.timer = .done then 0 else 1) = 0 := by omega
    refine ⟨by simpa using hreply, ?_, by omega⟩
    by_contra hne
    rw [if_neg hne] at htimer
    exact absurd htimer (by decide)
  · intro hrest
    rw [hw, h.matcher_of_atRest hrest, hrest.replied, hrest.nothingPosted, if_pos hrest.timerDone]
    rfl

theorem Inv.resp_finalized (h : Inv s) :
    s.resp.finalized =
      if s.replyPending = false ∧ s.matcher = false then [s.resp.value] else [] := by
  have hr := h.respHolders
  have hiff : s.resp.holders = 0 ↔ s.replyPending = false ∧ s.matcher = false := by
    rw [hr]
    cases s.replyPending <;> cases s.matcher <;> simp
  rw [h.respSound]
  by_cases hfree : s.resp.holders = 0
  · rw [if_pos hfree, if_pos (hiff.mp hfree)]
  · rw [if_neg hfree, if_neg fun hh => hfree (hiff.mpr hh)]

theorem exec_inv {es : List Event} (h : Runs.exec (step call) doListenForCompletion es = some s) :
    Inv s :=
  Runs.exec_invariant (fun _ _ _ hi hs => step_inv hi hs) inv_doListenForCompletion h

theorem exec_messages {es : List Event}
    (h : Runs.exec (step call) doListenForCompletion es = some s) :
    s.resp.value = es.flatMap (messagesOf call) := by
  apply Runs.exec_history_invariant
    (R := fun es s => s.resp.value = es.flatMap (messagesOf call)) _ rfl h
  intro es s e s' hR hs
  rw [step_messages hs, hR, List.flatMap_append, List.flatMap_singleton]

variable (call) in
/-- The handlers that are posted, one after the other. -/
theorem exists_exec_posted (hrep : s.replyPending = false) (htimer : s.timer = .done) :
    ∃ s', Runs.exec (step call) s (List.replicate s.posted .posted) = some s' ∧ AtRest s' := by
  induction hn : s.posted generalizing s with
  | zero => exact ⟨s, rfl, hrep, htimer, hn⟩
  | succ n ih =>
    have hpos : 0 < s.posted := by omega
    have htimer' : (onPosted s).timer = .done := by
      simp only [onPosted, Listener.stop, timer_removeMatcher, htimer]
      rfl
    have hrep' : (onPosted s).replyPending = false := by simpa [onPosted] using hrep
    have hposted' : (onPosted s).posted = n := by simp [onPosted, hn]
    obtain ⟨s', hexec, hrest⟩ := ih hrep' htimer' hposted'
    refine ⟨s', ?_, hrest⟩
    rw [List.replicate_succ, Runs.exec_cons, step, if_pos hpos, Option.bind_some]
    exact hexec

variable (call) in
theorem exists_exec_timer (hrep : s.replyPending = false) :
    ∃ fs s', Runs.exec (step call) s fs = some s' ∧ AtRest s' ∧
      ∀ errorCode, Event.signal errorCode ∉ fs := by
  by_cases hdone : s.timer = .done
  · obtain ⟨s', hexec, hrest⟩ := exists_exec_posted call hrep hdone
    exact ⟨_, s', hexec, hrest, fun errorCode hmem => by simp at hmem⟩
  · have hguard : s.timer = .cancelled ∨ (s.timer = .waiting ∧ true = true) := by
      cases ht : s.timer with
      | waiting => simp
      | cancelled => simp
      | done => exact absurd ht hdone
    have hrep' : (onTimer s true).replyPending = false := by simpa [onTimer] using hrep
    obtain ⟨s', hexec, hrest⟩ := exists_exec_posted call hrep' rfl
    refine ⟨.timer true :: List.replicate (onTimer s true).posted .posted, s', ?_, hrest, ?_⟩
    · rw [Runs.exec_cons, step, if_pos hguard, Option.bind_some]
      exact hexec
    · intro errorCode hmem
      simp at hmem

/-- From every state the callbacks can come to rest without a signal. -/
theorem exists_exec_atRest (s : Listener) :
    ∃ fs s', Runs.exec (step call) s fs = some s' ∧ AtRest s' ∧
      ∀ errorCode, Event.signal errorCode ∉ fs := by
  cases hrep : s.replyPending with
  | false => exact exists_exec_timer call hrep
  | true =>
    have hanswered : (onReply call s (.answered true)).replyPending = false := rfl
    obtain ⟨fs, s', hexec, hrest, hnone⟩ := exists_exec_timer call hanswered
    refine ⟨.reply (.answered true) :: fs, s', ?_, hrest, ?_⟩
    · rw [Runs.exec_cons, step, if_pos hrep, Option.bind_some]
      exact hexec
    · intro errorCode hmem
      exact hnone errorCode (List.mem_of_ne_of_mem (by simp) hmem)

/-- In whatever order the reply, the signals, the timer and the posted handlers come: the response is
sent once, when the reply has come and the matcher is gone, with the messages of all callbacks in
their order. The wrapper is freed just when nothing is to come any more, which the callbacks always
can reach without a signal, and then the matcher is gone. -/
theorem completion_responds_once (call : Call) (es : List Event) (s : Listener)
    (h : Runs.exec (step call) doListenForCompletion es = some s) :
    s.resp.finalized = (if s.replyPending = false ∧ s.matcher = false then
      [es.flatMap (messagesOf call)] else []) ∧
    (s.wrapper.finalized = [()] ↔ AtRest s) ∧
    (AtRest s → s.matcher = false) ∧
    ∃ fs s', Runs.exec (step call) s fs = some s' ∧ AtRest s' ∧
      ∀ errorCode, Event.signal errorCode ∉ fs := by
  have hinv := exec_inv h
  refine ⟨?_, ?_, hinv.matcher_of_atRest, exists_exec_atRest s⟩
  · rw [hinv.resp_finalized, exec_messages h]
  · rw [← hinv.wrapper_free_iff, hinv.wrapperSound]
    by_cases hfree : s.wrapper.holders = 0
    · simp [hfree]
    · simp [hfree]

theorem completion_after_expiry :
    ∃ s, Runs.exec (step (doEjectAction "USB1" true)) doListenForCompletion
        [.reply (.answered true), .timer true] = some s ∧
      s.resp.finalized = [[]] ∧ s.wrapper.finalized = [()] := by
  obtain ⟨s, hs⟩ := Option.isSome_iff_exists.mp (show (Runs.exec
    (step (doEjectAction "USB1" true)) doListenForCompletion
    [.reply (.answered true), .timer true]).isSome = true by decide)
  obtain rfl := Option.some.inj (Eq.trans hs.symm rfl)
  obtain ⟨hresp, hwrapper, -⟩ := completion_responds_once (doEjectAction "USB1" true)
    [.reply (.answered true), .timer true] _ hs
  exact ⟨_, hs, hresp, hwrapper.mpr ⟨rfl, rfl, rfl⟩⟩

/-! ### Responses without a message -/

def replies : List Event → List Reply :=
  List.filterMap fun
    | .reply r => some r
    | _ => none

/-- The error codes of the signals that can be read. -/
def errorCodes : List Event → List ℤ :=
  List.filterMap fun
    | .signal errorCode => errorCode
    | _ => none

variable (call) in
theorem signalMessages_ne_nil (errorCode : ℤ) : signalMessages call (some errorCode) ≠ [] := by
  rw [signalMessages]
  split_ifs <;> simp

theorem replyMessages_eq_nil_iff (r : Reply) : replyMessages call r = [] ↔ r = .answered true := by
  cases r with
  | failed ec => cases ec <;> simp [replyMessages]
  | answered success => cases success <;> simp [replyMessages]

theorem messages_eq_nil_iff (es : List Event) :
    es.flatMap (messagesOf call) = [] ↔
      (∀ r ∈ replies es, r = .answered true) ∧ errorCodes es = [] := by
  induction es with
  | nil => simp [replies, errorCodes]
  | cons e es ih =>
    rw [List.flatMap_cons, List.append_eq_nil_iff, ih]
    cases e with
    | reply r => simp [messagesOf, replies, errorCodes, replyMessages_eq_nil_iff, and_assoc]
    | signal errorCode =>
      cases errorCode with
      | none => simp [messagesOf, replies, errorCodes, signalMessages]
      | some errorCode =>
        have hne := signalMessages_ne_nil call errorCode
        simp [messagesOf, errorCodes, hne]
    | posted => simp [messagesOf, replies, errorCodes]
    | timer expired => simp [messagesOf, replies, errorCodes]

theorem exec_replies {es : List Event}
    (h : Runs.exec (step call) doListenForCompletion es = some s) :
    (s.replyPending = true ∧ replies es = []) ∨
      (s.replyPending = false ∧ ∃ r, replies es = [r]) := by
  apply Runs.exec_history_invariant (R := fun es s => (s.replyPending = true ∧ replies es = []) ∨
    (s.replyPending = false ∧ ∃ r, replies es = [r])) _ (Or.inl ⟨rfl, rfl⟩) h
  intro es s e s' hR hs
  have hsplit : replies (es ++ [e]) = replies es ++ replies [e] := List.filterMap_append
  rw [hsplit]
  cases e with
  | reply r =>
    obtain ⟨hp, heq⟩ := Option.ite_none_right_eq_some.mp hs
    obtain rfl := Option.some.inj heq
    rcases hR with ⟨-, hnone⟩ | ⟨hfalse, -⟩
    · apply Or.inr
      refine ⟨?_, r, by rw [hnone]; rfl⟩
      unfold onReply
      by_cases hr : r = .answered true <;> simp [hr]
    · rw [hfalse] at hp
      exact absurd hp (by decide)
  | signal errorCode =>
    obtain ⟨-, heq⟩ := Option.ite_none_right_eq_some.mp hs
    obtain rfl := Option.some.inj heq
    rw [show replies [.signal errorCode] = [] from rfl, List.append_nil]
    exact hR
  | posted =>
    obtain ⟨-, heq⟩ := Option.ite_none_right_eq_some.mp hs
    obtain rfl := Option.some.inj heq
    rw [show replies [.posted] = [] from rfl, List.append_nil]
    simpa [onPosted] using hR
  | timer expired =>
    obtain ⟨-, heq⟩ := Option.ite_none_right_eq_some.mp hs
    obtain rfl := Option.some.inj heq
    rw [show replies [.timer expired] = [] from rfl, List.append_nil]
    cases expired <;> simpa [onTimer] using hR

/-- The client gets a response that tells it nothing exactly if the service accepted the call and no
signal could be read before the matcher was removed: an action that never completes is not reported
as one. -/
theorem silent_response_iff (call : Call) (es : List Event) (s : Listener)
    (h : Runs.exec (step call) doListenForCompletion es = some s) :
    s.resp.finalized = [[]] ↔
      s.matcher = false ∧ replies es = [.answered true] ∧ errorCodes es = [] := by
  rw [(exec_inv h).resp_finalized, exec_messages h]
  rcases exec_replies h with ⟨hp, hnone⟩ | ⟨hp, r, hr⟩
  · rw [if_neg fun hh => by simp [hp] at hh]
    refine iff_of_false (by simp) fun hh => ?_
    rw [hnone] at hh
    exact absurd hh.2.1 (by simp)
  · by_cases hm : s.matcher = false
    · rw [if_pos ⟨hp, hm⟩, List.cons.injEq, messages_eq_nil_iff, hr]
      simp [hm]
    · rw [if_neg fun hh => hm hh.2]
      exact iff_of_false (by simp) fun hh => hm hh.1

theorem silent_response_after_unreadable_signal :
    ∃ s, Runs.exec (step (doMountVmLegacy "USB1")) doListenForCompletion
        [.signal none, .reply (.answered true), .posted] = some s ∧ s.resp.finalized = [[]] := by
  obtain ⟨s, hs⟩ := Option.isSome_iff_exists.mp (show (Runs.exec (step (doMountVmLegacy "USB1"))
    doListenForCompletion [.signal none, .reply (.answered true), .posted]).isSome = true by decide)
  obtain rfl := Option.some.inj (Eq.trans hs.symm rfl)
  exact ⟨_, hs, (silent_response_iff _ _ _ hs).mpr ⟨rfl, rfl, rfl⟩⟩

end MetaCommon.VirtualMedia
