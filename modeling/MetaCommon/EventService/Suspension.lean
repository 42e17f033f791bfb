import MetaCommon.EventService.Copies

/-!
# Subscriptions whose retries are exhausted

A subscription that is to be suspended has its state changed in the map only, and the file is then
written from the store, which has a copy of its own. So a restart brings the old state back.
-/

namespace MetaCommon.EventService

open Runs

/-! ### Deliveries -/

/-- Whether an event is sent to a subscription, or written to its stream. -/
def sendEvent (enabled : Bool) (sub : Subscription) : Bool :=
  if enabled = false then false
  else if sub.state = "Disabled" then false
  else true

namespace Manager

variable (m : Manager)

/-- The subscription in the map is changed through its pointer. -/
def setState (id state : String) : Manager :=
  { m with
    subscriptionsMap := m.subscriptionsMap.map fun id' sub =>
      if id' = id then { sub with state } else sub }

def retryExhaustCallback (id : String) : Manager :=
  match m.subscriptionsMap.lookup id with
  | none => m
  | some subValue =>
    if subValue.retryPolicy = "TerminateAfterRetries" then m.deleteSubscription id
    else if subValue.retryPolicy = "SuspendRetries" then
      (m.setState id "Disabled").persistSubscriptionData
    else m

/-- `Status.State` in the answer to a GET. -/
def reportedState (id : String) : Option String :=
  (m.subscriptionsMap.lookup id).map fun sub => sub.state

/-- The state with which a subscription will be read by the next process. -/
def storedState (id : String) : Option String :=
  (m.file.lookup id).map fun j => (UserSubscription.fromJson j).state

end Manager

/-- The file at the start of the service. Subscriptions of streams are not written to it. -/
structure ConfigFile where
  entries : FlatMap String JsonSubscription
  noStreams : ∀ id j, entries.lookup id = some j →
    (UserSubscription.fromJson j).subscriptionType ≠ subscriptionTypeSSE

/-- The manager with the deliveries that have not been answered, by the number that their callback
has, and a record of the subscriptions whose retries have been exhausted. -/
structure Deliveries where
  manager : Manager
  inFlight : List String
  exhausted : String → Bool

/-- A response is a `bad_gateway` after the last retry. -/
inductive Happening
  | create (dist : Option String) (retryPolicy owner : String)
  | openStream (dist : Option String) (conn : ℕ) (owner : String)
  | closeStream (conn : ℕ)
  | deliver (id : String) (enabled : Bool)
  | response (id : String) (badGateway : Bool)
  | delete (id : String)
  | restart

namespace Deliveries

variable (s : Deliveries)

def lookup (id : String) : Option Subscription := s.manager.subscriptionsMap.lookup id

def boot (file : ConfigFile) : Deliveries where
  manager := Manager.initConfig ⟨.empty, .empty, file.entries⟩
  inFlight := []
  exhausted := fun _ => false

/-- A subscription that has been created has exhausted no retries. -/
def added : Option String × Manager → Deliveries
  | (some id, manager) => { s with manager, exhausted := Function.update s.exhausted id false }
  | (none, _) => s

/-- Only a subscription with a client has a callback. -/
def deliver (id : String) (enabled : Bool) : Deliveries :=
  match s.lookup id with
  | none => s
  | some sub =>
    if sendEvent enabled sub = true ∧ sub.sseConn = none then
      { s with inFlight := sub.subId :: s.inFlight }
    else s

def exhaust (id : String) : Deliveries :=
  { s with
    manager := s.manager.retryExhaustCallback id
    exhausted := Function.update s.exhausted id true }

def respond (id : String) (badGateway : Bool) : Deliveries :=
  if id ∈ s.inFlight then
    let s := { s with inFlight := s.inFlight.erase id }
    if badGateway then s.exhaust id else s
  else s

def step : Happening → Deliveries
  | .create dist retryPolicy owner =>
    s.added <| s.manager.addSubscription dist
      ⟨⟨"RedfishEvent", retryPolicy, "Enabled", owner⟩, "", none⟩ true
  | .openStream dist conn owner =>
    s.added <| s.manager.addSubscription dist
      ⟨⟨subscriptionTypeSSE, "TerminateAfterRetries", "", owner⟩, "", some conn⟩ false
  | .closeStream conn => { s with manager := s.manager.deleteSseSubscription conn }
  | .deliver id enabled => s.deliver id enabled
  | .response id badGateway => s.respond id badGateway
  | .delete id => { s with manager := s.manager.deleteSubscription id }
  | .restart => { s with manager := s.manager.initConfig, inFlight := [] }

/-! ### What the policies promise -/

/-- A suspended subscription is sent nothing, a terminated one is gone, and the state that a GET
reports and a delivery looks at is the one that is stored, but for the subscriptions of streams,
which are not stored. -/
structure Sound (s : Deliveries) : Prop where
  suspended : ∀ id sub, s.lookup id = some sub → s.exhausted id = true →
    sub.retryPolicy = "SuspendRetries" → ∀ enabled, sendEvent enabled sub = false
  terminated : ∀ id sub, s.lookup id = some sub → s.exhausted id = true →
    sub.retryPolicy ≠ "TerminateAfterRetries"
  coherent : ∀ id sub, s.lookup id = some sub → sub.subscriptionType ≠ subscriptionTypeSSE →
    s.manager.reportedState id = some sub.state ∧ s.manager.storedState id = some sub.state

/-- The retries that are exhausted are not those of a subscription that is to be suspended. -/
def NoSuspension (s : Deliveries) (e : Happening) : Prop :=
  ∀ id sub, e = .response id true → id ∈ s.inFlight → s.lookup id = some sub →
    sub.retryPolicy ≠ "SuspendRetries"

/-! ### Runs without a suspension -/

/-- What holds as long as nothing has been suspended. -/
structure Inv (s : Deliveries) : Prop where
  copied : s.manager.Copied fun u => u
  subId : ∀ id sub, s.lookup id = some sub → sub.subId = id
  stream : ∀ id sub, s.lookup id = some sub → sub.subscriptionType = subscriptionTypeSSE →
    sub.retryPolicy = "TerminateAfterRetries"
  flying : ∀ id ∈ s.inFlight, ∀ sub, s.lookup id = some sub → sub.state ≠ "Disabled"
  spent : ∀ id sub, s.lookup id = some sub → s.exhausted id = true →
    sub.retryPolicy ≠ "TerminateAfterRetries" ∧ sub.retryPolicy ≠ "SuspendRetries"

variable {s}

theorem Inv.sound (h : s.Inv) : s.Sound where
  suspended id sub hsub hexhausted hpolicy := absurd hpolicy (h.spent id sub hsub hexhausted).2
  terminated id sub hsub hexhausted := (h.spent id sub hsub hexhausted).1
  coherent id sub hsub htype := by
    obtain ⟨j, hj, heq⟩ := h.copied.in_file id sub hsub htype
    constructor
    · rw [Manager.reportedState, show s.manager.subscriptionsMap.lookup id = some sub from hsub]
      rfl
    · rw [Manager.storedState, hj]
      exact congrArg (fun u => some u.state) heq

theorem keepsType_id : KeepsType fun u => u := fun _ _ => congrArg _

theorem inv_boot (file : ConfigFile) : (boot file).Inv := by
  have hlookup (id : String) : (boot file).lookup id = (file.entries.lookup id).map fun j =>
      { UserSubscription.fromJson j with subId := id, sseConn := none } :=
    Manager.lookup_initConfig id
  refine ⟨Manager.copied_initConfig _, fun id sub hsub => ?_, fun id sub hsub htype => ?_, nofun,
    nofun⟩
  · obtain ⟨j, -, rfl⟩ := Option.map_eq_some_iff.mp ((hlookup id).symm.trans hsub)
    rfl
  · obtain ⟨j, hj, rfl⟩ := Option.map_eq_some_iff.mp ((hlookup id).symm.trans hsub)
    exact (file.noStreams id j hj htype).elim

/-- A step keeps the invariant if the subscriptions after it are some of those before it, and those
whose retries it exhausts are neither suspended nor terminated. -/
theorem Inv.of_kept (h : s.Inv) {s' : Deliveries} (hcopied : s'.manager.Copied fun u => u)
    (hkept : ∀ id sub, s'.lookup id = some sub → sub.subId = id ∧
      ∃ old, s.lookup id = some old ∧ old.toUserSubscription = sub.toUserSubscription)
    (hflying : ∀ id ∈ s'.inFlight, id ∈ s.inFlight)
    (hspent : ∀ id sub, s'.lookup id = some sub → s'.exhausted id = true →
      s.exhausted id = true ∨
        sub.retryPolicy ≠ "TerminateAfterRetries" ∧ sub.retryPolicy ≠ "SuspendRetries") :
    s'.Inv where
  copied := hcopied
  subId id sub hsub := (hkept id sub hsub).1
  stream id sub hsub htype := by
    obtain ⟨-, old, hold, heq⟩ := hkept id sub hsub
    have hpolicy := h.stream id old hold (by rw [heq, htype])
    rwa [heq] at hpolicy
  flying id hid sub hsub := by
    obtain ⟨-, old, hold, heq⟩ := hkept id sub hsub
    have hstate := h.flying id (hflying id hid) old hold
    rwa [heq] at hstate
  spent id sub hsub hexhausted := by
    rcases hspent id sub hsub hexhausted with hbefore | hpolicy
    · obtain ⟨-, old, hold, heq⟩ := hkept id sub hsub
      have hpolicy := h.spent id old hold hbefore
      rwa [heq] at hpolicy
    · exact hpolicy

theorem Inv.deleteSubscription (h : s.Inv) (id : String) :
    { s with manager := s.manager.deleteSubscription id }.Inv := by
  refine h.of_kept (h.copied.deleteSubscription keepsType_id id) (fun id' sub hsub => ?_)
    (fun _ hid => hid) (fun _ _ _ => .inl)
  have hold := (Manager.lookup_deleteSubscription id id').symm.trans hsub
  split_ifs at hold
  exact ⟨h.subId id' sub hold, sub, hold, rfl⟩

theorem Inv.restart (h : s.Inv) :
    { s with manager := s.manager.initConfig, inFlight := [] }.Inv := by
  refine h.of_kept (Manager.copied_initConfig _) (fun id sub hsub => ?_) nofun (fun _ _ _ => .inl)
  obtain ⟨j, hj, rfl⟩ :=
    Option.map_eq_some_iff.mp ((Manager.lookup_initConfig id).symm.trans hsub)
  obtain ⟨old, hold, heq⟩ := Option.map_eq_some_iff.mp (h.copied.of_file id j hj)
  exact ⟨rfl, old, hold, heq⟩

/-- A new subscription is not suspended, and has the policy of a stream if it is one. -/
theorem Inv.inserted (h : s.Inv) {id : String} {sub : Subscription} {manager : Manager}
    (hcopied : manager.Copied fun u => u)
    (hmap : manager.subscriptionsMap = (s.manager.inserted id sub).subscriptionsMap)
    (hstate : sub.state ≠ "Disabled") (hstream : sub.subscriptionType = subscriptionTypeSSE →
      sub.retryPolicy = "TerminateAfterRetries") : (s.added (some id, manager)).Inv := by
  have hcases (id' : String) (sub' : Subscription)
      (hsub : (s.added (some id, manager)).lookup id' = some sub') :
      id' = id ∧ sub' = { sub with subId := id } ∨ id' ≠ id ∧ s.lookup id' = some sub' := by
    have hsub : manager.subscriptionsMap.lookup id' = some sub' := hsub
    rw [hmap, Manager.lookup_inserted] at hsub
    split_ifs at hsub with heq
    · exact .inl ⟨heq.symm, (Option.some.inj hsub).symm⟩
    · exact .inr ⟨Ne.symm heq, hsub⟩
  refine ⟨hcopied, fun id' sub' hsub => ?_, fun id' sub' hsub htype => ?_,
    fun id' hid sub' hsub => ?_, fun id' sub' hsub hexhausted => ?_⟩
  all_goals obtain ⟨rfl, rfl⟩ | ⟨hne, hold⟩ := hcases id' sub' hsub
  · rfl
  · exact h.subId id' sub' hold
  · exact hstream htype
  · exact h.stream id' sub' hold htype
  · exact hstate
  · exact h.flying id' hid sub' hold
  · exact absurd ((Function.update_self _ _ _).symm.trans hexhausted) Bool.false_ne_true
  · exact h.spent id' sub' hold ((Function.update_of_ne hne _ _).symm.trans hexhausted)

/-- Whether or not the file is written, the copies agree: a stream that is added is not stored. -/
theorem Inv.create (h : s.Inv) (dist : Option String) {sub : Subscription}
    {updateFile : Bool} (hfile : updateFile = false → sub.subscriptionType = subscriptionTypeSSE)
    (hstate : sub.state ≠ "Disabled") (hstream : sub.subscriptionType = subscriptionTypeSSE →
      sub.retryPolicy = "TerminateAfterRetries") :
    (s.added (s.manager.addSubscription dist sub updateFile)).Inv := by
  rcases s.manager.addSubscription_cases dist sub updateFile with hadd | ⟨id, -, hid, hadd⟩
  · rw [hadd]
    exact h
  · rw [hadd]
    cases updateFile with
    | true =>
      exact h.inserted ((h.copied.stored.inserted hid).persist keepsType_id) rfl hstate hstream
    | false => exact h.inserted (h.copied.inserted hid (hfile rfl)) rfl hstate hstream

theorem Inv.deliver (h : s.Inv) (id : String) (enabled : Bool) :
    (s.deliver id enabled).Inv := by
  unfold Deliveries.deliver
  cases hsub : s.lookup id with
  | none => exact h
  | some sub =>
    dsimp only
    split_ifs with hsent
    · refine ⟨h.copied, h.subId, h.stream, fun id' hid sub' hsub' => ?_, h.spent⟩
      rw [h.subId id sub hsub, List.mem_cons] at hid
      rcases hid with rfl | hid
      · obtain rfl := Option.some.inj (hsub.symm.trans hsub')
        intro hdisabled
        simp [sendEvent, hdisabled] at hsent
      · exact h.flying id' hid sub' hsub'
    · exact h

/-- What a callback does to a subscription that is not to be suspended. -/
theorem Inv.exhaust (h : s.Inv) {id : String}
    (hsuspends : ∀ sub, s.lookup id = some sub → sub.retryPolicy ≠ "SuspendRetries") :
    (s.exhaust id).Inv := by
  have hbefore {id' : String} (hne : id' ≠ id)
      (hexhausted : Function.update s.exhausted id true id' = true) : s.exhausted id' = true :=
    (Function.update_of_ne hne _ _).symm.trans hexhausted
  unfold Deliveries.exhaust Manager.retryExhaustCallback
  cases hsub : s.manager.subscriptionsMap.lookup id with
  | none =>
    refine h.of_kept h.copied (fun id' sub' hsub' => ⟨h.subId id' sub' hsub', sub', hsub', rfl⟩)
      (fun _ hid => hid) (fun id' sub' hsub' hexhausted => .inl (hbefore ?_ hexhausted))
    rintro rfl
    exact Option.some_ne_none _ (hsub'.symm.trans hsub)
  | some sub =>
    dsimp only
    rw [if_neg (hsuspends sub hsub)]
    split_ifs with hterminates
    · have hdeleted := h.deleteSubscription id
      refine hdeleted.of_kept hdeleted.copied
        (fun id' sub' hsub' => ⟨hdeleted.subId id' sub' hsub', sub', hsub', rfl⟩)
        (fun _ hid => hid) (fun id' sub' hsub' hexhausted => .inl (hbefore ?_ hexhausted))
      rintro rfl
      have hlookup := hsub'.symm.trans (Manager.lookup_deleteSubscription id' id')
      rw [if_pos rfl] at hlookup
      exact Option.some_ne_none _ hlookup
    · refine h.of_kept h.copied (fun id' sub' hsub' => ⟨h.subId id' sub' hsub', sub', hsub', rfl⟩)
        (fun _ hid => hid) (fun id' sub' hsub' hexhausted => ?_)
      rcases eq_or_ne id' id with rfl | hne
      · obtain rfl := Option.some.inj (hsub.symm.trans hsub')
        exact .inr ⟨hterminates, hsuspends sub hsub⟩
      · exact .inl (hbefore hne hexhausted)

theorem Inv.step (h : s.Inv) {e : Happening} (he : s.NoSuspension e) : (s.step e).Inv := by
  cases e with
  | create dist retryPolicy owner =>
    have hstate : "Enabled" ≠ "Disabled" := by decide
    have htype : "RedfishEvent" ≠ subscriptionTypeSSE := by decide
    exact h.create dist nofun hstate fun hsse => (htype hsse).elim
  | openStream dist conn owner =>
    have hstate : "" ≠ "Disabled" := by decide
    exact h.create dist (fun _ => rfl) hstate fun _ => rfl
  | closeStream conn =>
    simp only [Deliveries.step, Manager.deleteSseSubscription]
    split
    · exact h.deleteSubscription _
    · exact h
  | deliver id enabled => exact h.deliver id enabled
  | response id badGateway =>
    by_cases hid : id ∈ s.inFlight
    · have herased : { s with inFlight := s.inFlight.erase id }.Inv :=
        ⟨h.copied, h.subId, h.stream, fun id' hid' => h.flying id' (List.mem_of_mem_erase hid'),
          h.spent⟩
      simp only [Deliveries.step, respond, if_pos hid]
      cases badGateway with
      | false => exact herased
      | true => exact herased.exhaust fun sub hsub => he id sub rfl hid hsub
    · simpa only [Deliveries.step, respond, if_neg hid] using h
  | delete id => exact h.deleteSubscription id
  | restart => exact h.restart

/-- A suspension is seen in the map and not in the file. -/
theorem Inv.not_sound (h : s.Inv) {id : String} {sub : Subscription} (hid : id ∈ s.inFlight)
    (hsub : s.lookup id = some sub) (hpolicy : sub.retryPolicy = "SuspendRetries") :
    ¬ (s.step (.response id true)).Sound := by
  have hpolicies : "SuspendRetries" ≠ "TerminateAfterRetries" := by decide
  have htype : sub.subscriptionType ≠ subscriptionTypeSSE := fun htype =>
    hpolicies (hpolicy.symm.trans (h.stream id sub hsub htype))
  have hmanager : (s.step (.response id true)).manager =
      (s.manager.setState id "Disabled").persistSubscriptionData := by
    have hlookup : s.manager.subscriptionsMap.lookup id = some sub := hsub
    simp only [Deliveries.step, respond, if_pos hid, if_true, Deliveries.exhaust,
      Manager.retryExhaustCallback, hlookup, hpolicy, if_neg hpolicies]
  have hmap : (s.step (.response id true)).lookup id =
      some { sub with state := "Disabled" } := by
    rw [lookup, hmanager]
    refine (FlatMap.lookup_map _ _ _).trans ?_
    rw [show s.manager.subscriptionsMap.lookup id = some sub from hsub, Option.map_some,
      if_pos rfl]
  have hstored : (s.step (.response id true)).manager.storedState id = some sub.state := by
    have hstore : s.manager.subscriptionsConfigMap.lookup id = some sub.toUserSubscription := by
      have hcopy := (h.copied.stored id).trans (Manager.copyOf_of_lookup hsub)
      rwa [Option.map_id'] at hcopy
    rw [hmanager, Manager.storedState, Manager.lookup_persist_file]
    rw [show (s.manager.setState id "Disabled").subscriptionsConfigMap.lookup id =
      some sub.toUserSubscription from hstore]
    simp [htype, fromJson_toJson]
  intro hsound
  have hcoherent := (hsound.coherent id _ hmap htype).2
  exact h.flying id hid sub hsub (Option.some.inj (hstored.symm.trans hcoherent))

/-- The policies are kept and the states agree after every step of a run exactly if no step
exhausts the retries of a subscription that is to be suspended. -/
theorem run_deliveriesSound_iff (file : ConfigFile) (es : List Happening) :
    (boot file).Sound ∧ (Guarded step (fun s e => (s.step e).Sound) (boot file) es ↔
      Guarded step NoSuspension (boot file) es) := by
  refine ⟨(inv_boot file).sound, guarded_congr (fun s e h he => h.step he) (fun s e h => ?_)
    (inv_boot file)⟩
  constructor
  · rintro hsound id sub rfl hid hsub hpolicy
    exact h.not_sound hid hsub hpolicy hsound
  · exact fun he => (h.step he).sound

/-- A suspended subscription is sent events again after a restart. -/
theorem not_run_deliveriesSound : ¬ ∀ (file : ConfigFile) (es : List Happening),
    Guarded step (fun s e => (s.step e).Sound) (boot file) es := by
  intro h
  have hrun := h ⟨.empty, nofun⟩ [.create (some "1") "SuspendRetries" "root", .deliver "1" true,
    .response "1" true, .restart]
  have hsound := hrun.2.2.2.1
  have hsent := hsound.suspended "1"
    ⟨⟨"RedfishEvent", "SuspendRetries", "Enabled", "root"⟩, "1", none⟩ (by decide +kernel)
    (by decide +kernel) rfl true
  exact absurd hsent (by decide)

end Deliveries

end MetaCommon.EventService
