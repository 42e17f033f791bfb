import MetaCommon.EventService.Subscriptions

/-!
# What a step of the service does

A request that is refused changes nothing. `Stepped` names what the others do, with the checks that
have let them pass.
-/

namespace MetaCommon.EventService

open Runs

theorem fromJson_toJson (u : UserSubscription) : UserSubscription.fromJson u.toJson = u := rfl

/-! ### What the manager does -/

namespace Manager

variable (m : Manager) {id : String} {sub : Subscription}

def subs : List (String × Subscription) := m.subscriptionsMap.entries

/-- The subscription has been added under the number, before the file is written. -/
def inserted (id : String) (sub : Subscription) : Manager :=
  { m with
    subscriptionsMap := m.subscriptionsMap.assign id { sub with subId := id }
    subscriptionsConfigMap := m.subscriptionsConfigMap.insert id sub.toUserSubscription }

theorem addSubscription_cases (dist : Option String) (sub : Subscription) (updateFile : Bool) :
    m.addSubscription dist sub updateFile = (none, m) ∨
      ∃ id, dist = some id ∧ id ∉ m.subscriptionsMap.keys ∧
        m.addSubscription dist sub updateFile = (some id,
          if updateFile then (m.inserted id sub).persistSubscriptionData
          else m.inserted id sub) := by
  unfold addSubscription
  cases dist with
  | none => exact .inl rfl
  | some id =>
    by_cases hid : id ∈ m.subscriptionsMap.keys
    · exact .inl (if_pos hid)
    · exact .inr ⟨id, rfl, hid, if_neg hid⟩

theorem mem_subs_inserted (hid : id ∉ m.subscriptionsMap.keys) (e : String × Subscription) :
    e ∈ (m.inserted id sub).subs ↔ e = (id, { sub with subId := id }) ∨ e ∈ m.subs :=
  FlatMap.mem_assign_of_notMem hid e

theorem subs_deleteSubscription (id : String) :
    (m.deleteSubscription id).subs = m.subs.filter fun e => e.1 ≠ id := by
  unfold deleteSubscription
  by_cases hid : id ∈ m.subscriptionsMap.keys
  · rw [if_pos hid]
    rfl
  · rw [if_neg hid, eq_comm]
    refine List.filter_eq_self.mpr fun e he => decide_eq_true ?_
    rintro rfl
    exact hid (List.mem_map_of_mem he)

theorem mem_subs_of_lookup (h : m.subscriptionsMap.lookup id = some sub) : (id, sub) ∈ m.subs :=
  FlatMap.lookup_eq_some.mp h

end Manager

/-! ### What a step does -/

namespace Service

variable (s : Service)

def posted (session : Session) (retryPolicy id : String) : Service :=
  let sub := ⟨⟨"RedfishEvent", retryPolicy, "Enabled", session.username⟩, "", none⟩
  let manager := (s.manager.inserted id sub).persistSubscriptionData
  { s with manager }.created id session.username .post

def opened (conn : ℕ) (session : Session) (id : String) : Service :=
  let sub :=
    ⟨⟨subscriptionTypeSSE, "TerminateAfterRetries", "", session.username⟩, "", some conn⟩
  let s := { s with manager := s.manager.inserted id sub }.created id session.username .sse
  s.setPhase conn .accepted

def patched (id : String) (retryPolicy : Option String) : Service :=
  { s with
    manager := (match retryPolicy with
      | some policy => s.setRetryPolicy id policy
      | none => s.manager).persistSubscriptionData }

def deleted (id : String) : Service := { s with manager := s.manager.deleteSubscription id }

/-- The steps by what they do. -/
inductive Stepped : Event → Service → Prop
  | stays (e : Event) : Stepped e s
  | refuses (conn : ℕ) (session : Option Session) (valid : Bool) (dist : Option String)
    (hphase : s.phase conn = .absent) :
    Stepped (.openStream conn session valid dist) (s.setPhase conn .refused)
  | releases (conn : ℕ) (hphase : s.phase conn = .refused) :
    Stepped (.responseWritten conn true) (s.setPhase conn .closed)
  | posts (session : Session) (retryPolicy id : String) (hname : session.username ≠ "")
    (hid : id ∉ s.manager.subscriptionsMap.keys) :
    Stepped (.post (some session) true true retryPolicy (some id))
      (s.posted session retryPolicy id)
  | opens (conn : ℕ) (session : Session) (id : String) (hphase : s.phase conn = .absent)
    (hlimit : s.manager.getNumberOfSSESubscriptions < maxNoOfSSESubscriptions)
    (hid : id ∉ s.manager.subscriptionsMap.keys) :
    Stepped (.openStream conn (some session) true (some id)) (s.opened conn session id)
  | headerFails (conn : ℕ) (hphase : s.phase conn = .accepted) :
    Stepped (.headerWritten conn true) (s.close conn)
  | responds (conn : ℕ) (hphase : s.phase conn = .refused) :
    Stepped (.responseWritten conn false) (s.close conn)
  | fails (conn : ℕ) (hphase : s.phase conn = .accepted) :
    Stepped (.connectionError conn) (s.close conn)
  | patches (session : Option Session) (id : String) (retryPolicy : Option String)
    (sub : Subscription) (hsub : s.manager.subscriptionsMap.lookup id = some sub)
    (hallowed : isConfigureManagerOrSelf session sub = some true) :
    Stepped (.patch session id true retryPolicy) (s.patched id retryPolicy)
  | deletes (session : Option Session) (id : String) (sub : Subscription)
    (hsub : s.manager.subscriptionsMap.lookup id = some sub)
    (hallowed : isConfigureManagerOrSelf session sub = some true) :
    Stepped (.delete session id) (s.deleted id)
  | restarts : Stepped .restart s.restart

variable {s} {s' : Service}

theorem authorized_cases {session : Option Session} {id : String} {effect : Response × Service}
    {r : Response × Service} (h : s.authorized session id effect = some r) :
    r.2 = s ∨ r = effect ∧ ∃ sub, s.manager.subscriptionsMap.lookup id = some sub ∧
      isConfigureManagerOrSelf session sub = some true := by
  unfold authorized at h
  cases hsub : s.manager.subscriptionsMap.lookup id with
  | none =>
    rw [hsub] at h
    obtain rfl := Option.some.inj h
    exact .inl rfl
  | some sub =>
    rw [hsub] at h
    obtain ⟨allowed, hallowed, hr⟩ := Option.map_eq_some_iff.mp h
    cases allowed with
    | false =>
      obtain rfl := hr
      exact .inl rfl
    | true => exact .inr ⟨hr.symm, sub, rfl, hallowed⟩

theorem start_stepped {conn : ℕ} {session : Option Session} {valid : Bool} {dist : Option String}
    (hphase : s.phase conn = .absent) (h : s.start conn session valid dist = some s') :
    s.Stepped (.openStream conn session valid dist) s' := by
  unfold start createSubscription at h
  split_ifs at h with hlimit hvalid
  · obtain rfl := Option.some.inj h
    exact .refuses conn session valid dist hphase
  · obtain rfl := Option.some.inj h
    exact .refuses conn session valid dist hphase
  · cases session with
    | none => cases h
    | some session =>
      obtain rfl : valid = true := by simpa using hvalid
      rw [Option.map_some, Option.map_some] at h
      rcases s.manager.addSubscription_cases dist
        ⟨⟨subscriptionTypeSSE, "TerminateAfterRetries", "", session.username⟩, "", some conn⟩
        false with hadd | ⟨id, rfl, hid, hadd⟩
      · simp only [hadd] at h
        obtain rfl := Option.some.inj h
        exact .refuses conn _ _ dist hphase
      · simp only [hadd] at h
        obtain rfl := Option.some.inj h
        exact .opens conn session id hphase (not_le.mp fun hle => hlimit (.inr hle)) hid

theorem post_stepped (session : Option Session) (readable valid : Bool) (retryPolicy : String)
    (dist : Option String) : s.Stepped (.post session readable valid retryPolicy dist)
      (s.post session readable valid retryPolicy dist).2 := by
  unfold post
  by_cases hreadable : readable = false
  · rw [if_pos hreadable]
    exact .stays _
  rw [if_neg hreadable]
  obtain rfl : readable = true := by simpa using hreadable
  cases session with
  | none => exact .stays _
  | some session =>
    simp only
    split_ifs with hname hvalid
    · exact .stays _
    · exact .stays _
    · obtain rfl : valid = true := by simpa using hvalid
      rcases s.manager.addSubscription_cases dist
        ⟨⟨"RedfishEvent", retryPolicy, "Enabled", session.username⟩, "", none⟩ true with
        hadd | ⟨id, rfl, hid, hadd⟩
      · rw [hadd]
        exact .stays _
      · rw [hadd]
        exact .posts session retryPolicy id hname hid

theorem step_stepped {e : Event} (h : s.step e = some s') : s.Stepped e s' := by
  cases e with
  | post session readable valid retryPolicy dist =>
    obtain rfl := Option.some.inj h
    exact post_stepped session readable valid retryPolicy dist
  | openStream conn session valid dist =>
    simp only [step] at h
    split_ifs at h with hphase
    · exact start_stepped hphase h
    · obtain rfl := Option.some.inj h
      exact .stays _
  | headerWritten conn ec =>
    obtain rfl := Option.some.inj h
    split_ifs with hphase
    · obtain ⟨hphase, rfl⟩ := hphase
      exact .headerFails conn hphase
    · exact .stays _
  | responseWritten conn ec =>
    simp only [step] at h
    by_cases hphase : s.phase conn = .refused
    · rw [if_pos hphase] at h
      obtain rfl := Option.some.inj h
      cases ec with
      | true => exact .releases conn hphase
      | false => exact .responds conn hphase
    · rw [if_neg hphase] at h
      obtain rfl := Option.some.inj h
      exact .stays _
  | connectionError conn =>
    obtain rfl := Option.some.inj h
    split_ifs with hphase
    · exact .fails conn hphase
    · exact .stays _
  | patch session id valid retryPolicy =>
    obtain ⟨r, hr, rfl⟩ := Option.map_eq_some_iff.mp h
    rcases authorized_cases hr with hsame | ⟨rfl, sub, hsub, hallowed⟩
    · rw [hsame]
      exact .stays _
    · cases valid with
      | false => exact .stays _
      | true => exact .patches session id retryPolicy sub hsub hallowed
  | delete session id =>
    obtain ⟨r, hr, rfl⟩ := Option.map_eq_some_iff.mp h
    rcases authorized_cases hr with hsame | ⟨rfl, sub, hsub, hallowed⟩
    · rw [hsame]
      exact .stays _
    · exact .deletes session id sub hsub hallowed
  | restart =>
    obtain rfl := Option.some.inj h
    exact .restarts

end Service

end MetaCommon.EventService
