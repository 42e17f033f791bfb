import MetaCommon.EventService.Copies

/-!
# Who may change a subscription

The owner of a subscription is copied from the request into the map, from there into the store and
into the file, and back from the file. `Recorded` says that the copies agree. The owner is then the
user who has created the subscription, by a POST or by opening a stream, and nobody else without the
privilege ConfigureManager can change it.
-/

namespace MetaCommon.EventService

open Runs

/-! ### The copies of the owner -/

/-- The type decides whether the file has the subscription, the owner who may change it. -/
def UserSubscription.record (u : UserSubscription) : String × String :=
  (u.subscriptionType, u.owner)

namespace Manager

variable {m : Manager} {id : String} {sub : Subscription}

def recordOf (m : Manager) (id : String) : Option (String × String) :=
  (m.subscriptionsMap.lookup id).map fun sub => sub.record

def Stored (m : Manager) : Prop :=
  ∀ id, (m.subscriptionsConfigMap.lookup id).map UserSubscription.record = m.recordOf id

/-- Every copy has what the map has, and the file only leaves out the subscriptions of streams. -/
structure Recorded (m : Manager) : Prop where
  stored : m.Stored
  of_file : ∀ id j, m.file.lookup id = some j →
    m.recordOf id = some (UserSubscription.fromJson j).record
  in_file : ∀ id r, m.recordOf id = some r → r.1 ≠ subscriptionTypeSSE →
    ∃ j, m.file.lookup id = some j ∧ (UserSubscription.fromJson j).record = r

theorem keepsType_record : KeepsType UserSubscription.record := fun _ _ => congrArg Prod.fst

theorem recorded_iff : m.Recorded ↔ m.Copied UserSubscription.record := by
  constructor
  · rintro ⟨hstored, hof, hin⟩
    exact ⟨hstored, hof, fun id sub hsub => hin id _ (copyOf_of_lookup hsub)⟩
  · rintro ⟨hstored, hof, hin⟩
    refine ⟨hstored, hof, fun id r hr htype => ?_⟩
    obtain ⟨sub, hsub, rfl⟩ := Option.map_eq_some_iff.mp hr
    exact hin id sub hsub htype

theorem recordOf_eq_none (hid : id ∉ m.subscriptionsMap.keys) : m.recordOf id = none :=
  copyOf_eq_none hid

theorem Stored.persist (h : m.Stored) : m.persistSubscriptionData.Recorded :=
  recorded_iff.mpr (StoredBy.persist keepsType_record h)

theorem recordOf_inserted (id' : String) : (m.inserted id sub).recordOf id' =
    if id = id' then some sub.record else m.recordOf id' := copyOf_inserted id'

theorem Stored.inserted (h : m.Stored) (hid : id ∉ m.subscriptionsMap.keys) :
    (m.inserted id sub).Stored := StoredBy.inserted h hid

theorem Recorded.inserted (h : m.Recorded) (hid : id ∉ m.subscriptionsMap.keys)
    (hsse : sub.subscriptionType = subscriptionTypeSSE) : (m.inserted id sub).Recorded :=
  recorded_iff.mpr ((recorded_iff.mp h).inserted hid hsse)

theorem Recorded.deleteSubscription (h : m.Recorded) (id : String) :
    (m.deleteSubscription id).Recorded :=
  recorded_iff.mpr ((recorded_iff.mp h).deleteSubscription keepsType_record id)

theorem Recorded.deleteSseSubscription (h : m.Recorded) (conn : ℕ) :
    (m.deleteSseSubscription conn).Recorded :=
  recorded_iff.mpr ((recorded_iff.mp h).deleteSseSubscription keepsType_record conn)

theorem recordOf_deleteSubscription {id' : String} {r : String × String}
    (h : (m.deleteSubscription id).recordOf id' = some r) : m.recordOf id' = some r := by
  unfold recordOf at h ⊢
  rw [lookup_deleteSubscription] at h
  split_ifs at h
  · exact absurd h.symm (Option.some_ne_none r)
  · exact h

theorem recordOf_deleteSseSubscription {conn : ℕ} {id' : String} {r : String × String}
    (h : (m.deleteSseSubscription conn).recordOf id' = some r) : m.recordOf id' = some r := by
  unfold deleteSseSubscription at h
  split at h
  · exact recordOf_deleteSubscription h
  · exact h

theorem recordOf_initConfig (id : String) : m.initConfig.recordOf id =
    (m.file.lookup id).map fun j => (UserSubscription.fromJson j).record := copyOf_initConfig id

theorem recorded_initConfig (m : Manager) : m.initConfig.Recorded :=
  recorded_iff.mpr m.copied_initConfig

end Manager

namespace Service

variable {s s' : Service}

theorem lookup_setRetryPolicy (id policy id' : String) :
    (s.setRetryPolicy id policy).subscriptionsMap.lookup id' =
      (s.manager.subscriptionsMap.lookup id').map fun sub =>
        if id' = id then { sub with retryPolicy := policy } else sub :=
  FlatMap.lookup_map _ _ _

theorem recordOf_patched (id : String) (retryPolicy : Option String) (id' : String) :
    (s.patched id retryPolicy).manager.recordOf id' = s.manager.recordOf id' := by
  cases retryPolicy with
  | none => rfl
  | some policy =>
    change (s.setRetryPolicy id policy).recordOf id' = _
    unfold Manager.recordOf
    rw [lookup_setRetryPolicy, Option.map_map]
    congr 1
    funext sub
    simp only [Function.comp_apply]
    split_ifs <;> rfl

theorem Stepped.recorded {e : Event} (h : s.Stepped e s') (hr : s.manager.Recorded) :
    s'.manager.Recorded := by
  cases h with
  | stays | refuses | releases => exact hr
  | posts _ _ id _ hid => exact (hr.stored.inserted hid).persist
  | opens _ _ id _ _ hid => exact hr.inserted hid rfl
  | headerFails conn | responds conn | fails conn => exact hr.deleteSseSubscription conn
  | patches _ id retryPolicy =>
    refine Manager.Stored.persist fun id' => ?_
    refine Eq.trans ?_ ((hr.stored id').trans (recordOf_patched id retryPolicy id').symm)
    cases retryPolicy <;> rfl
  | deletes _ id => exact hr.deleteSubscription id
  | restarts => exact s.manager.recorded_initConfig

theorem creator_created (id : String) (username : String) (origin : Origin) :
    (s.created id username origin).creator id = some (username, origin) :=
  Function.update_self _ _ _

theorem creator_created_ne {id id' : String} (hne : id ≠ id') (username : String)
    (origin : Origin) : (s.created id username origin).creator id' = s.creator id' :=
  Function.update_of_ne (Ne.symm hne) _ _

/-- A new subscription is recorded with the user who has created it. -/
theorem recordOf_of_created {id id' : String} {sub : Subscription} {origin : Origin}
    {r : String × String} (hfresh : id' ∉ s.manager.subscriptionsMap.keys)
    (hm : s'.manager.recordOf id = (s.manager.inserted id' sub).recordOf id)
    (hc : s'.creator id = (s.created id' sub.owner origin).creator id)
    (hid : s'.manager.recordOf id = some r) :
    (s.manager.recordOf id = some r ∧ s'.creator id = s.creator id) ∨
      s.manager.recordOf id = none ∧ ∃ origin, s'.creator id = some (r.2, origin) := by
  have hnew := (hm.trans (Manager.recordOf_inserted id)).symm.trans hid
  split_ifs at hnew with heq
  · subst heq
    obtain rfl := Option.some.inj hnew
    exact .inr ⟨Manager.recordOf_eq_none hfresh, origin, hc.trans (creator_created _ _ _)⟩
  · exact .inl ⟨hnew, hc.trans (creator_created_ne heq _ _)⟩

/-- What is recorded of a subscription has been there before, or it is new and its owner is the
user who has just created it. -/
theorem Stepped.recordOf {e : Event} (h : s.Stepped e s') (hr : s.manager.Recorded) {id : String}
    {r : String × String} (hid : s'.manager.recordOf id = some r) :
    (s.manager.recordOf id = some r ∧ s'.creator id = s.creator id) ∨
      s.manager.recordOf id = none ∧ ∃ origin, s'.creator id = some (r.2, origin) := by
  cases h with
  | stays | refuses | releases => exact .inl ⟨hid, rfl⟩
  | posts _ _ _ _ hfresh => exact recordOf_of_created hfresh rfl rfl hid
  | opens _ _ _ _ _ hfresh => exact recordOf_of_created hfresh rfl rfl hid
  | headerFails | responds | fails =>
    exact .inl ⟨Manager.recordOf_deleteSseSubscription hid, rfl⟩
  | patches _ id' retryPolicy =>
    exact .inl ⟨(recordOf_patched id' retryPolicy id).symm.trans hid, rfl⟩
  | deletes => exact .inl ⟨Manager.recordOf_deleteSubscription hid, rfl⟩
  | restarts =>
    rw [restart, Manager.recordOf_initConfig] at hid
    obtain ⟨j, hj, rfl⟩ := Option.map_eq_some_iff.mp hid
    exact .inl ⟨hr.of_file id j hj, rfl⟩

/-! ### Requests -/

end Service

/-- The requests that change one subscription, with the session. -/
def Event.request : Event → Option (Option Session × String)
  | .patch session id _ _ => some (session, id)
  | .delete session id => some (session, id)
  | _ => none

theorem owner_of_allowed {session : Session} {sub : Subscription}
    (h : isConfigureManagerOrSelf (some session) sub = some true)
    (hpriv : "ConfigureManager" ∉ session.privileges) :
    sub.owner ≠ "" ∧ sub.owner = session.username := by
  unfold isConfigureManagerOrSelf at h
  rw [Option.map_some, if_neg hpriv] at h
  split_ifs at h with hname howner
  · exact absurd (Option.some.inj h) Bool.false_ne_true
  · exact absurd (Option.some.inj h) Bool.false_ne_true
  · rw [not_not] at howner
    rw [howner]
    exact ⟨hname, rfl⟩

namespace Service

variable {s s' : Service}

def lookup (s : Service) (id : String) : Option Subscription :=
  s.manager.subscriptionsMap.lookup id

theorem lookup_patched {id id' : String} (hne : id' ≠ id) (retryPolicy : Option String) :
    (s.patched id retryPolicy).lookup id' = s.lookup id' := by
  cases retryPolicy with
  | none => rfl
  | some policy =>
    refine (lookup_setRetryPolicy id policy id').trans ?_
    simp only [if_neg hne]
    exact Option.map_id'

theorem lookup_deleted {id id' : String} (hne : id' ≠ id) :
    (s.deleted id).lookup id' = s.lookup id' :=
  (Manager.lookup_deleteSubscription id id').trans (if_neg hne)

/-- A request without the privilege that has changed anything has come from the owner, and has
changed the subscription it names. -/
theorem Stepped.request {e : Event} (h : s.Stepped e s') {session : Session} {id : String}
    (he : e.request = some (some session, id)) (hpriv : "ConfigureManager" ∉ session.privileges) :
    s' = s ∨ (∃ sub, s.lookup id = some sub ∧ sub.owner ≠ "" ∧ sub.owner = session.username) ∧
      ∀ id' ≠ id, s'.lookup id' = s.lookup id' := by
  cases h with
  | stays => exact .inl rfl
  | patches _ _ retryPolicy sub hsub hallowed =>
    obtain ⟨rfl, rfl⟩ := Prod.mk.inj (Option.some.inj he)
    exact .inr ⟨⟨sub, hsub, owner_of_allowed hallowed hpriv⟩,
      fun id' hne => lookup_patched hne retryPolicy⟩
  | deletes _ _ sub hsub hallowed =>
    obtain ⟨rfl, rfl⟩ := Prod.mk.inj (Option.some.inj he)
    exact .inr ⟨⟨sub, hsub, owner_of_allowed hallowed hpriv⟩, fun id' => lookup_deleted⟩
  | _ => exact absurd he.symm (Option.some_ne_none _)

/-! ### Runs -/

/-- Where the owner is known it is the user who has created the subscription. -/
def Attributed (s : Service) : Prop :=
  ∀ id sub, s.lookup id = some sub →
    sub.owner = "" ∨ ∃ origin, s.creator id = some (sub.owner, origin)

theorem recordOf_of_lookup {id : String} {sub : Subscription} (h : s.lookup id = some sub) :
    s.manager.recordOf id = some sub.record := by
  unfold Manager.recordOf
  rw [show s.manager.subscriptionsMap.lookup id = some sub from h]
  rfl

theorem Stepped.attributed {e : Event} (h : s.Stepped e s') (hr : s.manager.Recorded)
    (ha : s.Attributed) : s'.Attributed := by
  intro id sub hsub
  rcases h.recordOf hr (recordOf_of_lookup hsub) with ⟨hold, hcreator⟩ | ⟨-, hnew⟩
  · obtain ⟨sub', hsub', heq⟩ := Option.map_eq_some_iff.mp hold
    have howner : sub'.owner = sub.owner := congrArg Prod.snd heq
    rw [hcreator, ← howner]
    exact ha id sub' hsub'
  · exact .inr hnew

/-- A step from `s` to `s'` respects the owners, where a subscription is its creator's if it has
been created in one of the ways given. -/
structure RespectsOwners (origins : List Origin) (s : Service) (e : Event) (s' : Service) :
    Prop where
  effect : ∀ session id, e.request = some (some session, id) →
    "ConfigureManager" ∉ session.privileges →
    s' = s ∨ (∃ origin ∈ origins, s.creator id = some (session.username, origin)) ∧
      ∀ id' ≠ id, s'.lookup id' = s.lookup id'
  created : ∀ id sub, s'.lookup id = some sub →
    sub.owner = "" ∨ ∃ origin, s'.creator id = some (sub.owner, origin)
  owner : ∀ id sub sub', s.lookup id = some sub → s'.lookup id = some sub' →
    sub'.owner = sub.owner
  restart : e = .restart → ∀ id sub, s.lookup id = some sub →
    sub.subscriptionType ≠ subscriptionTypeSSE →
    ∃ sub', s'.lookup id = some sub' ∧ sub'.owner = sub.owner
  ownerless : ∀ session id sub, e.request = some (some session, id) → s.lookup id = some sub →
    sub.owner = "" → "ConfigureManager" ∉ session.privileges → s' = s
  noSession : ∀ readable valid retryPolicy dist, e = .post none readable valid retryPolicy dist →
    s' = s

theorem Stepped.owner {e : Event} (h : s.Stepped e s') (hr : s.manager.Recorded) {id : String}
    {sub sub' : Subscription} (hsub : s.lookup id = some sub) (hsub' : s'.lookup id = some sub') :
    sub'.owner = sub.owner := by
  have hrecord := recordOf_of_lookup hsub
  rcases h.recordOf hr (recordOf_of_lookup hsub') with ⟨hold, -⟩ | ⟨hnone, -⟩
  · exact congrArg Prod.snd (Option.some.inj (hold.symm.trans hrecord))
  · exact absurd (hrecord.symm.trans hnone) (Option.some_ne_none _)

theorem lookup_restart (hr : s.manager.Recorded) {id : String} {sub : Subscription}
    (hsub : s.lookup id = some sub) (htype : sub.subscriptionType ≠ subscriptionTypeSSE) :
    ∃ sub', s.restart.lookup id = some sub' ∧ sub'.owner = sub.owner := by
  obtain ⟨j, hj, heq⟩ := hr.in_file id _ (recordOf_of_lookup hsub) htype
  have hrecord : s.restart.manager.recordOf id = some (UserSubscription.fromJson j).record := by
    refine (Manager.recordOf_initConfig id).trans ?_
    rw [hj]
    rfl
  obtain ⟨sub', hsub', heq'⟩ := Option.map_eq_some_iff.mp hrecord
  exact ⟨sub', hsub', congrArg Prod.snd (heq'.trans heq)⟩

theorem Stepped.respectsOwners {e : Event} (h : s.Stepped e s') (hr : s.manager.Recorded)
    (ha : s.Attributed) : s.RespectsOwners [.post, .sse] e s' where
  effect session id he hpriv := by
    refine (h.request he hpriv).imp_right (And.imp_left ?_)
    rintro ⟨sub, hsub, hne, howner⟩
    obtain ⟨origin, hcreator⟩ := (ha id sub hsub).resolve_left hne
    refine ⟨origin, ?_, howner ▸ hcreator⟩
    cases origin <;> decide
  created := h.attributed hr ha
  owner id sub sub' := h.owner hr
  restart he id sub hsub htype := by
    subst he
    cases h with
    | stays => exact ⟨sub, hsub, rfl⟩
    | restarts => exact lookup_restart hr hsub htype
  ownerless session id sub he hsub hempty hpriv := by
    refine (h.request he hpriv).resolve_right ?_
    rintro ⟨⟨sub', hsub', hne, -⟩, -⟩
    obtain rfl := Option.some.inj (hsub.symm.trans hsub')
    exact hne hempty
  noSession readable valid retryPolicy dist he := by
    subst he
    cases h with
    | stays => rfl

def OwnersHold (origins : List Origin) (s : Service) (e : Event) : Prop :=
  ∀ s', s.step e = some s' → s.RespectsOwners origins e s'

/-- A service that has read a file from before the owners were recorded. -/
def boot (old : FlatMap String JsonSubscription) : Service :=
  let file := old.map fun _ j => j.filter fun element => element.1 ≠ "Owner"
  ⟨Manager.initConfig ⟨.empty, .empty, file⟩, fun _ => .absent, fun _ => none⟩

theorem owner_foldl_readElement (u : UserSubscription) {j : JsonSubscription}
    (hj : ∀ element ∈ j, element.1 ≠ "Owner") :
    (j.foldl UserSubscription.readElement u).owner = u.owner := by
  induction j generalizing u with
  | nil => rfl
  | cons element j ih =>
    obtain ⟨helement, hj⟩ := List.forall_mem_cons.mp hj
    rw [List.foldl_cons, ih _ hj]
    unfold UserSubscription.readElement
    cases element.2 with
    | none => rfl
    | some value =>
      simp only [if_neg helement]
      split_ifs <;> rfl

theorem attributed_boot (old : FlatMap String JsonSubscription) : (boot old).Attributed := by
  intro id sub hsub
  have hrecord := (Manager.recordOf_initConfig id).symm.trans (recordOf_of_lookup hsub)
  rw [FlatMap.lookup_map, Option.map_map] at hrecord
  obtain ⟨j, -, heq⟩ := Option.map_eq_some_iff.mp hrecord
  left
  have howner := congrArg Prod.snd heq
  refine howner.symm.trans (owner_foldl_readElement _ fun element helement => ?_)
  exact of_decide_eq_true (List.mem_filter.mp helement).2

theorem run_ownersHold (old : FlatMap String JsonSubscription) (es : List Event) :
    ExecGuarded step (OwnersHold [.post, .sse]) (boot old) es := by
  refine execGuarded_of_invariant (I := fun s => s.manager.Recorded ∧ s.Attributed)
    (fun s e s' hI hstep => ?_) (fun s e hI s' hstep => ?_)
    ⟨Manager.recorded_initConfig _, attributed_boot old⟩ es
  · have hstepped := step_stepped hstep
    exact ⟨hstepped.recorded hI.1, hstepped.attributed hI.1 hI.2⟩
  · exact (step_stepped hstep).respectsOwners hI.1 hI.2

/-- Who opens a stream is the owner of its subscription. -/
theorem not_run_ownersHold :
    let session := some ⟨"operator", ["ConfigureComponents"]⟩
    ¬ExecGuarded step (OwnersHold [.post]) (boot .empty)
      [.openStream 0 session true (some "1"), .delete session "1"] := by
  intro session h
  let s := (boot .empty).opened 0 ⟨"operator", ["ConfigureComponents"]⟩ "1"
  have hopen : (boot .empty).step (.openStream 0 session true (some "1")) = some s := rfl
  have hdelete : s.step (.delete session "1") = some (s.deleted "1") := rfl
  have hcreator : s.creator "1" = some ("operator", .sse) := rfl
  rcases ((h.tail hopen).1 _ hdelete).effect _ "1" rfl (by decide) with heq | ⟨⟨_, hmem, hby⟩, -⟩
  · have hlookup : (s.deleted "1").lookup "1" = s.lookup "1" := congrArg (·.lookup "1") heq
    exact absurd hlookup.symm (Option.some_ne_none _)
  · obtain rfl := List.mem_singleton.mp hmem
    have horigin : Origin.sse = .post :=
      congrArg Prod.snd (Option.some.inj (hcreator.symm.trans hby))
    exact absurd horigin (by decide)

end Service

end MetaCommon.EventService
