import Mathlib.Data.List.Perm.Subperm
import MetaCommon.EventService.Steps

/-!
# One subscription for every open stream

`Holds` relates the number of a stream's subscription to the connection. The open streams and their
subscriptions are linked if this is one to one between the numbers and the accepted connections.
Every step but a DELETE of such a subscription keeps the link, and the limit on the subscriptions is
then one on the connections.
-/

namespace MetaCommon.EventService

open Runs

/-! ### What the map and the file are like -/

namespace Manager

structure Wf (m : Manager) : Prop where
  subId : ∀ e ∈ m.subs, e.2.subId = e.1
  sse_iff : ∀ e ∈ m.subs, e.2.subscriptionType = subscriptionTypeSSE ↔ e.2.sseConn.isSome
  count_le : m.getNumberOfSSESubscriptions ≤ maxNoOfSSESubscriptions
  file : ∀ e ∈ m.file.entries,
    (UserSubscription.fromJson e.2).subscriptionType ≠ subscriptionTypeSSE

variable {m : Manager} {id : String} {sub : Subscription}

theorem Wf.persist (h : m.Wf) : m.persistSubscriptionData.Wf := by
  refine ⟨h.subId, h.sse_iff, h.count_le, fun e he => ?_⟩
  obtain ⟨u, hu, hj⟩ := FlatMap.mem_map.mp he
  rw [← hj, fromJson_toJson]
  exact of_decide_eq_true (List.mem_filter.mp hu).2

theorem count_inserted (hid : id ∉ m.subscriptionsMap.keys) :
    (m.inserted id sub).getNumberOfSSESubscriptions =
      m.getNumberOfSSESubscriptions +
        if sub.subscriptionType = subscriptionTypeSSE then 1 else 0 := by
  have hkeys : ∀ e ∈ m.subscriptionsMap.entries, e.1 ≠ id := by
    rintro e he rfl
    exact hid (List.mem_map_of_mem he)
  unfold getNumberOfSSESubscriptions
  have hperm := FlatMap.perm_insertEntry { sub with subId := id } hkeys
  refine (hperm.countP_eq _).trans ?_
  rw [List.countP_cons]
  simp only [decide_eq_true_eq]

theorem Wf.inserted (h : m.Wf) (hid : id ∉ m.subscriptionsMap.keys)
    (hsse : sub.subscriptionType = subscriptionTypeSSE ↔ sub.sseConn.isSome)
    (hlimit : sub.subscriptionType = subscriptionTypeSSE →
      m.getNumberOfSSESubscriptions < maxNoOfSSESubscriptions) : (m.inserted id sub).Wf := by
  refine ⟨fun e he => ?_, fun e he => ?_, ?_, h.file⟩
  · rcases (m.mem_subs_inserted hid e).mp he with rfl | he
    · rfl
    · exact h.subId e he
  · rcases (m.mem_subs_inserted hid e).mp he with rfl | he
    · exact hsse
    · exact h.sse_iff e he
  · rw [count_inserted hid]
    split_ifs with htype
    · exact hlimit htype
    · exact h.count_le

theorem Wf.deleteSubscription (h : m.Wf) (id : String) : (m.deleteSubscription id).Wf := by
  unfold Manager.deleteSubscription
  split_ifs
  · apply Wf.persist
    refine ⟨fun e he => h.subId e (List.mem_of_mem_filter he),
      fun e he => h.sse_iff e (List.mem_of_mem_filter he), ?_, h.file⟩
    exact (List.filter_sublist.countP_le).trans h.count_le
  · exact h

theorem Wf.deleteSseSubscription (h : m.Wf) (conn : ℕ) : (m.deleteSseSubscription conn).Wf := by
  unfold Manager.deleteSseSubscription
  split
  · exact h.deleteSubscription _
  · exact h

/-- After a restart no subscription is one of a stream. -/
theorem Wf.type_initConfig (h : m.Wf) {e : String × Subscription} (he : e ∈ m.initConfig.subs) :
    e.2.subscriptionType ≠ subscriptionTypeSSE ∧ e.2.sseConn = none := by
  obtain ⟨u, hu, hsub⟩ := FlatMap.mem_map.mp he
  obtain ⟨j, hj, hu⟩ := FlatMap.mem_map.mp hu
  rw [← hsub]
  refine ⟨?_, rfl⟩
  have hfile := h.file _ hj
  rwa [hu] at hfile

theorem Wf.initConfig (h : m.Wf) : m.initConfig.Wf := by
  refine ⟨fun e he => ?_, fun e he => ?_, ?_, h.file⟩
  · obtain ⟨u, -, hsub⟩ := FlatMap.mem_map.mp he
    rw [← hsub]
  · obtain ⟨htype, hconn⟩ := h.type_initConfig he
    rw [hconn]
    exact ⟨fun hsse => (htype hsse).elim, fun hsome => (Bool.false_ne_true hsome).elim⟩
  · have hzero : m.initConfig.getNumberOfSSESubscriptions = 0 :=
      List.countP_eq_zero.mpr fun e he hsse => (h.type_initConfig he).1 (of_decide_eq_true hsse)
    rw [hzero]
    exact Nat.zero_le _

/-- If no other subscription has the connection, the one that has it is what goes. -/
theorem Wf.subs_deleteSseSubscription (h : m.Wf) {conn : ℕ}
    (huniq : ∀ e ∈ m.subs, ∀ e' ∈ m.subs, e.2.sseConn = some conn → e'.2.sseConn = some conn →
      e.1 = e'.1) :
    (m.deleteSseSubscription conn).subs = m.subs.filter fun e => e.2.sseConn ≠ some conn := by
  unfold Manager.deleteSseSubscription
  split
  · next e hfind =>
    have he : e ∈ m.subs := List.mem_of_find?_eq_some hfind
    have hfound := List.find?_some hfind
    obtain ⟨-, hconn⟩ := of_decide_eq_true hfound
    rw [subs_deleteSubscription, h.subId e he]
    refine List.filter_congr fun e' he' => decide_eq_decide.mpr (not_congr ?_)
    constructor
    · intro hkey
      obtain rfl := FlatMap.entry_eq_of_key_eq he' he hkey
      exact hconn
    · intro hconn'
      exact huniq e' he' e he hconn' hconn
  · next hfind =>
    refine (List.filter_eq_self.mpr fun e he => ?_).symm
    rw [decide_eq_true_eq]
    intro hconn
    have hsse := (h.sse_iff e he).mpr (by rw [hconn]; rfl)
    exact List.find?_eq_none.mp hfind e he (decide_eq_true ⟨hsse, hconn⟩)

end Manager

namespace Service

variable {s s' : Service}

/-- A change of the policy leaves every subscription with its type, connection and number. -/
theorem mem_subs_setRetryPolicy {id policy id' : String} {sub : Subscription}
    (h : (id', sub) ∈ (s.setRetryPolicy id policy).subs) :
    ∃ policy', (id', { sub with retryPolicy := policy' }) ∈ s.manager.subs := by
  obtain ⟨sub', hsub', heq⟩ := FlatMap.mem_map.mp h
  refine ⟨sub'.retryPolicy, ?_⟩
  simp only at heq
  split_ifs at heq <;> subst heq <;> exact hsub'

theorem mem_setRetryPolicy_subs (id policy : String) {id' : String} {sub : Subscription}
    (h : (id', sub) ∈ s.manager.subs) :
    ∃ policy', (id', { sub with retryPolicy := policy' }) ∈ (s.setRetryPolicy id policy).subs := by
  by_cases hid : id' = id
  · exact ⟨policy, FlatMap.mem_map.mpr ⟨sub, h, if_pos hid⟩⟩
  · exact ⟨sub.retryPolicy, FlatMap.mem_map.mpr ⟨sub, h, if_neg hid⟩⟩

theorem count_setRetryPolicy (id policy : String) :
    (s.setRetryPolicy id policy).getNumberOfSSESubscriptions =
      s.manager.getNumberOfSSESubscriptions := by
  unfold Manager.getNumberOfSSESubscriptions
  refine List.countP_map.trans (List.countP_congr fun e _ => ?_)
  simp only [Function.comp_apply]
  split_ifs <;> rfl

theorem wf_setRetryPolicy (h : s.manager.Wf) (id policy : String) :
    (s.setRetryPolicy id policy).Wf := by
  refine ⟨fun e he => ?_, fun e he => ?_, (count_setRetryPolicy id policy).trans_le h.count_le,
    h.file⟩
  · obtain ⟨policy', he'⟩ := mem_subs_setRetryPolicy he
    have hid := h.subId _ he'
    exact hid
  · obtain ⟨policy', he'⟩ := mem_subs_setRetryPolicy he
    have hiff := h.sse_iff _ he'
    exact hiff

theorem redfishEvent_ne_sse : "RedfishEvent" ≠ subscriptionTypeSSE := by decide

theorem Stepped.wf {e : Event} (h : s.Stepped e s') (hw : s.manager.Wf) : s'.manager.Wf := by
  cases h with
  | stays | refuses | releases => exact hw
  | posts session retryPolicy id _ hid =>
    refine (hw.inserted hid ⟨fun hsse => ?_, fun hconn => ?_⟩ fun hsse => ?_).persist
    · exact absurd hsse redfishEvent_ne_sse
    · exact absurd hconn Bool.false_ne_true
    · exact absurd hsse redfishEvent_ne_sse
  | opens conn session id _ hlimit hid =>
    exact hw.inserted hid ⟨fun _ => rfl, fun _ => rfl⟩ fun _ => hlimit
  | headerFails conn | responds conn | fails conn => exact hw.deleteSseSubscription conn
  | patches session id retryPolicy =>
    cases retryPolicy with
    | none => exact hw.persist
    | some policy => exact (wf_setRetryPolicy hw id policy).persist
  | deletes session id => exact hw.deleteSubscription id
  | restarts => exact hw.initConfig

/-! ### The link between the two -/

/-- The subscription of the number is the one of a stream with the connection. -/
def Holds (s : Service) (id : String) (conn : ℕ) : Prop :=
  ∃ sub, (id, sub) ∈ s.manager.subs ∧ sub.subscriptionType = subscriptionTypeSSE ∧
    sub.sseConn = some conn

/-- Every subscription of a stream has a connection that is open, and every open connection has
exactly one subscription. -/
structure Linked (s : Service) : Prop where
  conn_of_sub : ∀ id sub, (id, sub) ∈ s.manager.subs →
    sub.subscriptionType = subscriptionTypeSSE →
    ∃ conn, sub.sseConn = some conn ∧ s.phase conn = .accepted
  sub_of_conn : ∀ conn, s.phase conn = .accepted → ∃! id, s.Holds id conn

theorem Linked.accepted (hl : s.Linked) {id : String} {conn : ℕ} (h : s.Holds id conn) :
    s.phase conn = .accepted := by
  obtain ⟨sub, hsub, hsse, hconn⟩ := h
  obtain ⟨conn', hconn', haccepted⟩ := hl.conn_of_sub id sub hsub hsse
  obtain rfl := Option.some.inj (hconn.symm.trans hconn')
  exact haccepted

theorem holds_of_sseConn (hw : s.manager.Wf) {id : String} {sub : Subscription} {conn : ℕ}
    (hsub : (id, sub) ∈ s.manager.subs) (hconn : sub.sseConn = some conn) : s.Holds id conn :=
  ⟨sub, hsub, (hw.sse_iff _ hsub).mpr (by rw [hconn]; rfl), hconn⟩

theorem linked_of_holds (hw : s.manager.Wf)
    (hconn : ∀ id conn, s.Holds id conn → s.phase conn = .accepted)
    (hsub : ∀ conn, s.phase conn = .accepted → ∃! id, s.Holds id conn) : s.Linked := by
  refine ⟨fun id sub hmem hsse => ?_, hsub⟩
  obtain ⟨conn, hsome⟩ := Option.isSome_iff_exists.mp ((hw.sse_iff _ hmem).mp hsse)
  exact ⟨conn, hsome, hconn id conn ⟨sub, hmem, hsse, hsome⟩⟩

/-- A step that changes neither side of the link. -/
theorem Linked.congr (hl : s.Linked) (hw : s'.manager.Wf)
    (hholds : ∀ id conn, s'.Holds id conn ↔ s.Holds id conn)
    (hphase : ∀ conn, s'.phase conn = .accepted ↔ s.phase conn = .accepted) : s'.Linked := by
  refine linked_of_holds hw (fun id conn h => ?_) fun conn h => ?_
  · exact (hphase conn).mpr (hl.accepted ((hholds id conn).mp h))
  · simp only [hholds]
    exact hl.sub_of_conn conn ((hphase conn).mp h)

theorem Linked.opened (hl : s.Linked) (hw : s'.manager.Wf) (id : String) {conn : ℕ}
    (habsent : s.phase conn ≠ .accepted)
    (hholds : ∀ id' conn', s'.Holds id' conn' ↔ (id' = id ∧ conn' = conn) ∨ s.Holds id' conn')
    (hphase : ∀ conn', s'.phase conn' = .accepted ↔ conn' = conn ∨ s.phase conn' = .accepted) :
    s'.Linked := by
  refine linked_of_holds hw (fun id' conn' h => (hphase conn').mpr ?_) fun conn' h => ?_
  · exact ((hholds id' conn').mp h).imp And.right hl.accepted
  · by_cases hconn : conn' = conn
    · refine ⟨id, (hholds id conn').mpr (.inl ⟨rfl, hconn⟩), fun id' h' => ?_⟩
      rcases (hholds id' conn').mp h' with ⟨hid, -⟩ | h'
      · exact hid
      · exact (habsent (hconn ▸ hl.accepted h')).elim
    · simp only [hholds, hconn, and_false, false_or]
      exact hl.sub_of_conn conn' (((hphase conn').mp h).resolve_left hconn)

theorem Linked.closed (hl : s.Linked) (hw : s'.manager.Wf) {conn : ℕ}
    (hholds : ∀ id' conn', s'.Holds id' conn' ↔ s.Holds id' conn' ∧ conn' ≠ conn)
    (hphase : ∀ conn', s'.phase conn' = .accepted ↔ s.phase conn' = .accepted ∧ conn' ≠ conn) :
    s'.Linked := by
  refine linked_of_holds hw (fun id' conn' h => (hphase conn').mpr ?_) fun conn' h => ?_
  · exact ((hholds id' conn').mp h).imp hl.accepted id
  · obtain ⟨haccepted, hne⟩ := (hphase conn').mp h
    simp only [hholds, hne, ne_eq, not_false_eq_true, and_true]
    exact hl.sub_of_conn conn' haccepted

/-- No two subscriptions have one connection. -/
theorem Linked.uniq (hl : s.Linked) (hw : s.manager.Wf) {conn : ℕ}
    {e e' : String × Subscription} (he : e ∈ s.manager.subs) (he' : e' ∈ s.manager.subs)
    (hconn : e.2.sseConn = some conn) (hconn' : e'.2.sseConn = some conn) : e.1 = e'.1 := by
  have hholds := holds_of_sseConn hw he hconn
  exact (hl.sub_of_conn conn (hl.accepted hholds)).unique hholds (holds_of_sseConn hw he' hconn')

theorem Linked.subs_close (hl : s.Linked) (hw : s.manager.Wf) (conn : ℕ) :
    (s.close conn).manager.subs = s.manager.subs.filter fun e => e.2.sseConn ≠ some conn :=
  hw.subs_deleteSseSubscription fun _ he _ he' => hl.uniq hw he he'

/-! ### What the steps do to the link -/

theorem holds_inserted {id : String} {sub : Subscription}
    (hid : id ∉ s.manager.subscriptionsMap.keys)
    (hm : s'.manager.subs = (s.manager.inserted id sub).subs) (id' : String) (conn : ℕ) :
    s'.Holds id' conn ↔ id' = id ∧ sub.subscriptionType = subscriptionTypeSSE ∧
      sub.sseConn = some conn ∨ s.Holds id' conn := by
  unfold Holds
  rw [hm]
  simp only [s.manager.mem_subs_inserted hid, Prod.mk.injEq]
  constructor
  · rintro ⟨sub', ⟨rfl, rfl⟩ | hsub', hsse, hconn⟩
    · exact .inl ⟨rfl, hsse, hconn⟩
    · exact .inr ⟨sub', hsub', hsse, hconn⟩
  · rintro (⟨rfl, hsse, hconn⟩ | ⟨sub', hsub', hsse, hconn⟩)
    · exact ⟨_, .inl ⟨rfl, rfl⟩, hsse, hconn⟩
    · exact ⟨sub', .inr hsub', hsse, hconn⟩

theorem holds_close (hl : s.Linked) (hw : s.manager.Wf) (conn : ℕ) (id' : String) (conn' : ℕ) :
    (s.close conn).Holds id' conn' ↔ s.Holds id' conn' ∧ conn' ≠ conn := by
  unfold Holds
  rw [hl.subs_close hw conn]
  simp only [List.mem_filter, decide_eq_true_eq]
  constructor
  · rintro ⟨sub, ⟨hsub, hne⟩, hsse, hconn⟩
    exact ⟨⟨sub, hsub, hsse, hconn⟩, fun heq => hne (hconn.trans (congrArg some heq))⟩
  · rintro ⟨⟨sub, hsub, hsse, hconn⟩, hne⟩
    exact ⟨sub, ⟨hsub, fun heq => hne (Option.some.inj (hconn.symm.trans heq))⟩, hsse, hconn⟩

theorem holds_patched (id : String) (retryPolicy : Option String) (id' : String) (conn : ℕ) :
    (s.patched id retryPolicy).Holds id' conn ↔ s.Holds id' conn := by
  cases retryPolicy with
  | none => exact Iff.rfl
  | some policy =>
    constructor
    · rintro ⟨sub, hsub, h⟩
      obtain ⟨policy', hsub'⟩ := mem_subs_setRetryPolicy hsub
      exact ⟨_, hsub', h⟩
    · rintro ⟨sub, hsub, h⟩
      obtain ⟨policy', hsub'⟩ := mem_setRetryPolicy_subs id policy hsub
      exact ⟨_, hsub', h⟩

theorem holds_deleted {id : String} {sub : Subscription}
    (hsub : s.manager.subscriptionsMap.lookup id = some sub)
    (hsse : sub.subscriptionType ≠ subscriptionTypeSSE) (id' : String) (conn : ℕ) :
    (s.deleted id).Holds id' conn ↔ s.Holds id' conn := by
  unfold Holds deleted
  rw [s.manager.subs_deleteSubscription]
  simp only [List.mem_filter, decide_eq_true_eq]
  constructor
  · rintro ⟨sub', ⟨hsub', -⟩, h⟩
    exact ⟨sub', hsub', h⟩
  · rintro ⟨sub', hsub', h⟩
    refine ⟨sub', ⟨hsub', ?_⟩, h⟩
    rintro rfl
    have heq := FlatMap.entry_eq_of_key_eq hsub' (s.manager.mem_subs_of_lookup hsub) rfl
    obtain rfl : sub' = sub := congrArg Prod.snd heq
    exact hsse h.1

theorem accepted_setPhase {conn : ℕ} {p : Phase} (hp : p ≠ .accepted) (conn' : ℕ) :
    (s.setPhase conn p).phase conn' = .accepted ↔ s.phase conn' = .accepted ∧ conn' ≠ conn := by
  unfold setPhase
  by_cases hconn : conn' = conn
  · subst hconn
    simp [hp]
  · simp [hconn]

/-- A DELETE that is allowed is not one of a stream's subscription. -/
def Clean (s : Service) : Event → Prop
  | .delete session id => ∀ sub, s.manager.subscriptionsMap.lookup id = some sub →
      isConfigureManagerOrSelf session sub = some true →
      sub.subscriptionType ≠ subscriptionTypeSSE
  | _ => True

theorem Stepped.linked {e : Event} (h : s.Stepped e s') (hw : s.manager.Wf) (hl : s.Linked)
    (hclean : s.Clean e) : s'.Linked := by
  have hw' := h.wf hw
  cases h with
  | stays => exact hl
  | refuses conn _ _ _ hphase =>
    refine hl.congr hw' (fun _ _ => Iff.rfl) fun conn' => ?_
    rw [accepted_setPhase (by decide), and_iff_left_of_imp]
    rintro h rfl
    exact absurd (hphase.symm.trans h) (by decide)
  | releases conn hphase =>
    refine hl.congr hw' (fun _ _ => Iff.rfl) fun conn' => ?_
    rw [accepted_setPhase (by decide), and_iff_left_of_imp]
    rintro h rfl
    exact absurd (hphase.symm.trans h) (by decide)
  | posts session retryPolicy id _ hid =>
    refine hl.congr hw' (fun id' conn => ?_) fun _ => Iff.rfl
    refine (holds_inserted hid rfl id' conn).trans (or_iff_right ?_)
    exact fun h => redfishEvent_ne_sse h.2.1
  | opens conn session id hphase _ hid =>
    have habsent : s.phase conn ≠ .accepted := by
      rw [hphase]
      decide
    refine hl.opened hw' id habsent (fun id' conn' => ?_) fun conn' => ?_
    · refine (holds_inserted hid rfl id' conn').trans (or_congr_left (and_congr_right fun _ => ?_))
      exact (and_iff_right rfl).trans (Option.some_inj.trans eq_comm)
    · by_cases hconn : conn' = conn
      · subst hconn
        simp [Service.opened, setPhase]
      · simp [Service.opened, setPhase, created, hconn]
  | headerFails conn | responds conn | fails conn =>
    exact hl.closed hw' (holds_close hl hw conn) (accepted_setPhase (by decide))
  | patches _ id retryPolicy =>
    exact hl.congr hw' (holds_patched id retryPolicy) fun _ => Iff.rfl
  | deletes session id sub hsub hallowed =>
    exact hl.congr hw' (holds_deleted hsub (hclean sub hsub hallowed)) fun _ => Iff.rfl
  | restarts =>
    refine linked_of_holds hw' ?_ fun conn h => ?_
    · rintro id conn ⟨sub, hsub, hsse, -⟩
      exact ((hw.type_initConfig hsub).1 hsse).elim
    · unfold restart at h
      simp only at h
      split_ifs at h

/-- A connection that closes takes exactly its own subscription with it. -/
theorem Stepped.subs_of_closed {e : Event} (h : s.Stepped e s') (hw : s.manager.Wf)
    (hl : s.Linked) (he : e ≠ .restart) {conn : ℕ} (hopen : s.phase conn ≠ .closed)
    (hclosed : s'.phase conn = .closed) :
    s'.manager.subs = s.manager.subs.filter fun e => e.2.sseConn ≠ some conn := by
  -- Only one connection changes its phase in a step.
  have hsetPhase : ∀ {conn' p}, (s.setPhase conn' p).phase conn = .closed →
      conn = conn' ∧ p = .closed := by
    intro conn' p h
    unfold setPhase at h
    by_cases hconn : conn = conn'
    · subst hconn
      exact ⟨rfl, by simpa using h⟩
    · exact (hopen (by simpa [hconn] using h)).elim
  cases h with
  | stays | posts | patches | deletes => exact (hopen hclosed).elim
  | refuses conn' => exact absurd (hsetPhase hclosed).2 (by decide)
  | opens conn' => exact absurd (hsetPhase hclosed).2 (by decide)
  | releases conn' hphase =>
    obtain ⟨rfl, -⟩ := hsetPhase hclosed
    refine (List.filter_eq_self.mpr fun e he => ?_).symm
    rw [decide_eq_true_eq]
    intro hconn
    have haccepted := hl.accepted (holds_of_sseConn hw he hconn)
    exact absurd (hphase.symm.trans haccepted) (by decide)
  | headerFails conn' | responds conn' | fails conn' =>
    obtain ⟨rfl, -⟩ := hsetPhase hclosed
    exact hl.subs_close hw conn
  | restarts => exact (he rfl).elim

/-! ### The limit -/

def WithinLimit (s : Service) : Prop :=
  ∀ conns : List ℕ, conns.Nodup → (∀ conn ∈ conns, s.phase conn = .accepted) →
    conns.length ≤ maxNoOfSSESubscriptions

/-- The accepted connections are among those of the subscriptions. -/
theorem Linked.withinLimit (hl : s.Linked) (hw : s.manager.Wf) : s.WithinLimit := by
  intro conns hnodup haccepted
  have hsubset : conns ⊆ s.manager.subs.filterMap fun e => e.2.sseConn := by
    intro conn hmem
    obtain ⟨id, ⟨sub, hsub, -, hconn⟩, -⟩ := hl.sub_of_conn conn (haccepted conn hmem)
    exact List.mem_filterMap.mpr ⟨(id, sub), hsub, hconn⟩
  have hcount : (s.manager.subs.filterMap fun e => e.2.sseConn).length =
      s.manager.getNumberOfSSESubscriptions := by
    rw [List.length_filterMap_eq_countP]
    refine List.countP_congr fun e he => ?_
    rw [decide_eq_true_eq, hw.sse_iff e he]
  calc conns.length
      ≤ (s.manager.subs.filterMap fun e => e.2.sseConn).length :=
        (List.subperm_of_subset hnodup hsubset).length_le
    _ = s.manager.getNumberOfSSESubscriptions := hcount
    _ ≤ maxNoOfSSESubscriptions := hw.count_le

/-! ### Runs -/

/-- After the event the link and the limit hold, and a connection that has closed has taken its own
subscription with it and no other. -/
def Sound (s : Service) (e : Event) : Prop :=
  ∀ s', s.step e = some s' → s'.Linked ∧ s'.WithinLimit ∧
    (e ≠ .restart → ∀ conn, s.phase conn ≠ .closed → s'.phase conn = .closed →
      s'.manager.subs = s.manager.subs.filter fun e => e.2.sseConn ≠ some conn)

theorem step_delete {session : Option Session} {id : String} {sub : Subscription}
    (hsub : s.manager.subscriptionsMap.lookup id = some sub)
    (hallowed : isConfigureManagerOrSelf session sub = some true) :
    s.step (.delete session id) = some (s.deleted id) := by
  unfold step delete authorized
  simp only [hsub, hallowed]
  rfl

/-- A DELETE of a stream's subscription leaves the connection without one. -/
theorem not_linked_deleted (hl : s.Linked) {id : String} {sub : Subscription}
    (hsub : s.manager.subscriptionsMap.lookup id = some sub)
    (hsse : sub.subscriptionType = subscriptionTypeSSE) : ¬(s.deleted id).Linked := by
  intro hl'
  have hmem := s.manager.mem_subs_of_lookup hsub
  obtain ⟨conn, hconn, haccepted⟩ := hl.conn_of_sub id sub hmem hsse
  obtain ⟨id', ⟨sub', hsub', hsse', hconn'⟩, -⟩ := hl'.sub_of_conn conn haccepted
  have hfilter := s.manager.subs_deleteSubscription id
  obtain ⟨hold, hne⟩ := List.mem_filter.mp (hfilter ▸ hsub')
  have hid : id' = id := (hl.sub_of_conn conn haccepted).unique ⟨sub', hold, hsse', hconn'⟩
    ⟨sub, hmem, hsse, hconn⟩
  exact of_decide_eq_true hne hid

theorem sound_iff (hw : s.manager.Wf) (hl : s.Linked) (e : Event) : s.Sound e ↔ s.Clean e := by
  constructor
  · intro hsound
    cases e with
    | delete session id =>
      intro sub hsub hallowed hsse
      exact not_linked_deleted hl hsub hsse (hsound _ (step_delete hsub hallowed)).1
    | _ => trivial
  · intro hclean s' hstep
    have hstepped := step_stepped hstep
    have hl' := hstepped.linked hw hl hclean
    exact ⟨hl', hl'.withinLimit (hstepped.wf hw), fun he _ => hstepped.subs_of_closed hw hl he⟩

/-- A service whose file is empty. -/
def init : Service := ⟨⟨.empty, .empty, .empty⟩, fun _ => .absent, fun _ => none⟩

theorem wf_init : init.manager.Wf :=
  ⟨fun _ h => (List.not_mem_nil h).elim, fun _ h => (List.not_mem_nil h).elim, Nat.zero_le _,
    fun _ h => (List.not_mem_nil h).elim⟩

theorem linked_init : init.Linked :=
  ⟨fun _ _ h => (List.not_mem_nil h).elim, fun _ h => absurd h Phase.noConfusion⟩

theorem run_linked_iff (es : List Event) :
    ExecGuarded step Sound init es ↔ ExecGuarded step Clean init es := by
  refine execGuarded_congr (I := fun s => s.manager.Wf ∧ s.Linked) ?_ ?_ ⟨wf_init, linked_init⟩
  · intro s e _ s' hI hclean hstep
    have hstepped := step_stepped hstep
    exact ⟨hstepped.wf hI.1, hstepped.linked hI.1 hI.2 hclean⟩
  · exact fun s e _ hI => sound_iff hI.1 hI.2 e

/-- A manager's session opens a stream and deletes its subscription. -/
theorem not_run_linked :
    let session := some ⟨"admin", ["ConfigureManager"]⟩
    ¬ExecGuarded step Sound init
      [.openStream 0 session true (some "1"), .headerWritten 0 false, .delete session "1"] := by
  intro session h
  let s := init.opened 0 ⟨"admin", ["ConfigureManager"]⟩ "1"
  have hopen : init.step (.openStream 0 session true (some "1")) = some s := rfl
  have hheader : s.step (.headerWritten 0 false) = some s := rfl
  have hl : s.Linked := (h.1 s hopen).1
  have hdelete := ((h.tail hopen).tail hheader).1
  exact not_linked_deleted hl rfl rfl (hdelete _ (step_delete rfl rfl)).1

end Service

end MetaCommon.EventService
