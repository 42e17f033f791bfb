import MetaCommon.UpdateService.PushTargets

/-!
# Reservations under interleaved requests

The check of the busy flag and the assignment in the callback are two steps, and a request that
fails in one part may have assigned in another. `run_patchSound_iff` says which runs are free of
both.
-/

namespace MetaCommon.UpdateService

variable {applyTimes : String → Option String}

/-- A call of the handler for request `id` of `client`; targets are only asked for with busy set. -/
def AsyncCall.Of (id client : ℕ) (c : AsyncCall) : Prop :=
  c.request = id ∧ c.client = client ∧ ∀ t b, c.kind = .getSubTreePaths t b → b = true

namespace Service

/-- A request has been counted, has calls in flight and has been answered with messages. -/
def queued (s : Service) (cs : List AsyncCall) (es : List (ℕ × Message)) : Service :=
  { s with next := s.next + 1, calls := s.calls ++ cs, errors := es ++ s.errors }

/-! ### The parts of the handler -/

variable (s : Service) (r : PatchRequest)

theorem patchOem_cases (id : ℕ) :
    (∃ m, s.patchOem id r = .error (s.fail id m) ∧ r.oemReturns = true) ∨
      ∃ cs, s.patchOem id r = .ok { s with calls := s.calls ++ cs } ∧
        (∀ c ∈ cs, c.Of id r.client) ∧ r.oemReturns = false := by
  have hnil : s = { s with calls := s.calls ++ [] } := by rw [List.append_nil]
  unfold patchOem PatchRequest.oemReturns
  rcases r.oemProps with _ | _ | _ | _ | _ | clearConfig
  · exact .inr ⟨[], congrArg _ hnil, nofun, rfl⟩
  · exact .inr ⟨[], congrArg _ hnil, nofun, rfl⟩
  · exact .inl ⟨_, rfl, rfl⟩
  · exact .inr ⟨[], congrArg _ hnil, nofun, rfl⟩
  · exact .inl ⟨_, rfl, rfl⟩
  · refine .inr ⟨[⟨id, r.client, .setClearConfig clearConfig⟩], rfl, fun c hc => ?_, rfl⟩
    obtain rfl := List.mem_singleton.mp hc
    exact ⟨rfl, rfl, nofun⟩

theorem patchOptions_cases (id : ℕ) :
    (∃ m, s.patchOptions applyTimes id r = .error (s.fail id m) ∧
      r.unknownApplyTime applyTimes = false) ∨
      ∃ cs es, s.patchOptions applyTimes id r =
          .ok { s with calls := s.calls ++ cs, errors := es ++ s.errors } ∧
        (∀ c ∈ cs, c.Of id r.client) ∧ (∀ e ∈ es, e.1 = id) ∧
        (es ≠ [] ↔ r.unknownApplyTime applyTimes = true) := by
  have hnil : s = { s with calls := s.calls ++ [], errors := [] ++ s.errors } := by
    rw [List.append_nil, List.nil_append]
  unfold patchOptions PatchRequest.unknownApplyTime
  rcases r.pushUriOptions with _ | _ | _ | _ | _ | applyTime
  · exact .inr ⟨[], [], congrArg _ hnil, nofun, nofun, by simp⟩
  · exact .inr ⟨[], [], congrArg _ hnil, nofun, nofun, by simp⟩
  · exact .inl ⟨_, rfl, rfl⟩
  · exact .inr ⟨[], [], congrArg _ hnil, nofun, nofun, by simp⟩
  · exact .inl ⟨_, rfl, rfl⟩
  · simp only
    cases applyTimes applyTime with
    | none =>
      refine .inr ⟨[], [(id, .propertyValueNotInList applyTime)], ?_, nofun, ?_, by simp⟩
      · simp [fail]
      · intro e he
        rw [List.mem_singleton.mp he]
    | some value =>
      refine .inr ⟨[⟨id, r.client, .setApplyTime value⟩], [], rfl, fun c hc => ?_, nofun, by simp⟩
      obtain rfl := List.mem_singleton.mp hc
      exact ⟨rfl, rfl, nofun⟩

theorem patchTargets_cases (id : ℕ) :
    (r.assignment s.props.httpPushUriTargetBusy = none ∧
      ∃ cs es, s.patchTargets id r = { s with calls := s.calls ++ cs, errors := es ++ s.errors } ∧
        (∀ c ∈ cs, c.Of id r.client) ∧ ∀ e ∈ es, e.1 = id) ∨
    ∃ w, r.assignment s.props.httpPushUriTargetBusy = some w ∧
      s.patchTargets id r = s.assign id r.client w := by
  have hnil : s = { s with calls := s.calls ++ [], errors := [] ++ s.errors } := by
    rw [List.append_nil, List.nil_append]
  have hfail : ∀ m, ∃ cs es, s.fail id m =
      { s with calls := s.calls ++ cs, errors := es ++ s.errors } ∧
      (∀ c ∈ cs, c.Of id r.client) ∧ ∀ e ∈ es, e.1 = id := by
    refine fun m => ⟨[], [(id, m)], by simp [fail], nofun, fun e he => ?_⟩
    rw [List.mem_singleton.mp he]
  unfold patchTargets PatchRequest.assignment
  cases r.imgTargetBusy with
  | none => exact .inl ⟨rfl, [], [], hnil, nofun, nofun⟩
  | some busy =>
    simp only
    by_cases hbusy : s.props.httpPushUriTargetBusy = true ∧ busy = true
    · rw [if_pos hbusy]
      refine .inl ⟨?_, hfail _⟩
      rcases r.imgTargets with _ | _ | _ <;> simp [hbusy]
    · rw [if_neg hbusy]
      rcases r.imgTargets with _ | _ | ⟨target, _ | ⟨target', targets⟩⟩
      · have hfree : ¬ (s.props.httpPushUriTargetBusy && busy) = true := by
          rwa [Bool.and_eq_true]
        exact .inr ⟨_, if_neg hfree, rfl⟩
      · cases busy with
        | false => exact .inl ⟨by simp, hfail _⟩
        | true =>
          have hfree : s.props.httpPushUriTargetBusy = false := by simpa using hbusy
          exact .inr ⟨_, if_pos (by rw [hfree]; rfl), rfl⟩
      · cases busy with
        | false => exact .inl ⟨rfl, hfail _⟩
        | true =>
          refine .inl ⟨rfl, [⟨id, r.client, .getSubTreePaths target true⟩], [], rfl,
            fun c hc => ?_, nofun⟩
          obtain rfl := List.mem_singleton.mp hc
          refine ⟨rfl, rfl, fun t b ht => ?_⟩
          rw [← (CallKind.getSubTreePaths.inj ht).2]
      · cases busy <;> exact .inl ⟨rfl, hfail _⟩

/-- What the handler does: it sends calls and answers messages, and it may end with an assignment;
with one, it has answered a message only if it has refused the apply time. -/
theorem doPatch_cases : ∃ cs es, (∀ c ∈ cs, c.Of s.next r.client) ∧ (∀ e ∈ es, e.1 = s.next) ∧
    (s.doPatch applyTimes r = s.queued cs es ∧ (r.refusesApplyTime applyTimes = true →
      r.assignment s.props.httpPushUriTargetBusy = none) ∨
    ∃ w, r.assignment s.props.httpPushUriTargetBusy = some w ∧
      s.doPatch applyTimes r = (s.queued cs es).assign s.next r.client w ∧
      (es ≠ [] ↔ r.refusesApplyTime applyTimes = true)) := by
  have hone : ∀ m, ∀ e ∈ [(s.next, (m : Message))], e.1 = s.next := fun m e he => by
    rw [List.mem_singleton.mp he]
  unfold doPatch
  cases hr : r.readable with
  | false =>
    refine ⟨[], [_], nofun, hone .malformedJson, .inl ⟨?_, fun h => ?_⟩⟩
    · simp [fail, queued]
    · simp [PatchRequest.refusesApplyTime, hr] at h
  | true =>
    simp only [if_true]
    rcases patchOem_cases { s with next := s.next + 1 } r s.next with
      ⟨m, he, hret⟩ | ⟨cs, he, hcs, hret⟩
    · refine ⟨[], [_], nofun, hone m, .inl ⟨?_, fun h => ?_⟩⟩
      · rw [he]
        simp [fail, queued]
      · simp [PatchRequest.refusesApplyTime, hret] at h
    · rw [he]
      have hrefuse : r.refusesApplyTime applyTimes = r.unknownApplyTime applyTimes := by
        simp [PatchRequest.refusesApplyTime, hr, hret]
      simp only
      rcases patchOptions_cases 
        { s with next := s.next + 1, calls := s.calls ++ cs } r s.next with
        ⟨m, ho, hno⟩ | ⟨cs', es, ho, hcs', hes, hrefused⟩
      · refine ⟨cs, [_], hcs, hone m, .inl ⟨?_, fun h => ?_⟩⟩
        · rw [ho]
          rfl
        · rw [hrefuse, hno] at h
          cases h
      · rw [ho]
        simp only
        rw [← hrefuse] at hrefused
        have happ : ∀ c ∈ cs ++ cs', c.Of s.next r.client := fun c hc =>
          (List.mem_append.mp hc).elim (hcs c) (hcs' c)
        rcases patchTargets_cases { s with
          next := s.next + 1, calls := s.calls ++ cs ++ cs', errors := es ++ s.errors } r s.next with
          ⟨hnone, cs'', es', ht, hcs'', hes'⟩ | ⟨w, hw, ht⟩
        · refine ⟨cs ++ cs' ++ cs'', es' ++ es, fun c hc => ?_, fun e he => ?_,
            .inl ⟨?_, fun _ => hnone⟩⟩
          · exact (List.mem_append.mp hc).elim (happ c) (hcs'' c)
          · exact (List.mem_append.mp he).elim (hes' e) (hes e)
          · rw [ht]
            simp [queued, List.append_assoc]
        · refine ⟨cs ++ cs', es, happ, hes, .inr ⟨w, hw, ?_, hrefused⟩⟩
          rw [ht]
          simp [queued, List.append_assoc]

/-! ### Runs -/

/-- Requests are numbered in their order, a holder has the busy flag set, and a target that is asked
for is asked for with busy set. -/
structure Consistent (s : Service) : Prop where
  calls : ∀ c ∈ s.calls, c.request < s.next ∧ ∀ t b, c.kind = .getSubTreePaths t b → b = true
  errors : ∀ e ∈ s.errors, e.1 < s.next
  changed : ∀ i ∈ s.changed, i < s.next
  busy : ∀ h ∈ s.holder, s.props.httpPushUriTargetBusy = true
  atomic : s.Atomic

theorem consistent_init (p : Properties) : (init p).Consistent :=
  ⟨nofun, nofun, nofun, nofun, nofun⟩

variable {s}

theorem Consistent.queued (h : s.Consistent) {id client : ℕ} {cs : List AsyncCall}
    {es : List (ℕ × Message)} (hid : id = s.next) (hcs : ∀ c ∈ cs, c.Of id client)
    (hes : ∀ e ∈ es, e.1 = id) : (s.queued cs es).Consistent := by
  subst hid
  refine ⟨fun c hc => ?_, fun e he => ?_, fun i hi => Nat.lt_succ_of_lt (h.changed i hi), h.busy,
    fun e he => ?_⟩
  · rcases List.mem_append.mp hc with hc | hc
    · exact ⟨Nat.lt_succ_of_lt (h.calls c hc).1, (h.calls c hc).2⟩
    · obtain ⟨hreq, -, hkind⟩ := hcs c hc
      exact ⟨hreq ▸ Nat.lt_succ_self _, hkind⟩
  · rcases List.mem_append.mp he with he | he
    · exact hes e he ▸ Nat.lt_succ_self _
    · exact Nat.lt_succ_of_lt (h.errors e he)
  · rcases List.mem_append.mp he with he | he
    · exact fun hc => Nat.lt_irrefl _ (hes e he ▸ h.changed _ hc)
    · exact h.atomic e he

theorem holder_busy {w : Assignment} {client : ℕ} {p : Properties} {holder : Option ℕ}
    (h : ∀ x ∈ holder, p.httpPushUriTargetBusy = true) :
    ∀ x ∈ w.holder client holder, (p.assign w).httpPushUriTargetBusy = true := by
  cases w with
  | clearConfig | applyTime => exact h
  | targetBusy busy => cases busy <;> simp [Assignment.holder, Properties.assign]
  | reservation busy targets => cases busy <;> simp [Assignment.holder, Properties.assign]

/-- An assignment keeps everything but the last point. -/
theorem Consistent.assign (h : s.Consistent) {id client : ℕ} {w : Assignment} (hid : id < s.next)
    (hatomic : (s.assign id client w).Atomic) : (s.assign id client w).Consistent := by
  refine ⟨h.calls, h.errors, fun i hi => ?_, holder_busy h.busy, hatomic⟩
  simp only [Service.assign] at hi
  split_ifs at hi
  · exact h.changed i hi
  · rcases Finset.mem_insert.mp hi with rfl | hi
    · exact hid
    · exact h.changed i hi

/-- An assignment leaves the requests atomic unless it changes something for a request with an
error. -/
theorem atomic_assign_iff (h : s.Atomic) (id client : ℕ) (w : Assignment) :
    (s.assign id client w).Atomic ↔ (s.props.assign w ≠ s.props → ∀ e ∈ s.errors, e.1 ≠ id) := by
  unfold Atomic Service.assign
  by_cases hsame : s.props.assign w = s.props
  · rw [if_pos hsame]
    exact iff_of_true h fun hne => absurd hsame hne
  · rw [if_neg hsame, forall_prop_of_true hsame]
    constructor
    · intro hall e he heq
      exact hall e he (heq ▸ Finset.mem_insert_self _ _)
    · intro hall e he hmem
      exact (Finset.mem_insert.mp hmem).elim (hall e he) (h e he)

theorem atomic_fail_iff (h : s.Atomic) (id : ℕ) (m : Message) :
    (s.fail id m).Atomic ↔ id ∉ s.changed := by
  unfold Atomic fail
  rw [List.forall_mem_cons]
  exact and_iff_left h

/-- While the reservation is held, the only assignment a handler makes itself gives it up. -/
theorem assignment_of_busy {r : PatchRequest} {w : Assignment} (h : r.assignment true = some w) :
    w = .targetBusy false := by
  unfold PatchRequest.assignment at h
  split at h
  · cases h
  · next busy _ =>
    split at h
    · cases busy with
      | true => cases h
      | false => exact (Option.some.inj h).symm
    · cases h
    · cases h

theorem Consistent.patch_iff (h : s.Consistent) (r : PatchRequest) :
    s.PatchSound applyTimes (.patch r) ↔ s.Fits applyTimes (.patch r) := by
  obtain ⟨cs, es, hcs, hes, hcase⟩ := s.doPatch_cases r
  have hq := h.queued rfl hcs hes
  rcases hcase with ⟨he, hrefused⟩ | ⟨w, hw, he, hrefused⟩
  · have hstep : s.step applyTimes (.patch r) = s.queued cs es := he
    refine iff_of_true ⟨fun b hb x hx hne => ?_, hstep ▸ hq.atomic⟩ fun hr w hw => ?_
    · rw [hstep]
      refine ⟨rfl, fun hb' => hne ?_⟩
      obtain rfl := Option.some.inj hb
      exact Option.some.inj (hx.symm.trans hb')
    · rw [hrefused hr] at hw
      cases hw
  · have hstep : s.step applyTimes (.patch r) = (s.queued cs es).assign s.next r.client w := he
    have hreserved : ∀ b ∈ s.client (.patch r), ∀ x ∈ s.holder, x ≠ b →
        (s.step applyTimes (.patch r)).props.httpPushUriTargets = s.props.httpPushUriTargets ∧
          (s.step applyTimes (.patch r)).holder ≠ some b := by
      intro b _ x hx _
      rw [h.busy x hx] at hw
      obtain rfl := assignment_of_busy hw
      rw [hstep]
      exact ⟨rfl, nofun⟩
    have herr : (∀ e ∈ es ++ s.errors, e.1 ≠ s.next) ↔ es = [] := by
      constructor
      · intro hall
        refine List.eq_nil_iff_forall_not_mem.mpr fun e he => ?_
        exact hall e (List.mem_append_left _ he) (hes e he)
      · rintro rfl e he
        exact Nat.ne_of_lt (h.errors e he)
    have hchange : (s.queued cs es).props = s.props := rfl
    unfold PatchSound
    rw [and_iff_right hreserved, hstep, atomic_assign_iff hq.atomic, hchange]
    change (_ → ∀ e ∈ es ++ s.errors, e.1 ≠ s.next) ↔ (_ → _)
    rw [herr, hw]
    constructor
    · intro hsame hr w' hw'
      obtain rfl := Option.some.inj hw'
      by_contra hne
      exact hrefused.mpr hr (hsame hne)
    · intro hfit hne
      by_contra hes'
      exact hne (hfit (hrefused.mp hes') w rfl)

theorem reply_of_call {k : ℕ} {a : Answer} {c : AsyncCall} (hc : s.calls[k]? = some c) :
    s.reply k a = { s with calls := s.calls.eraseIdx k }.answer c (c.kind.callback a) := by
  simp only [reply, hc]

theorem Consistent.erase (h : s.Consistent) (k : ℕ) :
    Consistent { s with calls := s.calls.eraseIdx k } :=
  ⟨fun c hc => h.calls c (List.mem_of_mem_eraseIdx hc), h.errors, h.changed, h.busy, h.atomic⟩

/-- An assignment of another client leaves the targets unless it takes the reservation. -/
theorem targets_of_callback {c : AsyncCall} {a : Answer} {w : Assignment} {p : Properties}
    {holder : Option ℕ} (hkind : ∀ t b, c.kind = .getSubTreePaths t b → b = true)
    (hw : c.kind.callback a = some (.ok w)) (hne : w.holder c.client holder ≠ some c.client) :
    (p.assign w).httpPushUriTargets = p.httpPushUriTargets := by
  cases hk : c.kind with
  | setClearConfig value =>
    rw [hk] at hw
    cases a with
    | failed => cases hw
    | done paths =>
      obtain rfl := Except.ok.inj (Option.some.inj hw)
      rfl
  | setApplyTime value =>
    rw [hk] at hw
    cases a with
    | failed => cases hw
    | done paths =>
      obtain rfl := Except.ok.inj (Option.some.inj hw)
      rfl
  | getSubTreePaths t b =>
    obtain rfl := hkind t b hk
    rw [hk] at hw
    cases a with
    | failed => cases hw
    | done paths =>
      simp only [CallKind.callback, Option.some.injEq] at hw
      cases hf : findTarget t paths with
      | error m =>
        rw [hf] at hw
        cases hw
      | ok u =>
        rw [hf] at hw
        obtain rfl := Except.ok.inj hw
        exact absurd rfl hne

theorem Consistent.answer_iff (h : s.Consistent) {c : AsyncCall} {a : Answer}
    (hkind : ∀ t b, c.kind = .getSubTreePaths t b → b = true) :
    ((∀ x ∈ s.holder, x ≠ c.client →
        (s.answer c (c.kind.callback a)).props.httpPushUriTargets = s.props.httpPushUriTargets ∧
          (s.answer c (c.kind.callback a)).holder ≠ some c.client) ∧
      (s.answer c (c.kind.callback a)).Atomic) ↔ s.CallbackFits c (c.kind.callback a) := by
  have hstill : ∀ x ∈ s.holder, x ≠ c.client → s.holder ≠ some c.client := by
    intro x hx hne h'
    exact hne (Option.some.inj (hx.symm.trans h'))
  cases hw : c.kind.callback a with
  | none => exact iff_of_true ⟨fun x hx hne => ⟨rfl, hstill x hx hne⟩, h.atomic⟩ trivial
  | some w =>
    cases w with
    | error m =>
      refine Iff.trans (and_iff_right fun x hx hne => ⟨rfl, hstill x hx hne⟩) ?_
      exact atomic_fail_iff h.atomic c.request m
    | ok w =>
      refine and_congr (forall_congr' fun x => forall_congr' fun hx => forall_congr' fun hne => ?_)
        (atomic_assign_iff h.atomic c.request c.client w)
      exact ⟨fun hs => hs.2, fun hs => ⟨targets_of_callback hkind hw hs, hs⟩⟩

theorem Consistent.answer (h : s.Consistent) {c : AsyncCall} {w : Option (Except Message Assignment)}
    (hlt : c.request < s.next) (hatomic : (s.answer c w).Atomic) : (s.answer c w).Consistent := by
  rcases w with _ | m | w
  · exact h
  · exact ⟨h.calls, List.forall_mem_cons.mpr ⟨hlt, h.errors⟩, h.changed, h.busy, hatomic⟩
  · exact h.assign hlt hatomic

theorem Consistent.reply_iff (h : s.Consistent) (k : ℕ) (a : Answer) :
    s.PatchSound applyTimes (.reply k a) ↔ s.Fits applyTimes (.reply k a) := by
  cases hc : s.calls[k]? with
  | none =>
    refine iff_of_true ⟨fun b hb => ?_, ?_⟩ fun c hc' => ?_
    · simp [client, hc] at hb
    · have hstep : s.step applyTimes (.reply k a) = s := by simp only [Service.step, reply, hc]
      rw [hstep]
      exact h.atomic
    · rw [hc] at hc'
      cases hc'
  | some c =>
    have hiff := (h.erase k).answer_iff (a := a) (h.calls c (List.mem_of_getElem? hc)).2
    have hstep : s.step applyTimes (.reply k a) = _ := reply_of_call hc
    have hclient : s.client (.reply k a) = some c.client := by simp [client, hc]
    have hfits : s.Fits applyTimes (.reply k a) ↔ s.CallbackFits c (c.kind.callback a) := by
      simp only [Fits, hc, Option.mem_def, Option.some.injEq, forall_eq']
    rw [hfits, PatchSound, hstep, hclient]
    simp only [Option.mem_def, Option.some.injEq, forall_eq']
    exact hiff

theorem Consistent.step (h : s.Consistent) {e : Event} (hatomic : (s.step applyTimes e).Atomic) :
    (s.step applyTimes e).Consistent := by
  cases e with
  | patch r =>
    obtain ⟨cs, es, hcs, hes, ⟨he, -⟩ | ⟨w, -, he, -⟩⟩ := s.doPatch_cases r
    · have hstep : s.step applyTimes (.patch r) = _ := he
      rw [hstep]
      exact h.queued rfl hcs hes
    · have hstep : s.step applyTimes (.patch r) = _ := he
      rw [hstep] at hatomic ⊢
      exact (h.queued rfl hcs hes).assign (Nat.lt_succ_self _) hatomic
  | reply k a =>
    cases hc : s.calls[k]? with
    | none =>
      have hstep : s.step applyTimes (.reply k a) = s := by simp only [Service.step, reply, hc]
      rw [hstep]
      exact h
    | some c =>
      have hstep : s.step applyTimes (.reply k a) = _ := reply_of_call hc
      rw [hstep] at hatomic ⊢
      exact (h.erase k).answer (h.calls c (List.mem_of_getElem? hc)).1 hatomic

/-- A run is sound at every step exactly if no callback grants a reservation over that of another
client, and no request fails in one part and changes a property in another. -/
theorem run_patchSound_iff (applyTimes : String → Option String) (p : Properties)
    (es : List Event) :
    Runs.Guarded (step applyTimes) (PatchSound applyTimes) (init p) es ↔
      Runs.Guarded (step applyTimes) (Fits applyTimes) (init p) es := by
  have hiff : ∀ s e, Consistent s → (s.PatchSound applyTimes e ↔ s.Fits applyTimes e) := by
    intro s e h
    cases e with
    | patch r => exact h.patch_iff r
    | reply k a => exact h.reply_iff k a
  exact Runs.guarded_congr (fun s e h hf => h.step ((hiff s e h).mpr hf).2) hiff
    (consistent_init p)

def plain : Properties := ⟨[], false, false, "OnReset"⟩

/-- Two clients that reserve the service at the same time for different targets. -/
def bothReserve : List Event :=
  [.patch ⟨1, true, none, none, some ["bmc_active"], some true⟩,
    .patch ⟨2, true, none, none, some ["bios_active"], some true⟩,
    .reply 0 (.done ["/xyz/bmc_active"]),
    .reply 0 (.done ["/xyz/bmc_active", "/xyz/bios_active"])]

/-- A request whose `ClearConfig` is set although its targets are refused. -/
def clearAndFail : List Event :=
  [.patch ⟨1, true, some (.present (.present true)), none, some [], some false⟩,
    .reply 0 (.done [])]

/-- The second reservation replaces the first; and a refused request has set `ClearConfig`. -/
theorem not_run_patchSound :
    ¬ Runs.Guarded (step fun _ => none) (PatchSound fun _ => none) (init plain) bothReserve ∧
      ¬ Runs.Guarded (step fun _ => none) (PatchSound fun _ => none) (init plain) clearAndFail := by
  decide +kernel

end Service

end MetaCommon.UpdateService
