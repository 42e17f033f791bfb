import MetaCommon.OnDemand.Measurements

/-!
# Every request is answered

The bookkeeping of the requests beside the shared list, and the results about whole runs: no
descriptor is closed that is not open, one leaks for good exactly where a reply comes for an entry
that is there already, and a page with data shows one measurement that no other page has shown.
-/

namespace MetaCommon.OnDemand

/-- A page without data is shown for no measurement. -/
def Response.NoData (r : Response) : Prop := ∀ f, r = .meterState f → f.featureData = []

namespace Server

variable {s s' : Server}

/-! ### What a step does -/

/-- What a request does that comes when its number is `s.requests`. -/
inductive Got (s : Server) : Server → Prop
  | respond {r st} (hr : r.NoData) (hev : s.toStore.Evolves st)
      (hdeliveries : st.deliveries = s.deliveries) (hlost : st.lost = s.lost) :
      Got s { s with
        toStore := st, requests := s.requests + 1, responses := s.responses ++ [(s.requests, r)] }
  | call (c : MethodCall) :
      Got s { s with requests := s.requests + 1, pending := s.pending ++ [⟨s.requests, c⟩] }
  | deliver {d st} (hrequest : d.request = s.requests) (hev : s.toStore.Evolves st)
      (hdeliveries : st.deliveries = s.deliveries ++ [d]) (hlost : st.lost = s.lost) :
      Got s { s with
        toStore := st
        requests := s.requests + 1
        responses := s.responses ++ [(s.requests, .meterState d.feature)] }

/-- What the reply to a method call does. -/
inductive Replied (s : Server) : Server → Prop
  | unknown : Replied s s
  | respond {p r st} (hp : p ∈ s.pending) (hr : r.NoData) (hev : s.toStore.Evolves st)
      (hdeliveries : st.deliveries = s.deliveries) :
      Replied s { s with
        toStore := st
        pending := s.pending.filter fun q => q.request ≠ p.request
        responses := s.responses ++ [(p.request, r)] }

theorem noData_getCPUMeterState (st : Store) (processorId reqFeature : String) :
    (Response.meterState (st.getCPUMeterState processorId reqFeature [])).NoData := by
  intro f hf
  rw [← Response.meterState.inj hf]
  rfl

theorem noData_of_ne {r : Response} (h : ∀ f, r ≠ .meterState f) : r.NoData :=
  fun f hf => absurd hf (h f)

theorem got_respond (s : Server) {r : Response} (hr : r.NoData) :
    Got s ({ s with requests := s.requests + 1 }.respond s.requests r) :=
  .respond hr (.relabel (.refl _)) rfl rfl

theorem enabled_getCPUMeterState {st : Store} {processorId reqFeature : String} {o : OndemandData}
    (h : st.ondemandList (processorId ++ reqFeature) = some o) (data : List UInt8) :
    (st.getCPUMeterState processorId reqFeature data).enabled = true ↔
      data ≠ [] ∧ o.signalResponseSuccess = true := by
  simp [Store.getCPUMeterState, h]

theorem closeFd_of_mem (st : Store) {fd : ℕ} (h : fd ∈ st.opened) :
    st.closeFd fd = some { st with opened := st.opened.erase fd } := by
  simp only [Store.closeFd, Handles.close, if_pos h, Option.map_some]

theorem getMeterStateFeatureData_got (hs : s.Sound) (processorId reqFeature : String)
    (file : FileAnswer) : ∃ s', getMeterStateFeatureData { s with requests := s.requests + 1 }
      s.requests processorId reqFeature file = some s' ∧ Got s s' := by
  unfold getMeterStateFeatureData
  cases hentry : s.ondemandList (processorId ++ reqFeature) with
  | none =>
    simp only [hentry]
    exact ⟨_, rfl, .call _⟩
  | some o =>
    have hmem := hs.mem_opened hentry
    simp only [hentry]
    by_cases hstatus : o.fdStatus
    · by_cases hsuccess : o.methodSuccess
      · have hclose := closeFd_of_mem { s.toStore with deliveries := s.deliveries ++
          [⟨o.task, s.requests, s.heard (processorId ++ reqFeature),
            s.getCPUMeterState processorId reqFeature file.data⟩] } hmem
        simp only [hstatus, hsuccess, Bool.not_true, Bool.false_eq_true, if_false,
          readMeterStateData, hclose, Option.map_some]
        exact ⟨_, rfl, .deliver rfl
          (.deliver hentry hsuccess rfl rfl (enabled_getCPUMeterState hentry file.data)) rfl rfl⟩
      · have hclose := closeFd_of_mem (s.erase (processorId ++ reqFeature)) hmem
        simp only [hstatus, hsuccess, Bool.not_true, Bool.not_false, Bool.false_eq_true, if_false,
          if_true, hclose, Option.map_some]
        exact ⟨_, rfl, .respond (noData_getCPUMeterState _ _ _) (.drop hentry) rfl rfl⟩
    · simp only [hstatus, Bool.not_false, if_true]
      exact ⟨_, rfl, got_respond s (noData_of_ne (by simp))⟩

theorem get_got (hs : s.Sound) (processorId reqFeature : String)
    (subtree : Option (List (String × Bool))) (file : FileAnswer) :
    ∃ s', s.get processorId reqFeature subtree file = some s' ∧ Got s s' := by
  unfold get
  by_cases hempty : reqFeature = ""
  · simp only [if_pos hempty]
    exact ⟨_, rfl, got_respond s (noData_of_ne (by simp))⟩
  simp only [if_neg hempty]
  cases subtree with
  | none => exact ⟨_, rfl, got_respond s (noData_of_ne (by simp))⟩
  | some subtree =>
    cases hfound : subtree.find? fun e => e.1.endsWith processorId && e.2 with
    | none =>
      simp only [hfound]
      exact ⟨_, rfl, got_respond s (noData_of_ne (by simp))⟩
    | some e =>
      simp only [hfound]
      by_cases hmeter : reqFeature = "MeteringFeature" ∨ reqFeature = "StateFeature"
      · simp only [if_pos hmeter]
        exact getMeterStateFeatureData_got hs processorId reqFeature file
      · by_cases hlicense : reqFeature = "ProvisionFeature" ∨ reqFeature = "DynamicFeature"
        · simp only [if_neg hmeter, if_pos hlicense]
          exact ⟨_, rfl, .call _⟩
        · simp only [if_neg hmeter, if_neg hlicense]
          exact ⟨_, rfl, got_respond s (noData_of_ne (by simp))⟩

theorem replied_respond {p : Pending} (hp : p ∈ s.pending) {r : Response} (hr : r.NoData) :
    Replied s (respond { s with pending := s.pending.filter fun q => q.request ≠ p.request }
      p.request r) :=
  .respond hp hr (.relabel (.refl _)) rfl

theorem meterStateReply_replied (k : Handles.Source) {p : Pending} (hp : p ∈ s.pending)
    (processorId reqFeature : String) (answer : Option ℤ) (dups : Bool) :
    Replied s (meterStateReply { s with
      pending := s.pending.filter fun q => q.request ≠ p.request } k p.request processorId
        reqFeature answer dups) := by
  unfold meterStateReply
  cases answer with
  | none => exact replied_respond hp (noData_of_ne (by simp))
  | some code =>
    by_cases hsuccess : code = OnDemandResponseCode.ondemandSuccess.toInt
    · simp only [if_pos hsuccess]
      cases hfd : if dups then k.allocate s.opened else none with
      | none => exact replied_respond hp (noData_getCPUMeterState _ _ _)
      | some fd =>
        have hfresh : fd ∉ s.opened := by
          split_ifs at hfd
          exact k.fresh _ _ hfd
        exact .respond hp (noData_of_ne (by simp)) (.create processorId reqFeature hfresh) rfl
    · simp only [if_neg hsuccess]
      by_cases hprogress : code = OnDemandResponseCode.ondemandMethodInProgress.toInt
      · simp only [if_pos hprogress]
        exact replied_respond hp (noData_of_ne (by simp))
      · simp only [if_neg hprogress]
        exact replied_respond hp (noData_of_ne (by simp))

theorem reply_replied (k : Handles.Source) (s : Server) (request : ℕ) (a : Answer) :
    Replied s (s.reply k request a) := by
  unfold reply
  cases hfound : s.pending.find? fun p => p.request = request with
  | none => exact .unknown
  | some p =>
    have hp := List.mem_of_find?_eq_some hfound
    have hrequest : p.request = request := by simpa using List.find?_some hfound
    subst hrequest
    cases hcall : p.call with
    | meterState processorId reqFeature =>
      simp only [hcall]
      exact meterStateReply_replied k hp processorId reqFeature a.code a.dups
    | provisionDynamic processorId reqFeature objectPath =>
      simp only [hcall]
      cases a.featureEnabled with
      | none => exact replied_respond hp (noData_of_ne (by simp))
      | some featureEnabled => exact replied_respond hp (noData_of_ne (by simp))

/-! ### What is kept -/

/-- Every request has been answered, or waits for the reply to its call. -/
def Answered (s : Server) : Prop :=
  (s.responses.map Prod.fst ++ s.pending.map (·.request)).Perm (List.range s.requests)

/-- The pages with data are those of the measurements that were read. -/
structure Truthful (s : Server) : Prop where
  shown : ∀ r f, (r, Response.meterState f) ∈ s.responses → f.featureData ≠ [] →
    ∃ d ∈ s.deliveries, d.request = r ∧ d.feature = f
  given : ∀ d ∈ s.deliveries, (d.request, Response.meterState d.feature) ∈ s.responses

structure Inv (s : Server) : Prop where
  sound : s.Sound
  answered : s.Answered
  truthful : s.Truthful

theorem inv_init : init.Inv where
  sound := Store.sound_init
  answered := .nil
  truthful := ⟨fun _ _ h => absurd h List.not_mem_nil, fun _ h => absurd h List.not_mem_nil⟩

theorem Truthful.respond (ht : s.Truthful) (request : ℕ) {r : Response} (hr : r.NoData)
    {st : Store} (hdeliveries : st.deliveries = s.deliveries) (pending : List Pending) (n : ℕ) :
    Truthful ⟨st, pending, n, s.responses ++ [(request, r)]⟩ := by
  constructor
  · intro q f hf hdata
    change ∃ d ∈ st.deliveries, _
    rw [hdeliveries]
    rcases List.mem_append.mp hf with hf | hf
    · exact ht.shown q f hf hdata
    · obtain ⟨-, rfl⟩ := Prod.mk.inj (List.mem_singleton.mp hf)
      exact absurd (hr f rfl) hdata
  · intro d hd
    change d ∈ st.deliveries at hd
    rw [hdeliveries] at hd
    exact List.mem_append_left _ (ht.given d hd)

theorem Got.inv (h : s.Got s') (hs : s.Inv) : s'.Inv := by
  have hrange : List.range (s.requests + 1) = List.range s.requests ++ [s.requests] :=
    List.range_succ
  cases h with
  | respond hr hev hdeliveries _ =>
    refine ⟨hev.sound hs.sound, ?_, hs.truthful.respond _ hr hdeliveries _ _⟩
    unfold Answered
    rw [hrange, List.map_append, List.append_assoc]
    exact (List.perm_append_comm.append_left _).trans
      ((List.append_assoc .. ▸ hs.answered.append_right _))
  | call c =>
    refine ⟨hs.sound, ?_, hs.truthful.shown, hs.truthful.given⟩
    unfold Answered
    rw [hrange, List.map_append, ← List.append_assoc]
    exact hs.answered.append_right _
  | @deliver d st hrequest hev hdeliveries _ =>
    refine ⟨hev.sound hs.sound, ?_, ?_, ?_⟩
    · unfold Answered
      rw [hrange, List.map_append, List.append_assoc]
      exact (List.perm_append_comm.append_left _).trans
        ((List.append_assoc .. ▸ hs.answered.append_right _))
    · intro q f hf hdata
      change ∃ d ∈ st.deliveries, _
      rw [hdeliveries]
      rcases List.mem_append.mp hf with hf | hf
      · obtain ⟨d', hd', heq⟩ := hs.truthful.shown q f hf hdata
        exact ⟨d', List.mem_append_left _ hd', heq⟩
      · obtain ⟨rfl, hshown⟩ := Prod.mk.inj (List.mem_singleton.mp hf)
        exact ⟨d, List.mem_append_right _ (List.mem_singleton_self d), hrequest,
          (Response.meterState.inj hshown).symm⟩
    · intro d' hd'
      change d' ∈ st.deliveries at hd'
      rw [hdeliveries] at hd'
      rcases List.mem_append.mp hd' with hd' | hd'
      · exact List.mem_append_left _ (hs.truthful.given d' hd')
      · rw [List.mem_singleton.mp hd', hrequest]
        exact List.mem_append_right _ (List.mem_singleton_self _)

/-- Taking a request off the list of those that wait. -/
theorem perm_filter_pending {pending : List Pending} (hnodup : (pending.map (·.request)).Nodup)
    {p : Pending} (hp : p ∈ pending) : (pending.map (·.request)).Perm
      (p.request :: (pending.filter fun q => q.request ≠ p.request).map (·.request)) := by
  have hperm := List.perm_cons_erase (List.mem_map_of_mem (f := (·.request)) hp)
  rw [hnodup.erase_eq_filter, List.filter_map] at hperm
  convert hperm using 4
  funext q
  by_cases hq : q.request = p.request <;> simp [hq]

theorem Answered.nodup_pending (h : s.Answered) : (s.pending.map (·.request)).Nodup :=
  (List.nodup_append.mp (h.nodup_iff.mpr List.nodup_range)).2.1

theorem Replied.inv (h : s.Replied s') (hs : s.Inv) : s'.Inv := by
  cases h with
  | unknown => exact hs
  | @respond p r st hp hr hev hdeliveries =>
    refine ⟨hev.sound hs.sound, ?_, hs.truthful.respond _ hr hdeliveries _ _⟩
    unfold Answered
    have hperm := perm_filter_pending hs.answered.nodup_pending hp
    rw [List.map_append, List.append_assoc]
    exact (hperm.append_left _).symm.trans hs.answered

theorem inv_store {st : Store} (hs : s.Inv) (h : s.toStore.Relabelled st) :
    Inv { s with toStore := st } := by
  refine ⟨h.sound hs.sound, hs.answered, ?_, ?_⟩
  · intro q f hf hdata
    change ∃ d ∈ st.deliveries, _
    rw [h.deliveries]
    exact hs.truthful.shown q f hf hdata
  · intro d hd
    change d ∈ st.deliveries at hd
    rw [h.deliveries] at hd
    exact hs.truthful.given d hd

/-- No step is undefined. -/
theorem Inv.step (hs : s.Inv) (k : Handles.Source) (e : Event) :
    ∃ s', s.step k e = some s' ∧ s'.Inv := by
  cases e with
  | get processorId reqFeature subtree file =>
    obtain ⟨s', hget, hgot⟩ := get_got hs.sound processorId reqFeature subtree file
    exact ⟨s', hget, hgot.inv hs⟩
  | reply request a => exact ⟨_, rfl, (reply_replied k s request a).inv hs⟩
  | signal m code => exact ⟨_, rfl, inv_store hs (Store.relabelled_signal s.toStore m code)⟩
  | timeout task => exact ⟨_, rfl, inv_store hs (Store.relabelled_timeout s.toStore task)⟩
  | evict task => exact ⟨_, rfl, inv_store hs (Store.relabelled_disarm s.toStore task)⟩

theorem Inv.exec (hs : s.Inv) (k : Handles.Source) (es : List Event) :
    ∃ s', Runs.exec (Server.step k) s es = some s' ∧ s'.Inv := by
  induction es generalizing s with
  | nil => exact ⟨s, rfl, hs⟩
  | cons e es ih =>
    obtain ⟨s₁, hstep, hs₁⟩ := hs.step k e
    obtain ⟨s', hrun, hs'⟩ := ih hs₁
    refine ⟨s', ?_, hs'⟩
    rw [Runs.exec_cons, hstep, Option.bind_some, hrun]

/-! ### Leaks -/

/-- The entry that a reply to a metering or state request takes the place of: the reply brings a
descriptor, and the entry is there already. -/
def overwritten (k : Handles.Source) (s : Server) (processorId reqFeature : String) (a : Answer) :
    Option OndemandData :=
  if a.code = some OnDemandResponseCode.ondemandSuccess.toInt ∧ a.dups = true ∧
      (k.allocate s.opened).isSome = true then
    s.ondemandList (processorId ++ reqFeature)
  else none

def replaced (k : Handles.Source) (s : Server) : Event → Option OndemandData
  | .reply request a =>
    match s.pending.find? fun p => p.request = request with
    | some ⟨_, .meterState processorId reqFeature⟩ => s.overwritten k processorId reqFeature a
    | _ => none
  | _ => none

theorem Got.lost_eq (h : s.Got s') : s'.lost = s.lost := by
  cases h with
  | respond _ _ _ hlost => exact hlost
  | call => rfl
  | deliver _ _ _ hlost => exact hlost

theorem lost_meterStateReply (k : Handles.Source) (s : Server) (request : ℕ)
    (processorId reqFeature : String) (a : Answer) :
    (s.meterStateReply k request processorId reqFeature a.code a.dups).lost =
      s.lost ∪ ((s.overwritten k processorId reqFeature a).map (·.fd)).toFinset := by
  unfold meterStateReply overwritten
  by_cases hcreates : a.code = some OnDemandResponseCode.ondemandSuccess.toInt ∧ a.dups = true ∧
      (k.allocate s.opened).isSome = true
  · obtain ⟨fd, hfd⟩ := Option.isSome_iff_exists.mp hcreates.2.2
    rw [if_pos hcreates]
    simp only [hcreates.1, hcreates.2.1, hfd, if_true]
    rfl
  · rw [if_neg hcreates, Option.map_none, Option.toFinset_none, Finset.union_empty]
    cases hcode : a.code with
    | none => rfl
    | some code =>
      by_cases hsuccess : code = OnDemandResponseCode.ondemandSuccess.toInt
      · subst hsuccess
        simp only [if_true]
        cases hfd : if a.dups then k.allocate s.opened else none with
        | none => rfl
        | some fd =>
          split_ifs at hfd with hdups
          exact absurd ⟨hcode, hdups, Option.isSome_iff_exists.mpr ⟨fd, hfd⟩⟩ hcreates
      · simp only [if_neg hsuccess]
        split_ifs <;> rfl

/-- A descriptor is lost just where its entry is overwritten. -/
theorem lost_reply (k : Handles.Source) (s : Server) (request : ℕ) (a : Answer) :
    (s.reply k request a).lost =
      s.lost ∪ ((s.replaced k (.reply request a)).map (·.fd)).toFinset := by
  have hsame : s.lost = s.lost ∪ ((none : Option OndemandData).map (·.fd)).toFinset :=
    (Finset.union_empty s.lost).symm
  unfold reply
  cases hfound : s.pending.find? fun p => p.request = request with
  | none =>
    simp only [replaced, hfound]
    exact hsame
  | some p =>
    obtain ⟨n, call⟩ := p
    simp only [replaced, hfound]
    cases call with
    | meterState processorId reqFeature =>
      exact lost_meterStateReply k { s with
        pending := s.pending.filter fun p => p.request ≠ request } request processorId reqFeature a
    | provisionDynamic processorId reqFeature objectPath =>
      cases a.featureEnabled <;> exact hsame

theorem Inv.lost_step (hs : s.Inv) {k : Handles.Source} {e : Event}
    (hstep : s.step k e = some s') :
    s'.lost = s.lost ∪ ((s.replaced k e).map (·.fd)).toFinset := by
  cases e with
  | get processorId reqFeature subtree file =>
    obtain ⟨s₁, hget, hgot⟩ := get_got hs.sound processorId reqFeature subtree file
    obtain rfl := Option.some.inj (hget.symm.trans hstep)
    exact hgot.lost_eq.trans (Finset.union_empty s.lost).symm
  | reply request a =>
    obtain rfl := Option.some.inj hstep
    exact lost_reply k s request a
  | signal m code =>
    obtain rfl := Option.some.inj hstep
    exact (Finset.union_empty s.lost).symm
  | timeout task =>
    obtain rfl := Option.some.inj hstep
    exact (Store.relabelled_timeout s.toStore task).lost.trans (Finset.union_empty s.lost).symm
  | evict task =>
    obtain rfl := Option.some.inj hstep
    exact (Finset.union_empty s.lost).symm

theorem Inv.lost_exec (hs : s.Inv) {k : Handles.Source} {es : List Event}
    (hrun : Runs.exec (Server.step k) s es = some s') :
    s.lost ⊆ s'.lost ∧ (s'.lost = ∅ ↔ s.lost = ∅ ∧
      Runs.ExecGuarded (Server.step k) (fun s e => s.replaced k e = none) s es) := by
  induction es generalizing s with
  | nil =>
    obtain rfl := Option.some.inj hrun
    exact ⟨Finset.Subset.refl _, (and_iff_left trivial).symm⟩
  | cons e es ih =>
    obtain ⟨s₁, hstep, hs₁⟩ := hs.step k e
    rw [Runs.exec_cons, hstep, Option.bind_some] at hrun
    have hlost := hs.lost_step hstep
    obtain ⟨hsub, hrest⟩ := ih hs₁ hrun
    refine ⟨?_, ?_⟩
    · exact Finset.Subset.trans (hlost ▸ Finset.subset_union_left) hsub
    · have hnone : (Option.map (·.fd) (s.replaced k e)).toFinset = ∅ ↔ s.replaced k e = none := by
        cases s.replaced k e <;> simp
      rw [hrest, hlost, Finset.union_eq_empty, hnone, and_assoc, Runs.ExecGuarded, hstep]

/-- The descriptor of an entry that was overwritten stays open, and no entry has it any more. -/
theorem Inv.leaks (hs : s.Inv) {k : Handles.Source} {e : Event} {es : List Event}
    (hrun : Runs.exec (Server.step k) s (e :: es) = some s') {o : OndemandData}
    (ho : s.replaced k e = some o) :
    o.fd ∈ s'.opened ∧ ∀ id o', s'.ondemandList id = some o' → o'.fd ≠ o.fd := by
  obtain ⟨s₁, hstep, hs₁⟩ := hs.step k e
  obtain ⟨s₂, hrun₂, hs₂⟩ := hs₁.exec k es
  rw [Runs.exec_cons, hstep, Option.bind_some] at hrun
  obtain rfl := Option.some.inj (hrun₂.symm.trans hrun)
  have hlost : o.fd ∈ s₂.lost := by
    apply (hs₁.lost_exec hrun).1
    rw [hs.lost_step hstep, ho]
    exact Finset.mem_union_right _ (Option.mem_toFinset.mpr rfl)
  refine ⟨(hs₂.sound.accounted.mem o.fd).mpr (.inr hlost), fun id o' ho' heq => ?_⟩
  exact hs₂.sound.accounted.apart (Store.holds_of_some ho') (heq ▸ hlost)

end Server

/-- In every run each entry has its descriptor open. Every open descriptor belongs to an entry
exactly if no reply has taken the place of an entry that was there, and the descriptor of an entry
whose place was taken stays open for good without one. -/
theorem run_descriptors (k : Handles.Source) (es : List Event) :
    ∃ s, Runs.exec (Server.step k) Server.init es = some s ∧
      (∀ id o, s.ondemandList id = some o → o.fd ∈ s.opened) ∧
      ((∀ fd ∈ s.opened, ∃ id o, s.ondemandList id = some o ∧ o.fd = fd) ↔
        Runs.ExecGuarded (Server.step k) (fun s e => s.replaced k e = none) Server.init es) ∧
      ∀ pre e post s₁ o, es = pre ++ e :: post →
        Runs.exec (Server.step k) Server.init pre = some s₁ → s₁.replaced k e = some o →
          o.fd ∈ s.opened ∧ ∀ id o', s.ondemandList id = some o' → o'.fd ≠ o.fd := by
  obtain ⟨s, hrun, hs⟩ := Server.inv_init.exec k es
  refine ⟨s, hrun, fun id o ho => hs.sound.mem_opened ho, ?_, ?_⟩
  · have hlost := (Server.inv_init.lost_exec hrun).2.trans (and_iff_right rfl)
    rw [← hlost, hs.sound.accounted.lost_eq_empty_iff]
    simp only [Store.holds, Option.map_eq_some_iff]
  · rintro pre e post s₁ o rfl hpre ho
    obtain ⟨s₂, hpre₂, hs₁⟩ := Server.inv_init.exec k pre
    obtain rfl := Option.some.inj (hpre₂.symm.trans hpre)
    rw [Runs.exec_append, hpre, Option.bind_some] at hrun
    exact hs₁.leaks hrun ho

/-- A request for the metering of `cpu0`. -/
def getMetering (file : FileAnswer) : Event :=
  .get "cpu0" "MeteringFeature" (some [("/xyz/openbmc_project/ondemand/cpu0", true)]) file

/-- Two clients ask before the service has answered the first. -/
def twoClients : List Event :=
  [getMetering ⟨false, [], 0⟩, getMetering ⟨false, [], 0⟩, .reply 0 ⟨some 1, true, none⟩]

theorem run_descriptors_twoClients :
    ∃ s, Runs.exec (Server.step (.lowest 16)) Server.init
        (twoClients ++ [.reply 1 ⟨some 1, true, none⟩]) = some s ∧
      0 ∈ s.opened ∧ ∀ id o, s.ondemandList id = some o → o.fd ≠ 0 := by
  obtain ⟨s, hrun, -, -, hleaks⟩ := run_descriptors (.lowest 16)
    (twoClients ++ [.reply 1 ⟨some 1, true, none⟩])
  obtain ⟨s₁, hs₁, ho⟩ := Option.bind_eq_some_iff.mp (show (Runs.exec (Server.step (.lowest 16))
    Server.init twoClients).bind (·.replaced (.lowest 16) (.reply 1 ⟨some 1, true, none⟩)) =
      some ⟨0, false, false, false, 0⟩ by decide +kernel)
  exact ⟨s, hrun, hleaks _ _ [] _ _ rfl hs₁ ho⟩

/-- Every request is answered once or waits for its call; a page with data shows a measurement that
no other page shows, after a signal for it, and says "Enabled" if a signal reported success. -/
theorem run_answers (k : Handles.Source) (es : List Event) :
    ∃ s, Runs.exec (Server.step k) Server.init es = some s ∧
      (s.responses.map Prod.fst ++ s.pending.map (·.request)).Perm (List.range s.requests) ∧
      (s.deliveries.map (·.task)).Nodup ∧
      (∀ r f, (r, Response.meterState f) ∈ s.responses → f.featureData ≠ [] →
        ∃ d ∈ s.deliveries, d.request = r ∧ d.feature = f) ∧
      ∀ d ∈ s.deliveries, d.codes ≠ [] ∧ (d.feature.enabled = true ↔
        d.feature.featureData ≠ [] ∧ OnDemandResponseCode.ondemandSuccess.toInt ∈ d.codes) := by
  obtain ⟨s, hrun, hs⟩ := Server.inv_init.exec k es
  exact ⟨s, hrun, hs.answered, hs.sound.once, hs.truthful.shown, hs.sound.right⟩

/-- A client asks, the measurement completes, and it asks again. -/
def oneClient : List Event :=
  [getMetering ⟨false, [], 0⟩, .reply 0 ⟨some 1, true, none⟩,
    .signal (signalMatchStr "cpu0" "MeteringFeature") 1, getMetering ⟨true, [[7], [8]], 0⟩]

theorem run_answers_oneClient :
    ∃ s, Runs.exec (Server.step (.lowest 16)) Server.init oneClient = some s ∧
      ∃ d ∈ s.deliveries, d.request = 1 ∧ d.codes ≠ [] ∧ d.feature.featureData = [7, 8] := by
  obtain ⟨s, hrun, -, -, hshown, hright⟩ := run_answers (.lowest 16) oneClient
  obtain ⟨s₁, hs₁, hpage⟩ := Option.bind_eq_some_iff.mp (show (Runs.exec
    (Server.step (.lowest 16)) Server.init oneClient).bind (·.responses[1]?) =
      some (1, .meterState ⟨processorsPath ++ "cpu0/Oem/Intel/MeteringFeature",
        processorsPath ++ "cpu0", "MeteringFeature", "cpu0MeteringFeature", true, [7, 8]⟩)
      by decide +kernel)
  obtain rfl := Option.some.inj (hs₁.symm.trans hrun)
  obtain ⟨d, hd, hrequest, hfeature⟩ :=
    hshown _ _ (List.mem_of_getElem? hpage) (List.cons_ne_nil 7 [8])
  exact ⟨s₁, hrun, d, hd, hrequest, (hright d hd).1, by rw [hfeature]⟩

end MetaCommon.OnDemand
