import MetaCommon.Kafka.KafkaManager
import MetaCommon.Lib.Runs

/-!
# Memory, file and backend

The subscriptions in the map, those in the file, and those that were created and not deleted should
be the same, and only a success should change them. An update removes its subscription before the
backend is asked, and a restart begins with an empty map, so runs keep them the same exactly if
neither finds a subscription to lose.
-/

namespace MetaCommon.Kafka

open Runs

/-! ### The file is read as it was written -/

theorem readElement_writeElement (subId : String) (subData : KafkaConfig) :
    readElement (writeElement subId subData) = (subId, subData) := by
  unfold readElement writeElement
  simp only [List.foldl_cons, List.foldl_nil, readMember]
  simp [subData.schemaId.isLt, subData.sInterval.isLt]

namespace KafkaManager

/-- The subscriptions in the file. -/
def stored (m : KafkaManager) : List (String × KafkaConfig) := m.file.map readElement

/-- The map and the file have the same subscriptions, which are those that were created and not
deleted. -/
structure Consistent (m : KafkaManager) : Prop where
  stored : m.stored = m.subscriptionsMap.entries
  alive : ∀ subId, subId ∈ m.alive ↔ subId ∈ m.subscriptionsMap.keys

/-- The subscriptions in the map and in the file are as they were. -/
def Unchanged (m m' : KafkaManager) : Prop :=
  m'.subscriptionsMap = m.subscriptionsMap ∧ m'.file = m.file

end KafkaManager

/-- A success of the backend, or a restart: all other steps belong to the validation or to a
failure. -/
def Event.Succeeds : Event → Prop
  | .backend _ ok _ => ok = true
  | .restart _ => True
  | _ => False

section Steps

variable (parseUri : String → Except UrlError UrlView) (depth : ℕ)

/-- What a step should do. -/
def Right (m : KafkaManager) (e : Event) : Prop :=
  (step parseUri depth m e).Consistent ∧ (¬ e.Succeeds → m.Unchanged (step parseUri depth m e))

/-- No subscription is lost or comes back, and what is written to the file gets there. A create
without "Oem" crashes, and so does one with a destination that exhausts the stack. -/
def Admissible (m : KafkaManager) : Event → Prop
  | .create r _ => r.oem = none ∨ createSubscription parseUri depth r = .error .crashed →
      m.subscriptionsMap.entries = []
  | .update subId body => ∀ subData ∈ m.subscriptionsMap.lookup subId,
      updateSubscription parseUri depth subData body ≠ .error .crashed
  | .delete _ => True
  | .certificate place ok => ok = true → ∀ subId subData,
      m.calls[place]? = some (.certificate .update subId subData) →
      KafkaManager.brokers subData = [] ∨ subId ∉ m.subscriptionsMap.keys
  | .backend place ok opens => ok = true → ∀ c ∈ m.calls[place]?, match c with
    | .backend .create subId _ => opens = true ∨ subId ∈ m.subscriptionsMap.keys
    | .backend _ subId _ => subId ∈ m.subscriptionsMap.keys
    | .remove subId => opens = true ∨ subId ∉ m.subscriptionsMap.keys
    | .certificate _ _ _ => True
  | .restart _ => m.subscriptionsMap.entries = []

end Steps

namespace KafkaManager

variable {m : KafkaManager}

@[simp] theorem call_subscriptionsMap (c : Call) :
    (m.call c).subscriptionsMap = m.subscriptionsMap := rfl
@[simp] theorem call_file (c : Call) : (m.call c).file = m.file := rfl
@[simp] theorem call_alive (c : Call) : (m.call c).alive = m.alive := rfl

/-- Map, file and what is alive are as they were; only the calls may be others. -/
def SameStore (m m' : KafkaManager) : Prop := m.Unchanged m' ∧ m'.alive = m.alive

theorem SameStore.consistent_iff {m' : KafkaManager} (h : m.SameStore m') :
    m'.Consistent ↔ m.Consistent := by
  obtain ⟨⟨hmap, hfile⟩, halive⟩ := h
  constructor
  · rintro ⟨hstored, ha⟩
    unfold KafkaManager.stored at hstored
    rw [hmap, hfile] at hstored
    rw [hmap, halive] at ha
    exact ⟨hstored, ha⟩
  · rintro ⟨hstored, ha⟩
    constructor
    · unfold KafkaManager.stored
      rw [hmap, hfile]
      exact hstored
    · rw [hmap, halive]
      exact ha

theorem SameStore.keeps {m' : KafkaManager} (h : m.SameStore m') (hm : m.Consistent) :
    m'.Consistent ∧ m.Unchanged m' :=
  ⟨h.consistent_iff.mpr hm, h.1⟩

theorem sameStore_refl (m : KafkaManager) : m.SameStore m := ⟨⟨rfl, rfl⟩, rfl⟩

theorem sameStore_call (c : Call) : m.SameStore (m.call c) := ⟨⟨rfl, rfl⟩, rfl⟩

theorem sameStore_getCertificate (op : Operation) (subId : String) (subData : KafkaConfig) :
    m.SameStore (m.getCertificate op subId subData) := by
  unfold getCertificate
  split
  · exact sameStore_call _
  · exact sameStore_refl m

theorem sameStore_readJsonAndAddToMap (j : Element) : m.SameStore (m.readJsonAndAddToMap j) := by
  unfold readJsonAndAddToMap
  dsimp only
  split
  · exact sameStore_refl m
  · exact sameStore_getCertificate _ _ _

theorem SameStore.trans {m' m'' : KafkaManager} (h : m.SameStore m') (h' : m'.SameStore m'') :
    m.SameStore m'' :=
  ⟨⟨h'.1.1.trans h.1.1, h'.1.2.trans h.1.2⟩, h'.2.trans h.2⟩

theorem sameStore_foldl (js : List Element) : m.SameStore (js.foldl readJsonAndAddToMap m) := by
  induction js generalizing m with
  | nil => exact sameStore_refl m
  | cons j js ih => exact (sameStore_readJsonAndAddToMap j).trans ih

/-- A new process has the file and an empty map. -/
theorem restart_sameStore (opens : Bool) :
    KafkaManager.SameStore { m with subscriptionsMap := .empty, calls := [] } (m.restart opens) := by
  unfold restart
  dsimp only
  split
  · exact sameStore_foldl m.file
  · exact sameStore_refl _

theorem restart_consistent_iff (hm : m.Consistent) (opens : Bool) :
    (m.restart opens).Consistent ↔ m.subscriptionsMap.entries = [] := by
  rw [(restart_sameStore opens).consistent_iff]
  constructor
  · intro h
    rw [← hm.stored]
    exact h.stored
  · intro hentries
    refine ⟨?_, fun subId => ?_⟩
    · change m.stored = []
      rw [hm.stored, hentries]
    · change subId ∈ m.alive ↔ subId ∈ []
      rw [hm.alive]
      unfold FlatMap.keys
      rw [hentries]
      rfl

theorem restart_unchanged (opens : Bool) (hentries : m.subscriptionsMap.entries = []) :
    m.Unchanged (m.restart opens) := by
  obtain ⟨⟨hmap, hfile⟩, -⟩ := restart_sameStore (m := m) opens
  refine ⟨?_, hfile⟩
  rw [hmap]
  obtain ⟨⟨entries, hsorted⟩, file, calls, alive⟩ := m
  obtain rfl : entries = [] := hentries
  rfl

/-! ### Writing -/

@[simp] theorem writeToFile_subscriptionsMap (opens : Bool) :
    (m.writeToFile opens).subscriptionsMap = m.subscriptionsMap := by
  unfold writeToFile
  split <;> rfl

@[simp] theorem writeToFile_alive (opens : Bool) : (m.writeToFile opens).alive = m.alive := by
  unfold writeToFile
  split <;> rfl

theorem stored_writeToFile (opens : Bool) :
    (m.writeToFile opens).stored = if opens then m.subscriptionsMap.entries else m.stored := by
  unfold writeToFile KafkaManager.stored
  cases opens with
  | false => rfl
  | true =>
    simp only [if_true, List.map_map]
    rw [List.map_congr_left (g := id) fun e _ => readElement_writeElement e.1 e.2, List.map_id]

/-- The file shows a map that has just been written, or the map is the one it was before. -/
theorem written_iff {s : KafkaManager} {opens : Bool} (hm : m.Consistent)
    (hstored : s.stored = if opens then s.subscriptionsMap.entries else m.stored)
    (halive : ∀ subId, subId ∈ s.alive ↔ subId ∈ s.subscriptionsMap.keys) :
    s.Consistent ↔ opens = true ∨ s.subscriptionsMap = m.subscriptionsMap := by
  have hconsistent : s.Consistent ↔ s.stored = s.subscriptionsMap.entries :=
    ⟨fun h => h.stored, fun h => ⟨h, halive⟩⟩
  rw [hconsistent, hstored]
  cases opens with
  | true => simp
  | false =>
    rw [if_neg Bool.false_ne_true, hm.stored, or_iff_right Bool.false_ne_true]
    exact ⟨fun h => FlatMap.eq_of_entries_eq h.symm, fun h => by rw [h]⟩

end KafkaManager

open KafkaManager

section Successes

variable {m : KafkaManager} {subId : String} {subData : KafkaConfig}

theorem restored_iff (hm : m.Consistent) :
    (m.insert subId subData).Consistent ↔ subId ∈ m.subscriptionsMap.keys := by
  constructor
  · intro h
    rw [← hm.alive]
    exact (h.alive subId).mpr (FlatMap.mem_keys_insert.mpr (.inl rfl))
  · intro hmem
    have heq : m.insert subId subData = m := by
      unfold KafkaManager.insert
      rw [FlatMap.insert_of_mem _ hmem]
    rw [heq]
    exact hm

theorem updated_iff (hm : m.Consistent) (opens : Bool) :
    ((m.insert subId subData).writeToFile opens).Consistent ↔ subId ∈ m.subscriptionsMap.keys := by
  constructor
  · intro h
    rw [← hm.alive]
    have := (h.alive subId).mpr
    rw [writeToFile_subscriptionsMap, writeToFile_alive] at this
    exact this (FlatMap.mem_keys_insert.mpr (.inl rfl))
  · intro hmem
    have hinsert : (m.insert subId subData).Consistent := (restored_iff hm).mpr hmem
    refine ⟨?_, ?_⟩
    · rw [stored_writeToFile, writeToFile_subscriptionsMap, hinsert.stored, ite_self]
    · rw [writeToFile_subscriptionsMap, writeToFile_alive]
      exact hinsert.alive

theorem created_iff (hm : m.Consistent) (opens : Bool) :
    (m.afterBackend .create subId subData opens).Consistent ↔
      opens = true ∨ subId ∈ m.subscriptionsMap.keys := by
  have hmap : (m.afterBackend .create subId subData opens).subscriptionsMap =
      m.subscriptionsMap.insert subId subData := writeToFile_subscriptionsMap _
  have hstored : (m.afterBackend .create subId subData opens).stored =
      if opens then (m.subscriptionsMap.insert subId subData).entries else m.stored :=
    stored_writeToFile _
  rw [written_iff hm (by rw [hmap, hstored]), hmap, FlatMap.insert_eq_self_iff]
  intro id
  rw [hmap, FlatMap.mem_keys_insert, ← hm.alive]
  exact List.mem_cons

theorem removed_iff (hm : m.Consistent) (opens : Bool) :
    (m.afterRemove subId opens).Consistent ↔ opens = true ∨ subId ∉ m.subscriptionsMap.keys := by
  have hmap : (m.afterRemove subId opens).subscriptionsMap = m.subscriptionsMap.erase subId :=
    writeToFile_subscriptionsMap _
  have hstored : (m.afterRemove subId opens).stored =
      if opens then (m.subscriptionsMap.erase subId).entries else m.stored := stored_writeToFile _
  rw [written_iff hm (by rw [hmap, hstored]), hmap, FlatMap.erase_eq_self_iff]
  intro id
  rw [hmap, FlatMap.mem_keys_erase, ← hm.alive, and_comm]
  simp [afterRemove]

theorem certificate_iff (hm : m.Consistent) (op : Operation) :
    ((m.afterCertGet op subId subData).Consistent ∧ m.Unchanged (m.afterCertGet op subId subData)) ↔
      (op = .update → brokers subData = [] ∨ subId ∉ m.subscriptionsMap.keys) := by
  cases op with
  | restore => exact iff_of_true ((sameStore_call _).keeps hm) (by simp)
  | create =>
    refine iff_of_true (SameStore.keeps ?_ hm) (by simp)
    unfold afterCertGet
    dsimp only
    split
    · exact sameStore_refl m
    · exact sameStore_call _
  | update =>
    simp only [afterCertGet, true_imp_iff]
    by_cases hbrokers : brokers subData = []
    · rw [if_pos hbrokers]
      exact iff_of_true ((sameStore_refl m).keeps hm) (.inl hbrokers)
    · rw [if_neg hbrokers, or_iff_right hbrokers]
      constructor
      · rintro ⟨h, -⟩ hmem
        have hnot : subId ∉ (m.subscriptionsMap.erase subId).keys :=
          fun h => (FlatMap.mem_keys_erase.mp h).1 rfl
        exact hnot ((h.alive subId).mp ((hm.alive subId).mpr hmem))
      · intro hmem
        refine SameStore.keeps ⟨⟨?_, rfl⟩, rfl⟩ hm
        exact FlatMap.erase_eq_self_iff.mpr hmem

end Successes

/-! ### Runs -/

section Runs

variable (parseUri : String → Except UrlError UrlView) (depth : ℕ)

section Step

variable {m : KafkaManager}

theorem consistent_eraseCall (hm : m.Consistent) (place : ℕ) :
    KafkaManager.Consistent { m with calls := m.calls.eraseIdx place } :=
  ⟨hm.stored, hm.alive⟩

/-- A crash starts the program anew. -/
theorem crash_right_iff (hm : m.Consistent) :
    (m.restart true).Consistent ∧ m.Unchanged (m.restart true) ↔
      m.subscriptionsMap.entries = [] := by
  rw [restart_consistent_iff hm, and_iff_left_of_imp]
  exact restart_unchanged true

theorem createSubscription_of_oem_none {r : CreateRequest} (h : r.oem = none) :
    createSubscription parseUri depth r = .error .crashed := by
  unfold createSubscription
  rw [h]
  rfl

theorem create_right_iff (hm : m.Consistent) (r : CreateRequest) (subId : String) :
    Right parseUri depth m (.create r subId) ↔ Admissible parseUri depth m (.create r subId) := by
  simp only [Right, Admissible, step, Event.Succeeds, not_false_eq_true, true_imp_iff]
  rw [or_iff_right_of_imp (createSubscription_of_oem_none parseUri depth)]
  cases hcreate : createSubscription parseUri depth r with
  | error failure =>
    cases failure with
    | rejected message => exact iff_of_true ((sameStore_refl m).keeps hm) (by simp)
    | crashed => exact (crash_right_iff hm).trans ⟨fun h _ => h, fun h => h rfl⟩
  | ok subData =>
    refine iff_of_true (SameStore.keeps ?_ hm) (by simp)
    dsimp only
    split
    · exact sameStore_refl m
    · exact sameStore_getCertificate _ _ _

theorem update_right_iff (hm : m.Consistent) (subId : String) (body : Option PatchBody) :
    Right parseUri depth m (.update subId body) ↔
      Admissible parseUri depth m (.update subId body) := by
  simp only [Right, Admissible, step, Event.Succeeds, not_false_eq_true, true_imp_iff]
  cases hlookup : m.subscriptionsMap.lookup subId with
  | none => exact iff_of_true ((sameStore_refl m).keeps hm) (by simp)
  | some subData =>
    simp only [Option.mem_some_iff, forall_eq']
    cases hupdate : updateSubscription parseUri depth subData body with
    | error failure =>
      cases failure with
      | rejected message => exact iff_of_true ((sameStore_refl m).keeps hm) (by simp)
      | crashed =>
        -- the map is not empty, so the new process lacks a subscription
        refine (crash_right_iff hm).trans (iff_of_false ?_ (by simp))
        intro hentries
        simp [FlatMap.lookup, hentries] at hlookup
    | ok subData => exact iff_of_true ((sameStore_getCertificate _ _ _).keeps hm) (by simp)

theorem certificate_right_iff (hm : m.Consistent) (place : ℕ) (ok : Bool) :
    Right parseUri depth m (.certificate place ok) ↔
      Admissible parseUri depth m (.certificate place ok) := by
  simp only [Right, Admissible, step, Event.Succeeds, not_false_eq_true, true_imp_iff]
  cases hcall : m.calls[place]? with
  | none => exact iff_of_true ((sameStore_refl m).keeps hm) (by simp)
  | some c =>
    cases c with
    | certificate op subId subData =>
      cases ok with
      | false => exact iff_of_true ⟨consistent_eraseCall hm place, rfl, rfl⟩ (by simp)
      | true =>
        simp only [if_true, true_imp_iff, Option.some_inj, Call.certificate.injEq]
        refine (certificate_iff (consistent_eraseCall hm place) op).trans ?_
        constructor
        · rintro h _ _ ⟨rfl, rfl, rfl⟩
          exact h rfl
        · rintro h rfl
          exact h subId subData ⟨rfl, rfl, rfl⟩
    | backend op subId subData => exact iff_of_true ((sameStore_refl m).keeps hm) (by simp)
    | remove subId => exact iff_of_true ((sameStore_refl m).keeps hm) (by simp)

theorem backend_right_iff (hm : m.Consistent) (place : ℕ) (ok opens : Bool) :
    Right parseUri depth m (.backend place ok opens) ↔
      Admissible parseUri depth m (.backend place ok opens) := by
  simp only [Right, Admissible, step, Event.Succeeds]
  have herase := consistent_eraseCall hm place
  cases ok with
  | false =>
    refine iff_of_true ?_ (by simp)
    cases hcall : m.calls[place]? with
    | none => exact ⟨hm, fun _ => ⟨rfl, rfl⟩⟩
    | some c =>
      cases c with
      | certificate op subId subData => exact ⟨hm, fun _ => ⟨rfl, rfl⟩⟩
      | backend op subId subData => exact ⟨herase, fun _ => ⟨rfl, rfl⟩⟩
      | remove subId => exact ⟨herase, fun _ => ⟨rfl, rfl⟩⟩
  | true =>
    simp only [not_true, false_imp_iff, and_true, true_imp_iff, if_true]
    cases hcall : m.calls[place]? with
    | none => exact iff_of_true hm (by simp)
    | some c =>
      simp only [Option.mem_some_iff, forall_eq']
      cases c with
      | certificate op subId subData => exact iff_of_true hm trivial
      | remove subId => exact removed_iff herase opens
      | backend op subId subData =>
        cases op with
        | create => exact created_iff herase opens
        | update => exact updated_iff herase opens
        | restore => exact restored_iff herase

end Step

/-- A step keeps map, file and backend the same exactly if the event is admissible. -/
theorem right_iff_admissible {m : KafkaManager} (hm : m.Consistent) (e : Event) :
    Right parseUri depth m e ↔ Admissible parseUri depth m e := by
  cases e with
  | create r subId => exact create_right_iff parseUri depth hm r subId
  | update subId body => exact update_right_iff parseUri depth hm subId body
  | delete subId =>
    simp only [Right, Admissible, step, Event.Succeeds, not_false_eq_true, true_imp_iff]
    cases m.subscriptionsMap.lookup subId with
    | none => exact iff_of_true ((sameStore_refl m).keeps hm) trivial
    | some subData => exact iff_of_true ((sameStore_call _).keeps hm) trivial
  | certificate place ok => exact certificate_right_iff parseUri depth hm place ok
  | backend place ok opens => exact backend_right_iff parseUri depth hm place ok opens
  | restart opens =>
    simp only [Right, Admissible, step, Event.Succeeds, not_true, false_imp_iff, and_true]
    exact restart_consistent_iff hm opens

theorem start_consistent : KafkaManager.start.Consistent :=
  ⟨rfl, fun _ => Iff.rfl⟩

/-- In a run every step does what it should exactly if every event is admissible. -/
theorem run_right_iff (es : List Event) :
    Guarded (step parseUri depth) (Right parseUri depth) .start es ↔
      Guarded (step parseUri depth) (Admissible parseUri depth) .start es := by
  apply guarded_congr (I := KafkaManager.Consistent)
  · intro m e hm he
    exact ((right_iff_admissible parseUri depth hm e).mpr he).1
  · intro m e hm
    exact right_iff_admissible parseUri depth hm e
  · exact start_consistent

end Runs

/-- Once its certificate is read, an update has removed the subscription that it is for. -/
theorem not_run_right :
    ¬ ∀ (parseUri : String → Except UrlError UrlView) (depth : ℕ) (es : List Event),
      Guarded (step parseUri depth) (Right parseUri depth) .start es := by
  intro h
  have hg := h (fun _ => .ok ⟨true, "ssl", false, "broker:9092"⟩) 1
    [.create ⟨"ssl://broker:9092", none, some (some ⟨none, "topic", 1, 1000, uriBase ++ "1"⟩)⟩ "7",
      .certificate 0 true, .backend 0 true true,
      .update "7" (some ⟨none, none, some (some (some ⟨none, some "other", none, none, none⟩))⟩),
      .certificate 0 true]
  have hkeys := (hg.2.2.2.2.1.1.alive "7").mp (by decide)
  revert hkeys
  decide

end MetaCommon.Kafka
