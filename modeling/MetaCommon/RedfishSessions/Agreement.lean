import MetaCommon.RedfishSessions.Handlers

/-!
# Which sessions are found and removed

The three handlers agree on an id that belongs to the store. On another one they do if the object
that a GET takes for its session has the id for its last element, and if a GET does take an object
where one has it.
-/

namespace MetaCommon.RedfishSessions

variable {σ : Type} [SessionStore σ]

/-- The path is one that the collection lists under the id. -/
def Names (path sessionId : Text) : Prop :=
  filename path = sessionId ∧ sessionId ≠ [] ∧ sessionId ≠ ['0']

def Bus.objects (bus : Bus) : List (Text × List (Text × List Text)) := bus.subtree.getD []

/-- The properties of an object can be read, and are those of the answer. -/
def Bus.Reads (bus : Bus) (sessionId : Text) (o : Text × List (Text × List Text))
    (object : SessionObject) : Prop :=
  ∃ service rest, o.2 = service :: rest ∧
    getIpmiSession bus sessionId service.1 o.1 = .session (.ipmi o.1) object

/-- The properties are those of the session with the id. -/
def Describes (store : σ) (bus : Bus) (sessionId : Text) (object : SessionObject) :
    Described → Prop
  | .redfish session =>
    session ∈ sessions store ∧ session.uniqueId = sessionId ∧ object = fillSessionObject session
  | .ipmi path =>
    filename path = sessionId ∧ ∃ o ∈ bus.objects, o.1 = path ∧ bus.Reads sessionId o object

/-- A GET succeeds for the ids of the collection, and describes the session with the id. -/
structure GetRight (store : σ) (bus : Bus) (sessionId : Text) : Prop where
  listed : (∃ d object, handleSessionGet store bus sessionId = .session d object) ↔
    sessionUri sessionId ∈ (handleSessionCollectionGet store bus).members
  describes : ∀ d object, handleSessionGet store bus sessionId = .session d object →
    Describes store bus sessionId object d

/-- A DELETE succeeds by removing a session of the store with the id, and otherwise answers an error
and removes nothing. -/
def DeleteRight (store : σ) (bus : Bus) (getUserPrivileges : UserSession → List String)
    (reqSession : Option UserSession) (sessionId : Text) : Prop :=
  ∃ store' reply,
    handleSessionDelete store bus getUserPrivileges reqSession sessionId = some (store', reply) ∧
      ((reply = .success ∧ ∃ session ∈ sessions store, session.uniqueId = sessionId ∧
          ∀ s, s ∈ sessions store' ↔ s ∈ sessions store ∧ s ≠ session) ∨
        ∃ message, reply = .error message ∧ store' = store)

/-! ### The store -/

/-- The store has a session with the id. -/
def Has (store : σ) (sessionId : Text) : Prop :=
  ∃ session ∈ sessions store, session.uniqueId = sessionId

variable {store : σ} {bus : Bus} {sessionId : Text}

theorem has_of_some {session : UserSession}
    (h : getSessionByUid store sessionId = some session) : Has store sessionId :=
  ⟨session, getSessionByUid_of_some h⟩

theorem not_has_of_none (h : getSessionByUid store sessionId = none) : ¬ Has store sessionId := by
  rintro ⟨session, hmem, huid⟩
  exact getSessionByUid_of_none h session hmem huid

/-! ### The collection -/

theorem sessionUri_injective : Function.Injective sessionUri := fun _ _ h =>
  List.append_cancel_left h

theorem mem_members_iff :
    sessionUri sessionId ∈ (handleSessionCollectionGet store bus).members ↔
      Has store sessionId ∨ ∃ o ∈ bus.objects, Names o.1 sessionId := by
  have hstore : sessionUri sessionId ∈ (getUniqueIds store).map sessionUri ↔
      Has store sessionId := by
    rw [List.mem_map_of_injective sessionUri_injective, mem_getUniqueIds, Has]
  have hipmi (paths : List Text) : sessionUri sessionId ∈
      ((paths.map filename).filter fun id => id ≠ [] ∧ id ≠ ['0']).map sessionUri ↔
        ∃ path ∈ paths, Names path sessionId := by
    rw [List.mem_map_of_injective sessionUri_injective, List.mem_filter, List.mem_map,
      decide_eq_true_iff]
    constructor
    · rintro ⟨⟨path, hpath, hname⟩, hne⟩
      exact ⟨path, hpath, hname, hne⟩
    · rintro ⟨path, hpath, hname, hne⟩
      exact ⟨⟨path, hpath, hname⟩, hne⟩
  unfold handleSessionCollectionGet Bus.getSubTreePaths Bus.objects
  rcases bus.subtree with _ | _ | ⟨o, subtree⟩
  · simp [hstore]
  · simp [hstore]
  · simp only [Option.map_some, Option.getD_some, List.map_eq_nil_iff, List.cons_ne_nil, if_false,
      List.mem_append, hstore, hipmi, List.mem_map, exists_exists_and_eq_and]

/-! ### GET -/

/-- A GET of an id that is not of the store takes this object, and gets its properties. -/
def Bus.Answers (bus : Bus) (sessionId : Text) (o : Text × List (Text × List Text)) : Prop :=
  bus.objects.find? (fun o => Matches sessionId o) = some o ∧
    ∃ object, bus.Reads sessionId o object

theorem getIpmiSession_eq_session {service path : Text} {d : Described} {object : SessionObject}
    (h : getIpmiSession bus sessionId service path = .session d object) : d = .ipmi path := by
  unfold getIpmiSession at h
  split_ifs at h
  split at h
  · cases h
  · split at h
    · cases h
    · exact (GetReply.session.inj h).1.symm

theorem handleSessionGet_of_none (h : getSessionByUid store sessionId = none) {d : Described}
    {object : SessionObject} :
    handleSessionGet store bus sessionId = .session d object ↔
      ∃ o, bus.objects.find? (fun o => Matches sessionId o) = some o ∧ d = .ipmi o.1 ∧
        bus.Reads sessionId o object := by
  unfold handleSessionGet Bus.objects Bus.Reads
  rw [h]
  rcases bus.subtree with _ | _ | ⟨first, subtree⟩
  · simp
  · simp
  · simp only [Option.getD_some, List.cons_ne_nil, if_false]
    cases hfind : (first :: subtree).find? (fun o => Matches sessionId o) with
    | none => simp
    | some o =>
      obtain ⟨path, object'⟩ := o
      rcases object' with _ | ⟨⟨service, interfaces⟩, rest⟩
      · simp
      · constructor
        · intro hget
          obtain rfl := getIpmiSession_eq_session hget
          exact ⟨_, rfl, rfl, _, _, rfl, hget⟩
        · rintro ⟨_, ⟨rfl⟩, rfl, _, _, ⟨rfl⟩, hget⟩
          exact hget

/-- Whether the GET of an id is right: the object it takes has the id, and an object with the id
is not passed over. -/
def GetClear (store : σ) (bus : Bus) (sessionId : Text) : Prop :=
  Has store sessionId ∨
    (∀ o, bus.Answers sessionId o → Names o.1 sessionId) ∧
      ((∃ o ∈ bus.objects, Names o.1 sessionId) → ∃ o, bus.Answers sessionId o)

theorem getRight_of_has (h : Has store sessionId) : GetRight store bus sessionId := by
  cases hget : getSessionByUid store sessionId with
  | none => exact absurd h (not_has_of_none hget)
  | some session =>
    have hreply : handleSessionGet store bus sessionId =
        .session (.redfish session) (fillSessionObject session) := by
      rw [handleSessionGet, hget]
    constructor
    · exact ⟨fun _ => mem_members_iff.mpr (Or.inl h), fun _ => ⟨_, _, hreply⟩⟩
    · intro d object heq
      obtain ⟨rfl, rfl⟩ := GetReply.session.inj (hreply.symm.trans heq)
      obtain ⟨hmem, huid⟩ := getSessionByUid_of_some hget
      exact ⟨hmem, huid, rfl⟩

theorem getRight_iff : GetRight store bus sessionId ↔ GetClear store bus sessionId := by
  cases hget : getSessionByUid store sessionId with
  | some session =>
    have hhas := has_of_some hget
    exact ⟨fun _ => Or.inl hhas, fun _ => getRight_of_has hhas⟩
  | none =>
    have hhas := not_has_of_none hget
    have hanswers : (∃ d object, handleSessionGet store bus sessionId = .session d object) ↔
        ∃ o, bus.Answers sessionId o := by
      simp only [handleSessionGet_of_none hget, Bus.Answers]
      constructor
      · rintro ⟨_, object, o, hfind, -, hreads⟩
        exact ⟨o, hfind, object, hreads⟩
      · rintro ⟨o, hfind, object, hreads⟩
        exact ⟨_, object, o, hfind, rfl, hreads⟩
    rw [GetClear, or_iff_right hhas]
    constructor
    · rintro ⟨hlisted, hdescribes⟩
      rw [hanswers, mem_members_iff, or_iff_right hhas] at hlisted
      refine ⟨fun o ho => ?_, hlisted.mpr⟩
      obtain ⟨hfind, object, hreads⟩ := ho
      obtain ⟨hname, -⟩ := hdescribes (.ipmi o.1) object
        ((handleSessionGet_of_none hget).mpr ⟨o, hfind, rfl, hreads⟩)
      obtain ⟨o', -, hnames⟩ := hlisted.mp ⟨o, hfind, object, hreads⟩
      exact ⟨hname, hnames.2⟩
    · rintro ⟨hnames, hfound⟩
      constructor
      · rw [hanswers, mem_members_iff, or_iff_right hhas]
        exact ⟨fun ⟨o, ho⟩ => ⟨o, List.mem_of_find?_eq_some ho.1, hnames o ho⟩, hfound⟩
      · intro d object hreply
        obtain ⟨o, hfind, rfl, hreads⟩ := (handleSessionGet_of_none hget).mp hreply
        exact ⟨(hnames o ⟨hfind, object, hreads⟩).1, o, List.mem_of_find?_eq_some hfind, rfl,
          hreads⟩

/-! ### DELETE -/

def DeleteClear (store : σ) (bus : Bus) (reqSession : Option UserSession)
    (sessionId : Text) : Prop :=
  (Has store sessionId ∧ reqSession ≠ none) ∨ (¬ Has store sessionId ∧ bus.subtree ≠ some [])

theorem deleteRight_iff {getUserPrivileges : UserSession → List String}
    {reqSession : Option UserSession} :
    DeleteRight store bus getUserPrivileges reqSession sessionId ↔
      DeleteClear store bus reqSession sessionId := by
  unfold DeleteRight DeleteClear handleSessionDelete
  cases hget : getSessionByUid store sessionId with
  | some session =>
    have hhas := has_of_some hget
    obtain ⟨hmem, huid⟩ := getSessionByUid_of_some hget
    cases reqSession with
    | none => simp [hhas]
    | some requester =>
      refine iff_of_true ?_ (Or.inl ⟨hhas, by simp⟩)
      dsimp only
      split_ifs
      · exact ⟨_, _, rfl, Or.inr ⟨_, rfl, rfl⟩⟩
      · exact ⟨_, _, rfl, Or.inl ⟨rfl, session, hmem, huid, mem_removeSession hmem⟩⟩
  | none =>
    have hhas := not_has_of_none hget
    unfold Bus.getSubTreePaths
    rcases bus.subtree with _ | _ | ⟨first, subtree⟩
    · simp [hhas]
    · simp [hhas]
    · refine iff_of_true ?_ (Or.inr ⟨hhas, by simp⟩)
      simp only [Option.map_some, List.map_cons, List.cons_ne_nil, if_false]
      split_ifs
      · exact ⟨_, _, rfl, Or.inr ⟨_, rfl, rfl⟩⟩
      · exact ⟨_, _, rfl, Or.inr ⟨_, rfl, rfl⟩⟩

/-- Both requests are right for an id exactly if they are for the reasons above. -/
theorem handlers_right_iff (store : σ) (bus : Bus)
    (getUserPrivileges : UserSession → List String) (reqSession : Option UserSession)
    (sessionId : Text) :
    GetRight store bus sessionId ∧
        DeleteRight store bus getUserPrivileges reqSession sessionId ↔
      GetClear store bus sessionId ∧ DeleteClear store bus reqSession sessionId :=
  and_congr getRight_iff deleteRight_iff

/-- A GET of `81` describes the IPMI session `8f6234d7_81`. -/
theorem not_handlers_right :
    ¬ ∀ (store : TokenMap) (bus : Bus) (getUserPrivileges : UserSession → List String)
      (reqSession : Option UserSession) (sessionId : Text),
      GetRight store bus sessionId ∧
        DeleteRight store bus getUserPrivileges reqSession sessionId := by
  intro h
  let path := "/xyz/openbmc_project/ipmi/session/eth0/8f6234d7_81".toList
  let service := "xyz.openbmc_project.Ipmi.Channel.eth0".toList
  let bus : Bus := ⟨some [(path, [(service, [])])], fun _ _ => some
    [("Username".toList, .string "root".toList), ("RemoteIPAddr".toList, .uint32 0x5b2ad50a)]⟩
  have hget : handleSessionGet (⟨[], List.nodup_nil⟩ : TokenMap) bus "81".toList =
      .session (.ipmi path) ⟨"81".toList, "root".toList, "10.213.42.91".toList⟩ := by
    decide +kernel
  have hright := (h ⟨[], List.nodup_nil⟩ bus (fun _ => []) none "81".toList).1
  exact absurd (hright.describes _ _ hget).1 (by decide +kernel)

end MetaCommon.RedfishSessions
