import MetaCommon.BiosConfig.Settings
import MetaCommon.Lib.Control

/-!
# Requests for BIOS attributes

A request should be answered with an error, or its attributes should become pending as they are. So
it is unless a value is reached that cannot be converted, which throws, or a number is converted to
another one.
-/

namespace MetaCommon.BiosConfig

open JsonTree

/-- The attributes of a request: an object has every name once. -/
structure Attributes where
  members : List (String × JsonTree)
  nodup : (members.map Prod.fst).Nodup

namespace Attributes

def body (data : Attributes) : JsonTree := .object [("data", .object data.members)]

end Attributes

/-! ### What the PATCH should do -/

/-- The value of a request as one of the declared type. -/
inductive ValueOf : String → JsonTree → BiosValue → Prop
  | text {itemType s} (h : mapAttrTypeToRedfish itemType = "String" ∨
      mapAttrTypeToRedfish itemType = "Enumeration") : ValueOf itemType (.string s) (.string s)
  | number {itemType json} {n : ℤ} (h : mapAttrTypeToRedfish itemType = "Integer")
      (hn : json.number? = some (n : ℚ)) (hrange : -2 ^ 63 ≤ n ∧ n < 2 ^ 63) :
      ValueOf itemType json (.int64 n)

/-- The same text, or the same number. -/
def Same (json json' : JsonTree) : Prop :=
  (∃ s, json.string? = some s ∧ json'.string? = some s) ∨
    ∃ x, json.number? = some x ∧ json'.number? = some x

/-- The pending attributes have the names of the request, the types of the table and the values of
the request. -/
structure Encodes (baseBiosTable : BiosBaseTableType) (data : Attributes)
    (pendingAttributes : PendingAttributesType) : Prop where
  complete : ∀ key json, (key, json) ∈ data.members → key ∈ pendingAttributes.keys
  sound : ∀ key itemType value, (key, itemType, value) ∈ pendingAttributes.entries →
    baseBiosTable.lookup key = some itemType ∧
      ∃ json, (key, json) ∈ data.members ∧ ValueOf itemType json value

/-- A GET shows the attributes of the request. -/
structure Shows (data : Attributes) (shown : List (String × JsonTree)) : Prop where
  complete : ∀ key json, (key, json) ∈ data.members → ∃ json', (key, json') ∈ shown
  sound : ∀ key json', (key, json') ∈ shown → ∃ json, (key, json) ∈ data.members ∧ Same json json'

/-- An error and nothing that is set, or what the request asks for is set once. -/
def Served (a : BiosAnswers) (data : Attributes) (r : Option BiosResponse) : Prop :=
  ∃ s, r = some s ∧ ((s.messages ≠ [] ∧ s.sets = []) ∨
    s.messages = [] ∧ ∃ baseBiosTable pendingAttributes shown,
      a.baseBiosTable = some (some baseBiosTable) ∧ s.sets = [pendingAttributes] ∧
        Encodes baseBiosTable data pendingAttributes ∧
        getSettings pendingAttributes = some shown ∧ Shows data shown)

section Conditions

variable (baseBiosTable : BiosBaseTableType)

/-- The table has no attribute of the name, or one of a type that is not supported. -/
def Rejected (key : String) : Prop :=
  ∀ itemType ∈ baseBiosTable.lookup key, mapAttrTypeToRedfish itemType = "UNKNOWN"

/-- The value is none of the kind that the declared type asks for. -/
def Throws (key : String) (json : JsonTree) : Prop :=
  ∃ itemType ∈ baseBiosTable.lookup key,
    (mapAttrTypeToRedfish itemType = "Integer" ∧ json.number? = none) ∨
      ((mapAttrTypeToRedfish itemType = "String" ∨
        mapAttrTypeToRedfish itemType = "Enumeration") ∧ json.string? = none)

/-- Up to the first attribute that is rejected, every value is of the kind that is asked for. -/
def Convertible : List (String × JsonTree) → Prop
  | [] => True
  | (key, json) :: attributes =>
    Rejected baseBiosTable key ∨ ¬ Throws baseBiosTable key json ∧ Convertible attributes

def Exact (key : String) (json : JsonTree) : Prop :=
  ∃ itemType ∈ baseBiosTable.lookup key, ∃ value, ValueOf itemType json value

end Conditions

/-- The values up to the first attribute that is rejected can be converted, and if none is, then
the numbers are integers that fit. -/
def Servable (a : BiosAnswers) (data : Attributes) : Prop :=
  ∀ services, a.services = some services → services ≠ [] →
    ∀ baseBiosTable, a.baseBiosTable = some (some baseBiosTable) →
      Convertible baseBiosTable data.members ∧
        ((∀ m ∈ data.members, ¬ Rejected baseBiosTable m.1) →
          ∀ m ∈ data.members, Exact baseBiosTable m.1 m.2)

/-! ### The conversion of one attribute -/

section Conversion

variable {outOfRange : ℚ → ℤ} {baseBiosTable : BiosBaseTableType}

/-- What the loop does with an attribute. -/
def convertAttribute (outOfRange : ℚ → ℤ) (baseBiosTable : BiosBaseTableType) (key : String)
    (json : JsonTree) : Option (Except BiosMessage (String × BiosValue)) :=
  match baseBiosTable.lookup key with
  | none => some (.error (.propertyValueNotInList key "data"))
  | some itemType =>
    if mapAttrTypeToRedfish itemType = "String" ∨ mapAttrTypeToRedfish itemType = "Enumeration" then
      json.string?.map fun val => .ok (itemType, .string val)
    else if mapAttrTypeToRedfish itemType = "Integer" then
      (toInt64 outOfRange json).map fun n => .ok (itemType, .int64 n)
    else some (.error .internalError)

theorem addAttributes_cons (key : String) (json : JsonTree) (attributes : List (String × JsonTree))
    (pendingAttributes : PendingAttributesType) :
    addAttributes outOfRange baseBiosTable ((key, json) :: attributes) pendingAttributes =
      match convertAttribute outOfRange baseBiosTable key json with
      | none => none
      | some (.error m) => some (.error m)
      | some (.ok value) =>
        addAttributes outOfRange baseBiosTable attributes (pendingAttributes.insert key value) := by
  rw [addAttributes]
  unfold convertAttribute
  cases baseBiosTable.lookup key with
  | none => rfl
  | some itemType =>
    dsimp only
    split_ifs
    · cases json.string? <;> rfl
    · cases toInt64 outOfRange json <;> rfl
    · rfl

theorem mapAttrTypeToRedfish_cases (typeDbus : String) :
    mapAttrTypeToRedfish typeDbus = "String" ∨ mapAttrTypeToRedfish typeDbus = "Enumeration" ∨
      mapAttrTypeToRedfish typeDbus = "Integer" ∨ mapAttrTypeToRedfish typeDbus = "UNKNOWN" := by
  unfold mapAttrTypeToRedfish
  split_ifs <;> simp

theorem toInt64_eq_none_iff (json : JsonTree) :
    toInt64 outOfRange json = none ↔ json.number? = none := by
  cases json with
  | float x =>
    simp only [toInt64]
    split_ifs <;> simp [number?]
  | _ => simp [toInt64, number?]

/-- The three outcomes of a conversion. -/
theorem convertAttribute_eq_none_iff (key : String) (json : JsonTree) :
    convertAttribute outOfRange baseBiosTable key json = none ↔
      Throws baseBiosTable key json := by
  unfold convertAttribute Throws
  cases baseBiosTable.lookup key with
  | none => simp
  | some itemType =>
    simp only [Option.mem_some_iff, exists_eq_left']
    rcases mapAttrTypeToRedfish_cases itemType with h | h | h | h <;>
      simp [h, toInt64_eq_none_iff]

theorem convertAttribute_error_iff (key : String) (json : JsonTree) :
    (∃ m, convertAttribute outOfRange baseBiosTable key json = some (.error m)) ↔
      Rejected baseBiosTable key := by
  unfold convertAttribute Rejected
  cases baseBiosTable.lookup key with
  | none => simp
  | some itemType =>
    simp only [Option.mem_some_iff, forall_eq']
    rcases mapAttrTypeToRedfish_cases itemType with h | h | h | h <;> simp [h]

/-- A number that is an integer and fits is taken as it is. -/
theorem toInt64_of_number {json : JsonTree} {n : ℤ} (hn : json.number? = some (n : ℚ))
    (hrange : -2 ^ 63 ≤ n ∧ n < 2 ^ 63) : toInt64 outOfRange json = some n := by
  have hmod : n.bmod (2 ^ 64) = n := Int.bmod_eq_of_le (by omega) (by omega)
  cases json with
  | integer m =>
    obtain rfl : m = n := by exact_mod_cast Option.some.inj hn
    rw [toInt64, hmod]
  | unsigned m =>
    obtain rfl : (m : ℤ) = n := by exact_mod_cast Option.some.inj hn
    rw [toInt64, hmod]
  | float x =>
    obtain rfl : x = n := Option.some.inj hn
    have htruncate : truncate n = n := by simp [truncate]
    rw [toInt64, htruncate, if_pos hrange]
  | _ => exact nomatch hn

/-- An attribute that is converted has its declared type, and the value of the request if that can
be had at all. -/
theorem convertAttribute_ok {key : String} {json : JsonTree} {itemType : String} {value : BiosValue}
    (h : convertAttribute outOfRange baseBiosTable key json = some (.ok (itemType, value))) :
    baseBiosTable.lookup key = some itemType ∧
      (Exact baseBiosTable key json → ValueOf itemType json value) := by
  unfold convertAttribute at h
  unfold Exact
  cases htable : baseBiosTable.lookup key with
  | none => simp [htable] at h
  | some declared =>
    simp only [htable] at h
    simp only [Option.mem_some_iff, exists_eq_left', Option.some_inj]
    split_ifs at h with htext hnumber
    · obtain ⟨val, hval, heq⟩ := Option.map_eq_some_iff.mp h
      obtain ⟨rfl, rfl⟩ := Prod.mk.inj (Except.ok.inj heq)
      obtain rfl := string?_eq_some hval
      exact ⟨rfl, fun _ => .text htext⟩
    · obtain ⟨n, hn, heq⟩ := Option.map_eq_some_iff.mp h
      obtain ⟨rfl, rfl⟩ := Prod.mk.inj (Except.ok.inj heq)
      refine ⟨rfl, ?_⟩
      rintro ⟨value, hvalue⟩
      cases hvalue with
      | text htext' => exact absurd htext' htext
      | number _ hn' hrange =>
        rw [toInt64_of_number hn' hrange] at hn
        obtain rfl := Option.some.inj hn
        exact .number hnumber hn' hrange
    · simp at h

end Conversion

/-! ### The loop over the attributes -/

section Loop

variable {outOfRange : ℚ → ℤ} {baseBiosTable : BiosBaseTableType}
  {attributes : List (String × JsonTree)}
  {pendingAttributes pendingAttributes' : PendingAttributesType}

theorem addAttributes_eq_none_iff :
    addAttributes outOfRange baseBiosTable attributes pendingAttributes = none ↔
      ¬ Convertible baseBiosTable attributes := by
  induction attributes generalizing pendingAttributes with
  | nil => simp [addAttributes, Convertible]
  | cons item attributes ih =>
    obtain ⟨key, json⟩ := item
    have hthrows : convertAttribute outOfRange baseBiosTable key json = none ↔ _ :=
      convertAttribute_eq_none_iff key json
    have hrejected : (∃ m, convertAttribute outOfRange baseBiosTable key json = some (.error m)) ↔
      _ := convertAttribute_error_iff key json
    rw [addAttributes_cons, Convertible, ← hthrows, ← hrejected]
    rcases convertAttribute outOfRange baseBiosTable key json with _ | m | value
    · simp
    · simp
    · simpa using ih

/-- The loop comes to its end only by converting the first attribute and going on. -/
theorem addAttributes_cons_ok {key : String} {json : JsonTree}
    (h : addAttributes outOfRange baseBiosTable ((key, json) :: attributes) pendingAttributes =
      some (.ok pendingAttributes')) :
    ∃ value, convertAttribute outOfRange baseBiosTable key json = some (.ok value) ∧
      addAttributes outOfRange baseBiosTable attributes (pendingAttributes.insert key value) =
        some (.ok pendingAttributes') := by
  rw [addAttributes_cons] at h
  rcases hconvert : convertAttribute outOfRange baseBiosTable key json with _ | m | value
  · simp [hconvert] at h
  · simp [hconvert] at h
  · rw [hconvert] at h
    exact ⟨value, rfl, h⟩

theorem addAttributes_ok (h : addAttributes outOfRange baseBiosTable attributes pendingAttributes =
      some (.ok pendingAttributes')) :
    ∀ m ∈ attributes, ∃ value,
      convertAttribute outOfRange baseBiosTable m.1 m.2 = some (.ok value) := by
  induction attributes generalizing pendingAttributes with
  | nil => exact fun _ hm => absurd hm List.not_mem_nil
  | cons item attributes ih =>
    obtain ⟨key, json⟩ := item
    obtain ⟨value, hconvert, hrest⟩ := addAttributes_cons_ok h
    exact List.forall_mem_cons.mpr ⟨⟨value, hconvert⟩, ih hrest⟩

/-- An answer of the loop, an error or a map, comes without a throw. -/
theorem convertible_of_addAttributes {answer : Except BiosMessage PendingAttributesType}
    (h : addAttributes outOfRange baseBiosTable attributes pendingAttributes = some answer) :
    Convertible baseBiosTable attributes := by
  by_contra hnot
  exact nomatch h.symm.trans (addAttributes_eq_none_iff.mpr hnot)

theorem not_rejected_of_addAttributes
    (h : addAttributes outOfRange baseBiosTable attributes pendingAttributes =
      some (.ok pendingAttributes')) :
    ∀ m ∈ attributes, ¬ Rejected baseBiosTable m.1 := by
  intro m hm hrejected
  obtain ⟨value, hvalue⟩ := addAttributes_ok h m hm
  obtain ⟨message, hmessage⟩ : ∃ message, convertAttribute outOfRange baseBiosTable m.1 m.2 =
      some (.error message) := (convertAttribute_error_iff m.1 m.2).mpr hrejected
  exact nomatch hvalue.symm.trans hmessage

theorem addAttributes_error {m : BiosMessage}
    (h : addAttributes outOfRange baseBiosTable attributes pendingAttributes = some (.error m)) :
    ∃ a ∈ attributes, Rejected baseBiosTable a.1 := by
  induction attributes generalizing pendingAttributes with
  | nil => simp [addAttributes] at h
  | cons item attributes ih =>
    obtain ⟨key, json⟩ := item
    rw [addAttributes_cons] at h
    rcases hconvert : convertAttribute outOfRange baseBiosTable key json with _ | m' | value
    · simp [hconvert] at h
    · exact ⟨_, List.mem_cons_self, (convertAttribute_error_iff key json).mp ⟨m', hconvert⟩⟩
    · rw [hconvert] at h
      obtain ⟨a, ha, hrejected⟩ := ih h
      exact ⟨a, List.mem_cons_of_mem _ ha, hrejected⟩

/-- The loop adds the attributes as they are converted. -/
theorem mem_addAttributes (hnodup : (attributes.map Prod.fst).Nodup)
    (hnew : ∀ m ∈ attributes, m.1 ∉ pendingAttributes.keys)
    (h : addAttributes outOfRange baseBiosTable attributes pendingAttributes =
      some (.ok pendingAttributes')) (key : String) (value : String × BiosValue) :
    (key, value) ∈ pendingAttributes'.entries ↔ (key, value) ∈ pendingAttributes.entries ∨
      ∃ json, (key, json) ∈ attributes ∧
        convertAttribute outOfRange baseBiosTable key json = some (.ok value) := by
  induction attributes generalizing pendingAttributes with
  | nil =>
    obtain rfl := Except.ok.inj (Option.some.inj h)
    simp
  | cons item attributes ih =>
    obtain ⟨first, json⟩ := item
    obtain ⟨hfirst, hnodup⟩ := List.nodup_cons.mp hnodup
    obtain ⟨hnewFirst, hnew⟩ := List.forall_mem_cons.mp hnew
    obtain ⟨converted, hconvert, hloop⟩ := addAttributes_cons_ok h
    have hrest := ih hnodup (fun m hm => by
      rw [FlatMap.mem_keys_insert, not_or]
      exact ⟨fun he => hfirst (List.mem_map.mpr ⟨m, hm, he⟩), hnew m hm⟩) hloop
    rw [hrest, FlatMap.insert_of_notMem _ hnewFirst, FlatMap.mem_assign_of_notMem hnewFirst,
      or_assoc, or_left_comm]
    refine or_congr_right ?_
    constructor
    · rintro (heq | ⟨json', hmem, hok⟩)
      · obtain ⟨rfl, rfl⟩ := Prod.mk.inj heq
        exact ⟨json, List.mem_cons_self, hconvert⟩
      · exact ⟨json', List.mem_cons_of_mem _ hmem, hok⟩
    · rintro ⟨json', hmem, hok⟩
      rcases List.mem_cons.mp hmem with heq | hmem
      · obtain ⟨rfl, rfl⟩ := Prod.mk.inj heq
        rw [hconvert] at hok
        exact .inl (congrArg _ (Except.ok.inj (Option.some.inj hok)).symm)
      · exact .inr ⟨json', hmem, hok⟩

end Loop

/-! ### The map that is set, and what a GET makes of it -/

section Answer

variable {outOfRange : ℚ → ℤ} {baseBiosTable : BiosBaseTableType} {data : Attributes}
  {pendingAttributes : PendingAttributesType}

theorem Attributes.eq_of_key {key : String} {json json' : JsonTree}
    (h : (key, json) ∈ data.members) (h' : (key, json') ∈ data.members) : json = json' :=
  (Prod.mk.inj (List.inj_on_of_nodup_map data.nodup h h' rfl)).2

theorem encodes_of_exact (h : addAttributes outOfRange baseBiosTable data.members .empty =
      some (.ok pendingAttributes))
    (hexact : ∀ m ∈ data.members, Exact baseBiosTable m.1 m.2) :
    Encodes baseBiosTable data pendingAttributes := by
  have hmem := mem_addAttributes data.nodup (fun _ _ hkey => absurd hkey List.not_mem_nil) h
  constructor
  · intro key json hjson
    obtain ⟨value, hvalue⟩ := addAttributes_ok h _ hjson
    exact List.mem_map.mpr ⟨(key, value), (hmem key value).mpr (.inr ⟨json, hjson, hvalue⟩), rfl⟩
  · intro key itemType value hentry
    obtain ⟨json, hjson, hconvert⟩ :=
      ((hmem key (itemType, value)).mp hentry).resolve_left List.not_mem_nil
    obtain ⟨htype, hvalue⟩ := convertAttribute_ok hconvert
    exact ⟨htype, json, hjson, hvalue (hexact _ hjson)⟩

theorem Encodes.exact (h : Encodes baseBiosTable data pendingAttributes) :
    ∀ m ∈ data.members, Exact baseBiosTable m.1 m.2 := by
  rintro ⟨key, json⟩ hjson
  obtain ⟨⟨_, itemType, value⟩, hentry, rfl⟩ := List.mem_map.mp (h.complete key json hjson)
  obtain ⟨htype, json', hjson', hvalue⟩ := h.sound _ itemType value hentry
  obtain rfl := data.eq_of_key hjson hjson'
  exact ⟨itemType, htype, value, hvalue⟩

theorem ValueOf.shown {itemType : String} {json : JsonTree} {value : BiosValue}
    (h : ValueOf itemType json value) :
    ∃ json', showValue itemType value = some json' ∧ Same json json' := by
  cases h with
  | @text s htext => exact ⟨.string s, if_pos htext, .inl ⟨s, rfl, rfl⟩⟩
  | number hnumber hn =>
    refine ⟨.integer _, ?_, .inr ⟨_, hn, rfl⟩⟩
    unfold showValue
    rw [if_neg (by simp [hnumber]), if_pos hnumber]

theorem Encodes.shown (h : Encodes baseBiosTable data pendingAttributes) :
    ∃ shown, getSettings pendingAttributes = some shown ∧ Shows data shown := by
  obtain ⟨shown, hshown⟩ : ∃ shown, getSettings pendingAttributes = some shown := by
    refine Control.exists_mapM_eq_some ?_
    rintro ⟨key, itemType, value⟩ hentry
    obtain ⟨-, json, -, hvalue⟩ := h.sound key itemType value hentry
    obtain ⟨json', hjson', -⟩ := hvalue.shown
    exact ⟨(key, json'), by simp [hjson']⟩
  refine ⟨shown, hshown, ?_, ?_⟩
  · intro key json hjson
    obtain ⟨⟨_, itemType, value⟩, hentry, rfl⟩ := List.mem_map.mp (h.complete key json hjson)
    obtain ⟨-, _, -, hvalue⟩ := h.sound _ itemType value hentry
    obtain ⟨json', hjson', -⟩ := hvalue.shown
    exact ⟨json', (Control.mem_of_mapM_eq_some hshown _).mpr ⟨_, hentry, by simp [hjson']⟩⟩
  · intro key json' hjson'
    obtain ⟨⟨_, itemType, value⟩, hentry, hitem⟩ := (Control.mem_of_mapM_eq_some hshown _).mp hjson'
    obtain ⟨_, hshow, heq⟩ := Option.map_eq_some_iff.mp hitem
    obtain ⟨rfl, rfl⟩ := Prod.mk.inj heq
    obtain ⟨-, json, hjson, hvalue⟩ := h.sound _ itemType value hentry
    obtain ⟨json'', hshow', hsame⟩ := hvalue.shown
    obtain rfl := Option.some.inj (hshow.symm.trans hshow')
    exact ⟨json, hjson, hsame⟩

theorem served_of_error {a : BiosAnswers} (m : BiosMessage) : Served a data (some ⟨[m], []⟩) :=
  ⟨_, rfl, .inl ⟨List.cons_ne_nil _ _, rfl⟩⟩

/-- A map that has been built is not empty, and it serves the request if it encodes it. -/
theorem served_set_iff {a : BiosAnswers} (htable : a.baseBiosTable = some (some baseBiosTable))
    (hdata : data.members ≠ [])
    (hloop : addAttributes outOfRange baseBiosTable data.members .empty =
      some (.ok pendingAttributes)) :
    Served a data (some ⟨if pendingAttributes.isEmpty then [.invalidObject] else [],
      [pendingAttributes]⟩) ↔ ∀ m ∈ data.members, Exact baseBiosTable m.1 m.2 := by
  have hfilled : pendingAttributes.isEmpty = false := by
    obtain ⟨⟨key, json⟩, hm⟩ := List.exists_mem_of_ne_nil _ hdata
    obtain ⟨value, hvalue⟩ := addAttributes_ok hloop _ hm
    have hentry := (mem_addAttributes data.nodup
      (fun _ _ hkey => absurd hkey List.not_mem_nil) hloop key value).mpr
        (.inr ⟨json, hm, hvalue⟩)
    exact List.isEmpty_eq_false_iff_exists_mem.mpr ⟨_, hentry⟩
  constructor
  · rintro ⟨s, hs, ⟨-, hsets⟩ | ⟨-, table, pending, shown, htable', hsets, hencodes, -⟩⟩
    · obtain rfl := Option.some.inj hs
      exact absurd hsets (List.cons_ne_nil _ _)
    · obtain rfl := Option.some.inj hs
      obtain rfl : table = baseBiosTable :=
        Option.some.inj (Option.some.inj (htable'.symm.trans htable))
      exact hencodes.exact
  · intro hexact
    have hencodes := encodes_of_exact hloop hexact
    obtain ⟨shown, hshown, hshows⟩ := hencodes.shown
    refine ⟨_, rfl, .inr ⟨?_, baseBiosTable, pendingAttributes, shown, htable, rfl, hencodes,
      hshown, hshows⟩⟩
    exact if_neg (by simp [hfilled])

/-- What the handler answers when the table has been read. -/
theorem served_loop_iff {a : BiosAnswers}
    (htable : a.baseBiosTable = some (some baseBiosTable)) (hdata : data.members ≠ []) :
    Served a data (match addAttributes outOfRange baseBiosTable data.members .empty with
      | none => none
      | some (.error m) => some ⟨[m], []⟩
      | some (.ok pendingAttributes) =>
        some ⟨if pendingAttributes.isEmpty then [.invalidObject] else [], [pendingAttributes]⟩) ↔
      Convertible baseBiosTable data.members ∧
        ((∀ m ∈ data.members, ¬ Rejected baseBiosTable m.1) →
          ∀ m ∈ data.members, Exact baseBiosTable m.1 m.2) := by
  rcases hloop : addAttributes outOfRange baseBiosTable data.members .empty with
    _ | m | pendingAttributes
  · refine iff_of_false ?_ fun h => addAttributes_eq_none_iff.mp hloop h.1
    rintro ⟨s, hs, -⟩
    exact nomatch hs
  · obtain ⟨item, hmem, hrejected⟩ := addAttributes_error hloop
    exact iff_of_true (served_of_error m) ⟨convertible_of_addAttributes hloop,
      fun hall => absurd hrejected (hall _ hmem)⟩
  · rw [and_iff_right (convertible_of_addAttributes hloop),
      forall_prop_of_true (not_rejected_of_addAttributes hloop)]
    exact served_set_iff htable hdata hloop

/-- A request is served exactly if its values can be converted and keep their numbers. -/
theorem served_iff_servable [Reader] (a : BiosAnswers) (data : Attributes) :
    Served a data (patchSettings outOfRange a data.body) ↔ Servable a data := by
  have hbody : withoutAnnotations data.body = data.body :=
    withoutAnnotations_eq_self (by simp)
  have honly : onlyMembers ["data"] data.body = some [("data", .object data.members)] :=
    onlyMembers_eq_some_iff.mpr ⟨rfl, by simp⟩
  have hread : readData data.body = some (.object data.members) := by
    rw [readData, hbody, honly]
    exact asJson_object data.members
  have hempty : isEmpty (.object data.members) = true ↔ data.members = [] := List.isEmpty_iff
  unfold patchSettings Servable
  rw [hread]
  dsimp only
  by_cases hdata : data.members = []
  · rw [if_pos (hempty.mpr hdata), hdata]
    refine iff_of_true (served_of_error _) fun _ _ _ _ _ => ⟨trivial, fun _ m hm => ?_⟩
    exact absurd hm List.not_mem_nil
  rw [if_neg (mt hempty.mp hdata)]
  rcases hservices : a.services with _ | _ | ⟨service, services⟩
  · exact iff_of_true (served_of_error _) fun _ h => absurd h.symm (Option.some_ne_none _)
  · exact iff_of_true (served_of_error _) fun _ h hne => absurd (Option.some.inj h).symm hne
  rcases htable : a.baseBiosTable with _ | _ | baseBiosTable
  · exact iff_of_true (served_of_error _) fun _ _ _ _ h => absurd h.symm (Option.some_ne_none _)
  · exact iff_of_true (served_of_error _) fun _ _ _ _ h =>
      absurd (Option.some.inj h).symm (Option.some_ne_none _)
  · refine (served_loop_iff htable hdata).trans ⟨fun h => ?_, fun h => ?_⟩
    · rintro _ _ _ table htable'
      obtain rfl := Option.some.inj (Option.some.inj htable')
      exact h
    · exact h _ rfl (List.cons_ne_nil _ _) _ rfl

end Answer

/-- An attribute of the type "Integer" is given as a text. -/
theorem not_served : ¬ Served
    ⟨some ["xyz.openbmc_project.BIOSConfigManager"], some (some (FlatMap.empty.assign "BootTimeout"
      "xyz.openbmc_project.BIOSConfig.Manager.AttributeType.Integer"))⟩
    ⟨[("BootTimeout", .string "10")], List.nodup_singleton _⟩
    (patchSettings (fun _ => 0)
      ⟨some ["xyz.openbmc_project.BIOSConfigManager"], some (some (FlatMap.empty.assign
        "BootTimeout" "xyz.openbmc_project.BIOSConfig.Manager.AttributeType.Integer"))⟩
      (.object [("data", .object [("BootTimeout", .string "10")])])) := by
  rintro ⟨s, hs, -⟩
  exact nomatch hs

end MetaCommon.BiosConfig
