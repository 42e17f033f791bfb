import Mathlib.Data.String.Basic
import MetaCommon.Lib.FlatMap
import MetaCommon.Lib.JsonTree

/-!
# The throttling log

GET of the throttling status. The log comes as a string from the node manager, and the events in it
are edited one after the other where they are, in the answer. An event that has no "Start", or needs
a policy and has no complete one, makes the handler answer an error instead. The string and the
numbers in it are converted without a check, and such a conversion throws.
-/

namespace MetaCommon.NodeManager.ThrottlingStatus

open JsonTree

/-- The functions that are called: the parser, which throws where there is no result, the printing
of JSON, and the texts for a time and for a duration in milliseconds. -/
structure Utils where
  parse : String → Option JsonTree
  dump : JsonTree → String
  getDateTimeUintMs : BitVec 64 → String
  toDurationString : BitVec 64 → String

/-- How the handler fails: it answers an internal error and nothing else, or an exception escapes. -/
inductive Failure
  | internalError
  | exception
deriving DecidableEq

/-- The conversion of a number to milliseconds, which throws on everything else. -/
def milliseconds (json : JsonTree) : Option (BitVec 64) :=
  json.number?.map fun x => BitVec.ofInt 64 (x.num.tdiv x.den)

/-- `json.empty() || json == ""`. -/
def isBlank : JsonTree → Bool
  | .null => true
  | .array values => values.isEmpty
  | .object members => members.isEmpty
  | .string s => s == ""
  | _ => false

abbrev Members := List (String × JsonTree)

/-- `entry[name] = value` -/
def setMember (entry : Members) (name : String) (value : JsonTree) : Members :=
  FlatMap.insertEntry name value entry

def eraseMember (entry : Members) (name : String) : Members := entry.filter fun m => m.1 ≠ name

/-- The trigger type and the domain of a policy, if it has both. -/
def policySnapshot (policy : JsonTree) : Option (JsonTree × JsonTree) :=
  match policy.at? ["policyParams", "triggerType"], policy.at? ["domainId"] with
  | some triggerType, some domainId => some (triggerType, domainId)
  | _, _ => none

section Handler

variable (u : Utils) (now : ℕ → BitVec 64)

/-- The reason and the source of an event. A "Reason" that is missing counts as null. -/
def setSource (entry : Members) : Except Failure Members :=
  if isBlank ((entry.lookup "Reason").getD .null) then
    match entry.lookup "Policy" with
    | none => .error .internalError
    | some policy =>
      match policySnapshot policy with
      | none => .error .internalError
      | some (triggerType, domainId) =>
        let entry := setMember entry "Reason" triggerType
        let entry := setMember entry "Source" domainId
        .ok (setMember entry "Policy" (.string (u.dump policy)))
  else .ok (setMember entry "Source" (.string "SmaRTCLST"))

/-- The duration of an event that has stopped, or goes on until now. -/
def setDuration (index : ℕ) (start : BitVec 64) (entry : Members) : Except Failure Members :=
  match entry.lookup "Stop" with
  | some stop =>
    match milliseconds stop with
    | none => .error .exception
    | some stop =>
      let entry := setMember entry "Duration" (.string (u.toDurationString (stop - start)))
      let entry := setMember entry "InProgress" (.boolean false)
      .ok (eraseMember entry "Stop")
  | none =>
    let entry := setMember entry "Duration" (.string (u.toDurationString (now index - start)))
    .ok (setMember entry "InProgress" (.boolean true))

/-- One round of the loop. -/
def editEntry (index : ℕ) (entry : JsonTree) : Except Failure JsonTree :=
  match entry with
  | .object members =>
    match members.lookup "Start" with
    | none => .error .internalError
    | some start =>
      match milliseconds start with
      | none => .error .exception
      | some start => do
        let members :=
          setMember members "StartTimestamp" (.string (u.getDateTimeUintMs start))
        let members ← setSource u members
        let members ← setDuration u now index start members
        return .object (eraseMember members "Start")
  | _ => .error .internalError

def editEntries (index : ℕ) : List JsonTree → Except Failure (List JsonTree)
  | [] => .ok []
  | entry :: entries => do
    let entry ← editEntry u now index entry
    let entries ← editEntries (index + 1) entries
    return entry :: entries

/-- `for (auto& entry : log)`: the values of an array or an object, nothing of a null, and every
other value itself. -/
def editLog : JsonTree → Except Failure JsonTree
  | .null => .ok .null
  | .array entries => (editEntries u now 0 entries).map .array
  | .object members =>
    (editEntries u now 0 (members.map Prod.snd)).map fun entries =>
      .object ((members.map Prod.fst).zip entries)
  | log => editEntry u now 0 log

def throttlingStatus (events : JsonTree) : JsonTree :=
  .object
    [("@odata.id", .string "/redfish/v1/Managers/bmc/Oem/Intel/NodeManager/ThrottlingStatus"),
      ("@odata.type", .string "#NmThrottlingStatus.v1_1_1.NmThrottlingStatus"),
      ("Events", events),
      ("Id", .string "ThrottlingStatus"),
      ("Name", .string "NM Throttling Status")]

/-- The answer to the log that the node manager has returned. -/
def getThrottlingStatus (throttlingEvents : String) : Except Failure JsonTree :=
  match u.parse throttlingEvents with
  | none => .error .exception
  | some dataFromDbus =>
    match dataFromDbus.at? ["ThrottlingEvents"] with
    | none => .error .internalError
    | some log => (editLog u now log).map throttlingStatus

end Handler

/-! ### What the answer should be -/

/-- The events of a log. -/
def eventsOf : JsonTree → List JsonTree
  | .array entries => entries
  | .object members => members.map Prod.snd
  | _ => []

/-- "Reason" is not there, or is empty. -/
def LacksReason (entry : JsonTree) : Prop :=
  ∀ reason, entry.at? ["Reason"] = some reason → isBlank reason = true

/-- What is shown of an event. -/
structure Shows (entry shown : JsonTree) : Prop where
  start : shown.at? ["Start"] = none
  stop : shown.at? ["Stop"] = none
  inProgress : shown.at? ["InProgress"] = some (.boolean (entry.at? ["Stop"]).isNone)
  domain : LacksReason entry → ∃ domainId, entry.at? ["Policy", "domainId"] = some domainId ∧
    shown.at? ["Source"] = some domainId
  smart : ¬ LacksReason entry → shown.at? ["Source"] = some (.string "SmaRTCLST")

/-- The answer is an internal error, or has the events of the log in their order. -/
def AnswersRight (u : Utils) (now : ℕ → BitVec 64) (throttlingEvents : String) : Prop :=
  getThrottlingStatus u now throttlingEvents = .error .internalError ∨
    ∃ dataFromDbus log body events, u.parse throttlingEvents = some dataFromDbus ∧
      dataFromDbus.at? ["ThrottlingEvents"] = some log ∧
      getThrottlingStatus u now throttlingEvents = .ok body ∧ body.at? ["Events"] = some events ∧
      List.Forall₂ Shows (eventsOf log) (eventsOf events)

/-- The trigger type and the domain are there. -/
def HasPolicy (entry : JsonTree) : Prop :=
  (∃ triggerType, entry.at? ["Policy", "policyParams", "triggerType"] = some triggerType) ∧
    ∃ domainId, entry.at? ["Policy", "domainId"] = some domainId

/-- The member is there and is a number. -/
def HasNumber (name : String) (entry : JsonTree) : Prop :=
  ∃ value, entry.at? [name] = some value ∧ value.number?.isSome

/-- An event that is answered with an error: it has no "Start", or it has one that is a number, no
reason, and no policy. -/
def Refused (entry : JsonTree) : Prop :=
  entry.at? ["Start"] = none ∨ HasNumber "Start" entry ∧ LacksReason entry ∧ ¬ HasPolicy entry

/-- An event that is neither refused nor has the times as numbers. -/
def Malformed (entry : JsonTree) : Prop :=
  ¬ Refused entry ∧
    ¬ (HasNumber "Start" entry ∧ (entry.at? ["Stop"] = none ∨ HasNumber "Stop" entry))

/-- There is no malformed event, or one that is refused before it. -/
def Tolerable : List JsonTree → Prop
  | [] => True
  | entry :: entries => ¬ Malformed entry ∧ (Refused entry ∨ Tolerable entries)

/-! ### One event -/

section Event

variable {u : Utils} {now : ℕ → BitVec 64} {members : Members} {name other : String}
  {value : JsonTree} {start : BitVec 64}

theorem lookup_setMember : (setMember members name value).lookup other =
    if other = name then some value else members.lookup other :=
  FlatMap.lookup_insertEntry name other value members

theorem lookup_eraseMember : (eraseMember members name).lookup other =
    if other = name then none else members.lookup other := by
  unfold eraseMember
  induction members with
  | nil => simp
  | cons m members ih =>
    simp only [List.filter_cons]
    grind

/-- Where a number is converted, and where not. -/
theorem milliseconds_isSome_iff : (milliseconds value).isSome ↔ value.number?.isSome := by
  simp [milliseconds]

theorem lacksReason_iff : LacksReason (.object members) ↔
    isBlank ((members.lookup "Reason").getD .null) = true := by
  unfold LacksReason
  cases h : members.lookup "Reason" <;> simp [h, isBlank]

theorem policySnapshot_eq_some_iff {policy triggerType domainId : JsonTree} :
    policySnapshot policy = some (triggerType, domainId) ↔
      policy.at? ["policyParams", "triggerType"] = some triggerType ∧
        policy.at? ["domainId"] = some domainId := by
  unfold policySnapshot
  split <;> simp_all

theorem hasPolicy_iff {policy : JsonTree} (h : members.lookup "Policy" = some policy) :
    HasPolicy (.object members) ↔ ∃ parts, policySnapshot policy = some parts := by
  simp only [HasPolicy, at?_object, h, Option.bind_some, Prod.exists, policySnapshot_eq_some_iff,
    exists_and_left, exists_and_right]

theorem setSource_cases (u : Utils) (members : Members) :
    setSource u members = .error .internalError ∧ LacksReason (.object members) ∧
        ¬ HasPolicy (.object members) ∨
      ∃ members' source, setSource u members = .ok members' ∧
        members'.lookup "Source" = some source ∧
        (∀ name ∉ ["Reason", "Source", "Policy"], members'.lookup name = members.lookup name) ∧
        (LacksReason (.object members) → HasPolicy (.object members) ∧
          (JsonTree.object members).at? ["Policy", "domainId"] = some source) ∧
        (¬ LacksReason (.object members) → source = .string "SmaRTCLST") := by
  by_cases hblank : isBlank ((members.lookup "Reason").getD .null) = true
  · have hlacks : LacksReason (.object members) := lacksReason_iff.mpr hblank
    cases hpolicy : members.lookup "Policy" with
    | none =>
      have heq : setSource u members = .error .internalError := by
        rw [setSource, if_pos hblank, hpolicy]
      refine .inl ⟨heq, hlacks, fun hhas => ?_⟩
      obtain ⟨triggerType, htrigger⟩ := hhas.1
      simp [hpolicy] at htrigger
    | some policy =>
      have hhas := hasPolicy_iff hpolicy
      cases hsnapshot : policySnapshot policy with
      | none =>
        have heq : setSource u members = .error .internalError := by
          rw [setSource, if_pos hblank, hpolicy]
          simp only [hsnapshot]
        exact .inl ⟨heq, hlacks, by simp [hhas, hsnapshot]⟩
      | some snapshot =>
        obtain ⟨triggerType, domainId⟩ := snapshot
        have hdomain : (JsonTree.object members).at? ["Policy", "domainId"] = some domainId := by
          rw [at?_object, hpolicy]
          exact (policySnapshot_eq_some_iff.mp hsnapshot).2
        have heq : setSource u members = .ok (setMember (setMember (setMember members "Reason"
            triggerType) "Source" domainId) "Policy" (.string (u.dump policy))) := by
          rw [setSource, if_pos hblank, hpolicy]
          simp only [hsnapshot]
        refine .inr ⟨_, domainId, heq, ?_, ?_, fun _ => ⟨hhas.mpr ⟨_, hsnapshot⟩, hdomain⟩,
          fun hnot => absurd hlacks hnot⟩
        · simp [lookup_setMember]
        · intro name hname
          simp only [List.mem_cons, List.not_mem_nil, or_false, not_or] at hname
          simp [lookup_setMember, hname]
  · have heq : setSource u members = .ok (setMember members "Source" (.string "SmaRTCLST")) := by
      rw [setSource, if_neg hblank]
    refine .inr ⟨_, .string "SmaRTCLST", heq, ?_, ?_,
      fun hlack => absurd (lacksReason_iff.mp hlack) hblank, fun _ => rfl⟩
    · simp [lookup_setMember]
    · intro name hname
      simp only [List.mem_cons, List.not_mem_nil, or_false, not_or] at hname
      simp [lookup_setMember, hname]

theorem setDuration_cases (u : Utils) (now : ℕ → BitVec 64) (index : ℕ) (start : BitVec 64)
    (members : Members) :
    setDuration u now index start members = .error .exception ∧
        (JsonTree.object members).at? ["Stop"] ≠ none ∧ ¬ HasNumber "Stop" (.object members) ∨
      ∃ members', setDuration u now index start members = .ok members' ∧
        ((JsonTree.object members).at? ["Stop"] = none ∨ HasNumber "Stop" (.object members)) ∧
        members'.lookup "Stop" = none ∧
        members'.lookup "InProgress" = some (.boolean (members.lookup "Stop").isNone) ∧
        ∀ name ∉ ["Duration", "InProgress", "Stop"],
          members'.lookup name = members.lookup name := by
  cases hstop : members.lookup "Stop" with
  | none =>
    have heq : setDuration u now index start members = .ok (setMember (setMember members "Duration"
        (.string (u.toDurationString (now index - start)))) "InProgress" (.boolean true)) := by
      rw [setDuration, hstop]
    refine .inr ⟨_, heq, .inl (by simp [hstop]), ?_, ?_, fun name hname => ?_⟩
    · simp [lookup_setMember, hstop]
    · simp [lookup_setMember]
    · simp only [List.mem_cons, List.not_mem_nil, or_false, not_or] at hname
      simp [lookup_setMember, hname]
  | some stop =>
    cases hnumber : milliseconds stop with
    | none =>
      have heq : setDuration u now index start members = .error .exception := by
        rw [setDuration, hstop]
        simp only [hnumber]
      refine .inl ⟨heq, by simp [hstop], fun ⟨value, hvalue, hsome⟩ => ?_⟩
      obtain rfl : stop = value := by simpa [hstop] using hvalue
      rw [← milliseconds_isSome_iff, hnumber] at hsome
      exact absurd hsome (by simp)
    | some ms =>
      have hhas : HasNumber "Stop" (.object members) :=
        ⟨stop, by simp [hstop], milliseconds_isSome_iff.mp (by simp [hnumber])⟩
      have heq : setDuration u now index start members = .ok (eraseMember (setMember (setMember
          members "Duration" (.string (u.toDurationString (ms - start)))) "InProgress"
          (.boolean false)) "Stop") := by
        rw [setDuration, hstop]
        simp only [hnumber]
      refine .inr ⟨_, heq, .inr hhas, ?_, ?_, fun name hname => ?_⟩
      · simp [lookup_eraseMember]
      · simp [lookup_eraseMember, lookup_setMember]
      · simp only [List.mem_cons, List.not_mem_nil, or_false, not_or] at hname
        simp [lookup_eraseMember, lookup_setMember, hname]

theorem hasNumber_iff (h : members.lookup name = some value) :
    HasNumber name (.object members) ↔ (milliseconds value).isSome := by
  simp [HasNumber, h, milliseconds_isSome_iff]

/-- The timestamp is none of the members that are read. -/
theorem at?_stamped (path : List String) (hname : name ≠ "StartTimestamp") :
    (JsonTree.object (setMember members "StartTimestamp" value)).at? (name :: path) =
      (JsonTree.object members).at? (name :: path) := by
  rw [at?_object, at?_object, lookup_setMember, if_neg hname]

theorem lacksReason_stamped :
    LacksReason (.object (setMember members "StartTimestamp" value)) ↔
      LacksReason (.object members) := by
  rw [LacksReason, LacksReason, at?_stamped [] (by decide)]

theorem hasPolicy_stamped :
    HasPolicy (.object (setMember members "StartTimestamp" value)) ↔
      HasPolicy (.object members) := by
  rw [HasPolicy, HasPolicy, at?_stamped _ (by decide), at?_stamped _ (by decide)]

/-- A round for an event with a "Start" that is a number. -/
theorem editEntry_of_start (index : ℕ) (hstart : members.lookup "Start" = some value)
    (hnumber : milliseconds value = some start) : editEntry u now index (.object members) =
      (setSource u (setMember members "StartTimestamp" (.string (u.getDateTimeUintMs start)))).bind
        fun members => (setDuration u now index start members).map
          fun members => .object (eraseMember members "Start") := by
  simp only [editEntry, hstart, hnumber]
  rfl

theorem editEntry_cases_of_start (index : ℕ) (hstart : members.lookup "Start" = some value)
    (hnumber : milliseconds value = some start) :
    Refused (.object members) ∧ editEntry u now index (.object members) = .error .internalError ∨
      Malformed (.object members) ∧ editEntry u now index (.object members) = .error .exception ∨
      ¬ Refused (.object members) ∧ ¬ Malformed (.object members) ∧
        ∃ shown, editEntry u now index (.object members) = .ok shown ∧
          Shows (.object members) shown := by
  have hpresent : (JsonTree.object members).at? ["Start"] ≠ none := by simp [hstart]
  have hhas : HasNumber "Start" (.object members) := by
    rw [hasNumber_iff hstart, hnumber]
    rfl
  rw [editEntry_of_start index hstart hnumber]
  obtain ⟨hset, hlack, hnot⟩ | ⟨sourced, source, hset, hsource, hframe, hdomain, hsmart⟩ :=
    setSource_cases u
      (setMember members "StartTimestamp" (.string (u.getDateTimeUintMs start)))
  · exact .inl ⟨.inr ⟨hhas, lacksReason_stamped.mp hlack, mt hasPolicy_stamped.mpr hnot⟩,
      by rw [hset]; rfl⟩
  rw [lacksReason_stamped] at hdomain hsmart
  rw [hasPolicy_stamped, at?_stamped _ (by decide)] at hdomain
  have hnotRefused : ¬ Refused (.object members) := by
    rintro (h | ⟨-, hlack, hnot⟩)
    · exact hpresent h
    · exact hnot (hdomain hlack).1
  have hstop : sourced.lookup "Stop" = members.lookup "Stop" := by
    rw [hframe "Stop" (by decide), lookup_setMember, if_neg (by decide)]
  have hstopNumber : HasNumber "Stop" (.object sourced) ↔ HasNumber "Stop" (.object members) := by
    simp [HasNumber, hstop]
  rw [hset]
  obtain ⟨hduration, hgiven, hno⟩ | ⟨timed, hduration, hgood, hnone, hprogress, hkept⟩ :=
    setDuration_cases u now index start sourced
  · refine .inr (.inl ⟨⟨hnotRefused, ?_⟩, by rw [Except.bind, hduration]; rfl⟩)
    rintro ⟨-, hnone | hstopHas⟩
    · exact hgiven (by simpa [hstop] using hnone)
    · exact hno (hstopNumber.mpr hstopHas)
  · have hgoodStop : (JsonTree.object members).at? ["Stop"] = none ∨
        HasNumber "Stop" (.object members) :=
      hgood.imp (fun hnone => by simpa [hstop] using hnone) hstopNumber.mp
    have hsourced : timed.lookup "Source" = some source := by
      rw [hkept "Source" (by decide), hsource]
    refine .inr (.inr ⟨hnotRefused, fun hbad => hbad.2 ⟨hhas, hgoodStop⟩,
      .object (eraseMember timed "Start"), by rw [Except.bind, hduration]; rfl, ?_⟩)
    refine ⟨?_, ?_, ?_, fun hlack => ⟨source, (hdomain hlack).2, ?_⟩, fun hnot => ?_⟩
    · simp [lookup_eraseMember]
    · simp [lookup_eraseMember, hnone]
    · simp [lookup_eraseMember, hprogress, hstop]
    · simp [lookup_eraseMember, hsourced]
    · rw [← hsmart hnot]
      simp [lookup_eraseMember, hsourced]

/-- What a round of the loop does: it refuses the event, or throws, or shows it. -/
theorem editEntry_cases (u : Utils) (now : ℕ → BitVec 64) (index : ℕ) (entry : JsonTree) :
    Refused entry ∧ editEntry u now index entry = .error .internalError ∨
      Malformed entry ∧ editEntry u now index entry = .error .exception ∨
      ¬ Refused entry ∧ ¬ Malformed entry ∧
        ∃ shown, editEntry u now index entry = .ok shown ∧ Shows entry shown := by
  cases entry with
  | object members =>
    cases hstart : members.lookup "Start" with
    | none => exact .inl ⟨.inl (by simp [hstart]), by simp [editEntry, hstart]⟩
    | some start =>
      cases hnumber : milliseconds start with
      | none =>
        have hno : ¬ HasNumber "Start" (.object members) := by
          rw [hasNumber_iff hstart, hnumber]
          exact Bool.false_ne_true
        refine .inr (.inl ⟨⟨?_, fun h => hno h.1⟩, by simp [editEntry, hstart, hnumber]⟩)
        rintro (h | h)
        · simp [hstart] at h
        · exact hno h.1
      | some ms => exact editEntry_cases_of_start index hstart hnumber
  | _ => exact .inl ⟨.inl rfl, rfl⟩

end Event

/-! ### The log -/

section Log

variable {u : Utils} {now : ℕ → BitVec 64}

/-- Events that are all shown, or the first one that is not shown is refused, or it is malformed. -/
theorem editEntries_cases (u : Utils) (now : ℕ → BitVec 64) (index : ℕ) (entries : List JsonTree) :
    Tolerable entries ∧ editEntries u now index entries = .error .internalError ∨
      ¬ Tolerable entries ∧ editEntries u now index entries = .error .exception ∨
      Tolerable entries ∧ ∃ shown, editEntries u now index entries = .ok shown ∧
        List.Forall₂ Shows entries shown := by
  induction entries generalizing index with
  | nil => exact .inr (.inr ⟨trivial, [], rfl, .nil⟩)
  | cons entry entries ih =>
    rw [editEntries]
    obtain ⟨hrefused, hedit⟩ | ⟨hmalformed, hedit⟩ | ⟨hnot, hgood, shown, hedit, hshows⟩ :=
      editEntry_cases u now index entry <;> rw [hedit]
    · exact .inl ⟨⟨fun hbad => hbad.1 hrefused, .inl hrefused⟩, rfl⟩
    · exact .inr (.inl ⟨fun htolerable => htolerable.1 hmalformed, rfl⟩)
    · have hrest : Tolerable (entry :: entries) ↔ Tolerable entries := by
        simp [Tolerable, hnot, hgood]
      rw [hrest]
      obtain ⟨h, hedits⟩ | ⟨h, hedits⟩ | ⟨h, showns, hedits, hall⟩ := ih (index + 1)
      · exact .inl ⟨h, by rw [hedits]; rfl⟩
      · exact .inr (.inl ⟨h, by rw [hedits]; rfl⟩)
      · exact .inr (.inr ⟨h, shown :: showns, by rw [hedits]; rfl, .cons hshows hall⟩)

theorem editLog_cases (u : Utils) (now : ℕ → BitVec 64) (log : JsonTree) :
    Tolerable (eventsOf log) ∧ editLog u now log = .error .internalError ∨
      ¬ Tolerable (eventsOf log) ∧ editLog u now log = .error .exception ∨
      Tolerable (eventsOf log) ∧ ∃ events, editLog u now log = .ok events ∧
        List.Forall₂ Shows (eventsOf log) (eventsOf events) := by
  cases log with
  | null => exact .inr (.inr ⟨trivial, .null, rfl, .nil⟩)
  | array entries =>
    rw [editLog]
    obtain ⟨h, hedit⟩ | ⟨h, hedit⟩ | ⟨h, shown, hedit, hall⟩ :=
      editEntries_cases u now 0 entries <;> rw [hedit]
    · exact .inl ⟨h, rfl⟩
    · exact .inr (.inl ⟨h, rfl⟩)
    · exact .inr (.inr ⟨h, .array shown, rfl, hall⟩)
  | object members =>
    rw [editLog]
    obtain ⟨h, hedit⟩ | ⟨h, hedit⟩ | ⟨h, shown, hedit, hall⟩ :=
      editEntries_cases u now 0 (members.map Prod.snd) <;> rw [hedit]
    · exact .inl ⟨h, rfl⟩
    · exact .inr (.inl ⟨h, rfl⟩)
    · refine .inr (.inr ⟨h, _, rfl, ?_⟩)
      have hlength : shown.length ≤ (members.map Prod.fst).length := by
        rw [← hall.length_eq, List.length_map, List.length_map]
      rw [eventsOf, eventsOf, List.map_snd_zip hlength]
      exact hall
  | _ => exact .inl ⟨trivial, rfl⟩

/-- The answer is right if and only if the string is JSON, and a malformed event of its log comes
after one that is refused. -/
theorem answersRight_iff (u : Utils) (now : ℕ → BitVec 64) (throttlingEvents : String) :
    AnswersRight u now throttlingEvents ↔
      ∃ dataFromDbus, u.parse throttlingEvents = some dataFromDbus ∧
        ∀ log, dataFromDbus.at? ["ThrottlingEvents"] = some log → Tolerable (eventsOf log) := by
  unfold AnswersRight
  cases hparse : u.parse throttlingEvents with
  | none => simp [getThrottlingStatus, hparse]
  | some dataFromDbus =>
    cases hlog : dataFromDbus.at? ["ThrottlingEvents"] with
    | none => simp [getThrottlingStatus, hparse, hlog]
    | some log =>
      have hget : getThrottlingStatus u now throttlingEvents =
          (editLog u now log).map throttlingStatus := by
        simp only [getThrottlingStatus, hparse, hlog]
      rw [hget]
      obtain ⟨h, hedit⟩ | ⟨h, hedit⟩ | ⟨h, events, hedit, hall⟩ :=
        editLog_cases u now log <;> rw [hedit]
      · exact ⟨fun _ => ⟨_, rfl, fun _ heq => Option.some.inj (hlog ▸ heq) ▸ h⟩, fun _ => .inl rfl⟩
      · constructor
        · rintro (herror | ⟨_, _, _, _, _, _, hok, _⟩)
          · exact nomatch herror
          · exact nomatch hok
        · rintro ⟨_, heq, htolerable⟩
          obtain rfl := Option.some.inj heq
          exact absurd (htolerable log hlog) h
      · exact ⟨fun _ => ⟨_, rfl, fun _ heq => Option.some.inj (hlog ▸ heq) ▸ h⟩,
          fun _ => .inr ⟨dataFromDbus, log, _, events, rfl, hlog, rfl, rfl, hall⟩⟩

/-- The log of an event whose "Start" is a string. -/
def textStart : JsonTree :=
  .object [("ThrottlingEvents", .array [.object [("Start", .string "now")]])]

theorem not_answersRight_textStart : ¬ AnswersRight
    { parse := fun _ => some textStart, dump := fun _ => "", getDateTimeUintMs := fun _ => "",
      toDurationString := fun _ => "" } (fun _ => 0)
    "\x7b\"ThrottlingEvents\":[\x7b\"Start\":\"now\"\x7d]\x7d" := by
  rintro (h | ⟨_, _, _, _, _, _, h, _⟩) <;> exact nomatch h

end Log

end MetaCommon.NodeManager.ThrottlingStatus
