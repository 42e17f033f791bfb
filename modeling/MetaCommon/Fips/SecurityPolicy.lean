import MetaCommon.Lib.JsonTree

/-!
# PATCH of the FIPS policy

"Oem", "Intel" and "FIPSPolicy" are read out of one another, and "Version" and "Enabled" out of the
last. Each of the first three is an optional that is compared with `nullptr` and then dereferenced:
the comparison is true of a JSON null, and false of a member that is not there.
-/

namespace MetaCommon.Fips

open JsonTree

/-- A call on `com.intel.fips.mode`. -/
inductive ModeCall
  | enableFips (version : String)
  | disableFips
deriving DecidableEq

/-- The messages that `json_util` adds for the members it refuses are one message here. -/
inductive Message
  | ofReadJson
  | unrecognizedRequestBody
  | internalError
deriving DecidableEq

/-- `accepted` is the body of the answer where the status is set to "accepted". -/
structure Response where
  calls : List ModeCall
  messages : List Message
  accepted : Option JsonTree

def errorResponse (messages : List Message) : Response := ⟨[], messages, none⟩

def acceptedBody : JsonTree :=
  .object
    [("@odata.id", .string "/redfish/v1/Managers/bmc/SecurityPolicy"),
      ("@odata.type", .string "#SecurityPolicy.SecurityPolicy.v1_0_0"),
      ("Actions", .object [("#Manager.Reset", .object
        [("target", .string "/redfish/v1/Managers/bmc/Actions/Manager.Reset")])]),
      ("Description", .string "Security Policy"),
      ("Id", .string "SecurityPolicy"),
      ("Name", .string "Security Policy")]

/-- The answer to the call: an error code, or whether it has succeeded. -/
def fipsmodeChangeCb (call : ModeCall) : Option Bool → Response
  | none => ⟨[call], [.internalError], none⟩
  | some false => ⟨[call], [.unrecognizedRequestBody], none⟩
  | some true => ⟨[call], [], some acceptedBody⟩

/-- `reply` is what the security manager answers to a call. -/
def handleFipsPolicyPatch (reply : ModeCall → Option Bool) (version : String)
    (enabledStatus : Bool) : Response :=
  let call := if !enabledStatus then ModeCall.disableFips else .enableFips version
  fipsmodeChangeCb call (reply call)

/-! ### What is read -/

section Patch

variable [Reader]

/-- `json_util::readJson` with one member that is to be read further. -/
def readMember (name : String) (json : JsonTree) : Option (Option JsonTree) := do
  let members ← onlyMembers [name] json
  readOptional members name asJson

/-- `json_util::readJsonPatch`, which leaves out annotations and refuses a body without anything
else. -/
def readPatchMember (name : String) (json : JsonTree) : Option (Option JsonTree) :=
  match withoutAnnotations json with
  | .object [] => none
  | json => readMember name json

def readPolicy (json : JsonTree) : Option (Option String × Option Bool) := do
  let members ← onlyMembers ["Version", "Enabled"] json
  let fipsVersion ← readOptional members "Version" asString
  let enabledStatus ← readOptional members "Enabled" asBool
  return (fipsVersion, enabledStatus)

/-- The object that has been read, compared with `nullptr` and dereferenced. The result is `none`
where an optional is dereferenced that has no value. -/
def withObject (object : Option (Option JsonTree)) (next : JsonTree → Option Response) :
    Option Response :=
  match object with
  | none => some (errorResponse [.ofReadJson, .unrecognizedRequestBody])
  | some none => none
  | some (some .null) => some (errorResponse [.internalError])
  | some (some json) => next json

/-- The version to disable FIPS is "na", and no other version is. -/
def patchPolicy (reply : ModeCall → Option Bool) (fipsPolicyObject : JsonTree) :
    Option Response :=
  match readPolicy fipsPolicyObject with
  | none => some (errorResponse [.ofReadJson, .unrecognizedRequestBody])
  | some (some fipsVersion, some enabledStatus) =>
    if (!enabledStatus ∧ fipsVersion ≠ "na") ∨ (enabledStatus ∧ fipsVersion = "na") then
      some (errorResponse [.unrecognizedRequestBody])
    else some (handleFipsPolicyPatch reply fipsVersion enabledStatus)
  | some _ => none

def handleSecurityPolicyPatch (reply : ModeCall → Option Bool) (body : JsonTree) :
    Option Response :=
  withObject (readPatchMember "Oem" body) fun oemObject =>
    withObject (readMember "Intel" oemObject) fun oemIntelObject =>
      withObject (readMember "FIPSPolicy" oemIntelObject) (patchPolicy reply)

/-! ### What a body asks for -/

/-- A mode with the version that belongs to it. -/
structure ModeRequest where
  version : String
  enabled : Bool
  consistent : version = "na" ↔ enabled = false

def ModeRequest.call (q : ModeRequest) : ModeCall :=
  if q.enabled then .enableFips q.version else .disableFips

/-- An object with this member and no other. -/
def Holds (name : String) (json value : JsonTree) : Prop :=
  ∃ members, onlyMembers [name] json = some members ∧ members.lookup name = some value

/-- The value of "FIPSPolicy" in a body that has nothing else but annotations. -/
def HoldsPolicy (body policy : JsonTree) : Prop :=
  ∃ oem intel, Holds "Oem" (withoutAnnotations body) oem ∧ Holds "Intel" oem intel ∧
    Holds "FIPSPolicy" intel policy

/-- "Version" and "Enabled" are there, and are those of the request. -/
def Asks (body : JsonTree) (q : ModeRequest) : Prop :=
  ∃ policy members, HoldsPolicy body policy ∧
    onlyMembers ["Version", "Enabled"] policy = some members ∧
    members.lookup "Version" = some (.string q.version) ∧
    members.lookup "Enabled" = some (.boolean q.enabled)

/-- No optional without a value is read. The one call is made that the body asks for; one that asks
for none is answered with an error. -/
def PatchRight (reply : ModeCall → Option Bool) (body : JsonTree) : Prop :=
  ∃ r, handleSecurityPolicyPatch reply body = some r ∧
    (∀ q, Asks body q → r.calls = [q.call]) ∧
    ((∀ q, ¬ Asks body q) → r.calls = [] ∧ r.messages ≠ [])

/-- One of the two members is not there, and the other one, if it is, has its type. -/
def Incomplete (policy : JsonTree) : Prop :=
  ∃ members, onlyMembers ["Version", "Enabled"] policy = some members ∧
    (∀ json, members.lookup "Version" = some json → ∃ version, json = .string version) ∧
    (∀ json, members.lookup "Enabled" = some json → ∃ enabled, json = .boolean enabled) ∧
    (members.lookup "Version" = none ∨ members.lookup "Enabled" = none)

/-- The body ends early: "Oem" is an empty object, or "Intel" is, or "FIPSPolicy" is incomplete. -/
def EndsEarly (body : JsonTree) : Prop :=
  Holds "Oem" (withoutAnnotations body) (.object []) ∨
  (∃ oem, Holds "Oem" (withoutAnnotations body) oem ∧ Holds "Intel" oem (.object [])) ∨
  ∃ policy, HoldsPolicy body policy ∧ Incomplete policy

/-! ### The reading of one member -/

section Reading

variable {name : String} {json value : JsonTree} {members : List (String × JsonTree)}

omit [Reader] in
/-- An object with no other member either has the member or is empty. -/
theorem lookup_eq_none_of_only (h : ∀ m ∈ members, m.1 ∈ [name])
    (hlookup : members.lookup name = none) : members = [] := by
  cases members with
  | nil => rfl
  | cons m rest =>
    have hname : m.1 = name := List.mem_singleton.mp (h m List.mem_cons_self)
    simp [← hname] at hlookup

theorem readMember_eq_some_none_iff : readMember name json = some none ↔ json = .object [] := by
  simp only [readMember, Option.bind_eq_bind, Option.bind_eq_some_iff, readOptional]
  constructor
  · rintro ⟨members, honly, hread⟩
    obtain ⟨rfl, hnames⟩ := onlyMembers_eq_some_iff.mp honly
    cases hlookup : members.lookup name with
    | none => rw [lookup_eq_none_of_only hnames hlookup]
    | some value => simp [hlookup] at hread
  · rintro rfl
    exact ⟨[], onlyMembers_eq_some_iff.mpr ⟨rfl, nofun⟩, rfl⟩

theorem readMember_eq_some_some_iff : readMember name json = some (some value) ↔
    Holds name json value ∧ asJson value = some value := by
  simp only [readMember, Option.bind_eq_bind, Option.bind_eq_some_iff]
  constructor
  · rintro ⟨members, honly, hread⟩
    obtain ⟨value', hlookup, hvalue⟩ := readOptional_eq_some hread
    obtain rfl := asJson_eq_some hvalue
    exact ⟨⟨members, honly, hlookup⟩, hvalue⟩
  · rintro ⟨⟨members, honly, hlookup⟩, hvalue⟩
    exact ⟨members, honly, by rw [readOptional, hlookup]; simp [hvalue]⟩

theorem readPatchMember_ne_some_none : readPatchMember name json ≠ some none := by
  intro h
  unfold readPatchMember at h
  split at h
  · exact absurd h (by simp)
  · next hempty => exact hempty (readMember_eq_some_none_iff.mp h)

theorem readPatchMember_eq_some_some_iff : readPatchMember name json = some (some value) ↔
    Holds name (withoutAnnotations json) value ∧ asJson value = some value := by
  unfold readPatchMember
  split
  · next hempty =>
    rw [hempty]
    constructor
    · exact fun h => absurd h (by simp)
    · rintro ⟨⟨members, honly, hlookup⟩, -⟩
      obtain ⟨hmembers, -⟩ := onlyMembers_eq_some_iff.mp honly
      obtain rfl := object.inj hmembers
      exact absurd hlookup (by simp)
  · exact readMember_eq_some_some_iff

theorem Holds.asJson_eq (h : Holds name json value) : asJson json = some json := by
  obtain ⟨members, honly, -⟩ := h
  obtain ⟨rfl, -⟩ := onlyMembers_eq_some_iff.mp honly
  exact asJson_object members

theorem Holds.ne_null (h : Holds name json value) : json ≠ .null := by
  obtain ⟨members, honly, -⟩ := h
  obtain ⟨rfl, -⟩ := onlyMembers_eq_some_iff.mp honly
  exact JsonTree.noConfusion

variable {object : Option (Option JsonTree)} {next : JsonTree → Option Response} {r : Response}

omit [Reader] in
theorem withObject_of_ne_null (hnull : json ≠ .null) :
    withObject (some (some json)) next = next json := by
  cases json with
  | null => exact absurd rfl hnull
  | _ => rfl

omit [Reader] in
theorem withObject_eq_none_iff : withObject object next = none ↔
    object = some none ∨ ∃ json, object = some (some json) ∧ json ≠ .null ∧ next json = none := by
  match object with
  | none => simp [withObject]
  | some none => simp [withObject]
  | some (some json) =>
    by_cases hnull : json = .null
    · simp [hnull, withObject]
    · simp [withObject_of_ne_null hnull, hnull]

omit [Reader] in
/-- A response is an error, or comes from the object that has been read. -/
theorem withObject_eq_some (h : withObject object next = some r) :
    r.calls = [] ∧ r.messages ≠ [] ∨
      ∃ json, object = some (some json) ∧ next json = some r := by
  match object with
  | none =>
    obtain rfl := Option.some.inj h
    exact .inl ⟨rfl, by simp [errorResponse]⟩
  | some none => exact absurd h (by simp [withObject])
  | some (some json) =>
    by_cases hnull : json = .null
    · subst hnull
      obtain rfl := Option.some.inj h
      exact .inl ⟨rfl, by simp [errorResponse]⟩
    · rw [withObject_of_ne_null hnull] at h
      exact .inr ⟨json, rfl, h⟩

end Reading

/-! ### The policy -/

section Policy

variable {policy : JsonTree} {reply : ModeCall → Option Bool} {r : Response}

theorem readPolicy_eq_some_iff {fipsVersion : Option String} {enabledStatus : Option Bool} :
    readPolicy policy = some (fipsVersion, enabledStatus) ↔
      ∃ members, onlyMembers ["Version", "Enabled"] policy = some members ∧
        members.lookup "Version" = fipsVersion.map .string ∧
        members.lookup "Enabled" = enabledStatus.map .boolean := by
  have hstring (members : List (String × JsonTree)) (name : String) (s : Option String) :
      readOptional members name asString = some s ↔ members.lookup name = s.map .string :=
    readOptional_eq_some_iff asString_eq_some_iff
  have hbool (members : List (String × JsonTree)) (name : String) (b : Option Bool) :
      readOptional members name asBool = some b ↔ members.lookup name = b.map .boolean :=
    readOptional_eq_some_iff asBool_eq_some_iff
  simp only [readPolicy, Option.bind_eq_bind, Option.bind_eq_some_iff, Option.pure_def,
    Option.some.injEq, Prod.mk.injEq]
  constructor
  · rintro ⟨members, honly, s, hs, b, hb, rfl, rfl⟩
    exact ⟨members, honly, (hstring members _ s).mp hs, (hbool members _ b).mp hb⟩
  · rintro ⟨members, honly, hs, hb⟩
    exact ⟨members, honly, _, (hstring members _ _).mpr hs, _, (hbool members _ _).mpr hb, rfl, rfl⟩

theorem incomplete_iff : Incomplete policy ↔ ∃ fipsVersion enabledStatus,
    readPolicy policy = some (fipsVersion, enabledStatus) ∧
      (fipsVersion = none ∨ enabledStatus = none) := by
  constructor
  · rintro ⟨members, honly, hversion, henabled, hnone⟩
    have hs : ∃ s : Option String, members.lookup "Version" = s.map .string := by
      cases h : members.lookup "Version" with
      | none => exact ⟨none, rfl⟩
      | some json =>
        obtain ⟨version, rfl⟩ := hversion json h
        exact ⟨some version, rfl⟩
    have hb : ∃ b : Option Bool, members.lookup "Enabled" = b.map .boolean := by
      cases h : members.lookup "Enabled" with
      | none => exact ⟨none, rfl⟩
      | some json =>
        obtain ⟨enabled, rfl⟩ := henabled json h
        exact ⟨some enabled, rfl⟩
    obtain ⟨s, hs⟩ := hs
    obtain ⟨b, hb⟩ := hb
    refine ⟨s, b, readPolicy_eq_some_iff.mpr ⟨members, honly, hs, hb⟩, ?_⟩
    rw [hs, hb] at hnone
    simpa using hnone
  · rintro ⟨s, b, hread, hnone⟩
    obtain ⟨members, honly, hs, hb⟩ := readPolicy_eq_some_iff.mp hread
    refine ⟨members, honly, ?_, ?_, by rw [hs, hb]; simpa using hnone⟩
    · intro json hlookup
      rw [hs] at hlookup
      obtain ⟨version, -, rfl⟩ := Option.map_eq_some_iff.mp hlookup
      exact ⟨version, rfl⟩
    · intro json hlookup
      rw [hb] at hlookup
      obtain ⟨enabled, -, rfl⟩ := Option.map_eq_some_iff.mp hlookup
      exact ⟨enabled, rfl⟩

theorem patchPolicy_eq_none_iff : patchPolicy reply policy = none ↔ Incomplete policy := by
  rw [incomplete_iff, patchPolicy]
  match hread : readPolicy policy with
  | none => simp
  | some (none, enabledStatus) => simp
  | some (some fipsVersion, none) => simp
  | some (some fipsVersion, some enabledStatus) =>
    simp only [Option.some.injEq, Prod.mk.injEq]
    constructor
    · intro h
      split at h <;> exact absurd h (by simp)
    · rintro ⟨s, b, ⟨rfl, rfl⟩, hnone⟩
      exact absurd hnone (by simp)

omit [Reader] in
theorem calls_handleFipsPolicyPatch (reply : ModeCall → Option Bool) (q : ModeRequest) :
    (handleFipsPolicyPatch reply q.version q.enabled).calls = [q.call] := by
  have hcalls (call : ModeCall) (answer : Option Bool) :
      (fipsmodeChangeCb call answer).calls = [call] := by
    match answer with
    | none | some false | some true => rfl
  rw [handleFipsPolicyPatch, hcalls, ModeRequest.call]
  cases q.enabled <;> rfl

theorem patchPolicy_of_lookup {members : List (String × JsonTree)} (q : ModeRequest)
    (honly : onlyMembers ["Version", "Enabled"] policy = some members)
    (hversion : members.lookup "Version" = some (.string q.version))
    (henabled : members.lookup "Enabled" = some (.boolean q.enabled)) :
    patchPolicy reply policy = some (handleFipsPolicyPatch reply q.version q.enabled) := by
  have hread : readPolicy policy = some (some q.version, some q.enabled) :=
    readPolicy_eq_some_iff.mpr ⟨members, honly, hversion, henabled⟩
  have hconsistent :
      ¬ ((!q.enabled ∧ q.version ≠ "na") ∨ (q.enabled ∧ q.version = "na")) := by
    have hq := q.consistent
    cases hb : q.enabled <;> simp_all
  rw [patchPolicy, hread]
  exact if_neg hconsistent

/-- A response is an error, or there is a request for it. -/
theorem patchPolicy_eq_some (h : patchPolicy reply policy = some r) :
    r.calls = [] ∧ r.messages ≠ [] ∨
      ∃ (q : ModeRequest) (members : List (String × JsonTree)),
        onlyMembers ["Version", "Enabled"] policy = some members ∧
        members.lookup "Version" = some (.string q.version) ∧
        members.lookup "Enabled" = some (.boolean q.enabled) := by
  unfold patchPolicy at h
  split at h
  · obtain rfl := Option.some.inj h
    exact .inl ⟨rfl, by simp [errorResponse]⟩
  · next fipsVersion enabledStatus hread =>
    split at h
    · obtain rfl := Option.some.inj h
      exact .inl ⟨rfl, by simp [errorResponse]⟩
    · next hconsistent =>
      have hq : fipsVersion = "na" ↔ enabledStatus = false := by
        cases enabledStatus <;> simp_all
      obtain ⟨members, honly, hversion, henabled⟩ := readPolicy_eq_some_iff.mp hread
      exact .inr ⟨⟨fipsVersion, enabledStatus, hq⟩, members, honly, hversion, henabled⟩
  · exact absurd h (by simp)

end Policy

/-! ### The whole body -/

section Body

variable {body policy : JsonTree} {reply : ModeCall → Option Bool} {r : Response}

theorem handleSecurityPolicyPatch_eq_none_iff (reply : ModeCall → Option Bool) :
    handleSecurityPolicyPatch reply body = none ↔ EndsEarly body := by
  simp only [handleSecurityPolicyPatch, withObject_eq_none_iff, readPatchMember_ne_some_none,
    false_or, readPatchMember_eq_some_some_iff, readMember_eq_some_none_iff,
    readMember_eq_some_some_iff, patchPolicy_eq_none_iff]
  constructor
  · rintro ⟨oem, ⟨hoem, -⟩, -, rfl | ⟨intel, ⟨hintel, -⟩, -, rfl | ⟨policy, ⟨hpolicy, -⟩, -, h⟩⟩⟩
    · exact .inl hoem
    · exact .inr (.inl ⟨oem, hoem, hintel⟩)
    · exact .inr (.inr ⟨policy, ⟨oem, intel, hoem, hintel, hpolicy⟩, h⟩)
  · rintro (hoem | ⟨oem, hoem, hintel⟩ | ⟨policy, ⟨oem, intel, hoem, hintel, hpolicy⟩, h⟩)
    · exact ⟨.object [], ⟨hoem, asJson_object []⟩, JsonTree.noConfusion, .inl rfl⟩
    · exact ⟨oem, ⟨hoem, hintel.asJson_eq⟩, hintel.ne_null,
        .inr ⟨.object [], ⟨hintel, asJson_object []⟩, JsonTree.noConfusion, .inl rfl⟩⟩
    · have hobject : ∃ members, policy = .object members :=
        have ⟨members, honly, _⟩ := h
        ⟨members, (onlyMembers_eq_some_iff.mp honly).1⟩
      obtain ⟨members, rfl⟩ := hobject
      exact ⟨oem, ⟨hoem, hintel.asJson_eq⟩, hintel.ne_null,
        .inr ⟨intel, ⟨hintel, hpolicy.asJson_eq⟩, hpolicy.ne_null,
          .inr ⟨.object members, ⟨hpolicy, asJson_object members⟩, JsonTree.noConfusion, h⟩⟩⟩

/-- The three levels above the policy are read in a body that holds it. -/
theorem handleSecurityPolicyPatch_of_holdsPolicy {members : List (String × JsonTree)}
    (h : HoldsPolicy body (.object members)) :
    handleSecurityPolicyPatch reply body = patchPolicy reply (.object members) := by
  obtain ⟨oem, intel, hoem, hintel, hpolicy⟩ := h
  have hreadOem : readPatchMember "Oem" body = some (some oem) :=
    readPatchMember_eq_some_some_iff.mpr ⟨hoem, hintel.asJson_eq⟩
  have hreadIntel : readMember "Intel" oem = some (some intel) :=
    readMember_eq_some_some_iff.mpr ⟨hintel, hpolicy.asJson_eq⟩
  have hreadPolicy : readMember "FIPSPolicy" intel = some (some (.object members)) :=
    readMember_eq_some_some_iff.mpr ⟨hpolicy, asJson_object members⟩
  rw [handleSecurityPolicyPatch, hreadOem, withObject_of_ne_null hintel.ne_null, hreadIntel,
    withObject_of_ne_null hpolicy.ne_null, hreadPolicy, withObject_of_ne_null JsonTree.noConfusion]

theorem Asks.calls {q : ModeRequest} (hq : Asks body q)
    (h : handleSecurityPolicyPatch reply body = some r) : r.calls = [q.call] := by
  obtain ⟨policy, members, hpolicy, honly, hversion, henabled⟩ := hq
  obtain ⟨rfl, -⟩ := onlyMembers_eq_some_iff.mp honly
  rw [handleSecurityPolicyPatch_of_holdsPolicy hpolicy,
    patchPolicy_of_lookup q honly hversion henabled] at h
  obtain rfl := Option.some.inj h
  exact calls_handleFipsPolicyPatch reply q

theorem asks_or_error (h : handleSecurityPolicyPatch reply body = some r) :
    r.calls = [] ∧ r.messages ≠ [] ∨ ∃ q, Asks body q := by
  obtain herror | ⟨oem, hoem, h⟩ := withObject_eq_some h
  · exact .inl herror
  obtain herror | ⟨intel, hintel, h⟩ := withObject_eq_some h
  · exact .inl herror
  obtain herror | ⟨policy, hpolicy, h⟩ := withObject_eq_some h
  · exact .inl herror
  obtain herror | ⟨q, members, hmembers⟩ := patchPolicy_eq_some h
  · exact .inl herror
  · exact .inr ⟨q, policy, members,
      ⟨oem, intel, (readPatchMember_eq_some_some_iff.mp hoem).1,
        (readMember_eq_some_some_iff.mp hintel).1, (readMember_eq_some_some_iff.mp hpolicy).1⟩,
      hmembers⟩

/-- The handler does what a body asks for, unless the body ends early. -/
theorem patchRight_iff (reply : ModeCall → Option Bool) (body : JsonTree) :
    PatchRight reply body ↔ ¬ EndsEarly body := by
  rw [← handleSecurityPolicyPatch_eq_none_iff reply]
  constructor
  · rintro ⟨r, h, -⟩
    rw [h]
    exact Option.some_ne_none r
  · intro hne
    obtain ⟨r, h⟩ := Option.ne_none_iff_exists'.mp hne
    refine ⟨r, h, fun q hq => hq.calls h, fun hnone => ?_⟩
    obtain herror | ⟨q, hq⟩ := asks_or_error h
    · exact herror
    · exact absurd hq (hnone q)

end Body

end Patch

/-- "Enabled" without "Version". -/
theorem not_patchRight_enabled : ¬ PatchRight (fun _ => some true)
    (.object [("Oem", .object [("Intel", .object
      [("FIPSPolicy", .object [("Enabled", .boolean true)])])])]) := by
  rintro ⟨r, h, -⟩
  have hnone : handleSecurityPolicyPatch (fun _ => some true)
      (.object [("Oem", .object [("Intel", .object
        [("FIPSPolicy", .object [("Enabled", .boolean true)])])])]) = none := by rfl
  rw [hnone] at h
  exact absurd h (by simp)

end MetaCommon.Fips
