import MetaCommon.Lib.Runs
import MetaCommon.NodeManager.ObjectPaths
import MetaCommon.NodeManager.PolicyView

/-!
# Who may change a policy

A request for a policy asks the mapper for its path, reads the attributes at the path and sends a
call that changes the policy, or is answered with an error. Any number of requests are under way at
once, and each answer comes at any time. The policies of other owners must not be changed, whatever
the order. The service that holds the policies is not part of this. A POST reads its answer while
the policy is enabled; here it does so afterwards.
-/

namespace MetaCommon.NodeManager.Ownership

open JsonTree (Reader)

inductive Change
  | update (params : PolicyParams)
  | delete
  | setEnabled (enabled : Bool)
  | resetStatistics

/-- The attributes that say whose a policy is. -/
structure SameOwner (properties properties' : Properties) : Prop where
  owner : getPropertyValue Attribute.int32? properties "Owner" =
    getPropertyValue Attribute.int32? properties' "Owner"
  domainId : getPropertyValue Attribute.string? properties "DomainId" =
    getPropertyValue Attribute.string? properties' "DomainId"

/-- The service that holds the policies, by what its methods do to the attributes. -/
structure Service where
  update : PolicyParams → Properties → Properties
  setEnabled : Bool → Properties → Properties
  createWithId : String → String → PolicyParams → Properties
  update_sameOwner : ∀ params properties, SameOwner (update params properties) properties
  setEnabled_sameOwner : ∀ enabled properties, SameOwner (setEnabled enabled properties) properties
  createWithId_owner : ∀ domain id params,
    getPropertyValue Attribute.int32? (createWithId domain id params) "Owner" =
      some kPolicyOwnerBmc

def Service.apply (service : Service) : Change → Properties → Option Properties
  | .update params, properties => some (service.update params properties)
  | .delete, _ => none
  | .setEnabled enabled, properties => some (service.setEnabled enabled properties)
  | .resetStatistics, properties => some properties

/-! ### The requests -/

/-- What is asked for a policy that is looked up by its name. `state` is the "State" of the body, if
it could be read. -/
inductive Action
  | patch (body : JsonTree)
  | changeState (state : Option String)
  | resetStatistics

inductive Request
  | byName (policyName : String) (action : Action)
  | delete (policyName : String)
  | create (domain id : String) (params : PolicyParams) (state : Bool)

inductive Message
  | lookup (message : LookupMessage)
  | patch (message : PolicyMessage)
  | internalError
  | operationNotAllowed
  | actionParameterMissing
  | actionParameterValueFormatError (state : String)
  | queryNotSupportedOnResource
  | resourceNotFound (type name : String)
  | resourceCannotBeDeleted
  | dbusError
  | created
  /-- The internal error of `getAttributes` or `getStatistics`, after what was asked for. -/
  | notShown

/-- What a request waits for. -/
inductive Stage
  /-- The mapper was asked for the paths of the policies. -/
  | paths (policyName : String) (action : Action)
  /-- The attributes were asked for. -/
  | attributes (path : String) (action : Action)
  /-- The reply with the attributes is on its way. -/
  | gotAttributes (path : String) (action : Action) (properties : Option Properties)
  /-- All policies were asked for. -/
  | managed (policyId : String)
  | gotManaged (policyId : String) (objects : Option (List (String × Properties)))
  /-- A call that changes the policy was sent. -/
  | change (path : String) (change : Change)
  | create (domain id : String) (params : PolicyParams) (state : Bool)
  | gotCreated (path : String) (state : Bool)
  /-- The attributes and the statistics are read for the answer, and `left` replies are to come. -/
  | reading (left : ℕ)
  | done
  /-- The name is no regular expression, and the handler has thrown. -/
  | thrown

structure Flight where
  request : Request
  stage : Stage
  messages : List Message

def Flight.to (f : Flight) (stage : Stage) : Flight := { f with stage := stage }

def Flight.finish (f : Flight) (messages : List Message) : Flight :=
  { f with stage := .done, messages := f.messages ++ messages }

/-- The answer is read, and given when both replies have come. -/
def Flight.view (f : Flight) (messages : List Message) : Flight :=
  { f with stage := .reading 2, messages := f.messages ++ messages }

def Flight.shown (f : Flight) (left : ℕ) (messages : List Message) : Flight :=
  if left ≤ 1 then f.finish messages
  else { f with stage := .reading (left - 1), messages := f.messages ++ messages }

/-- The policy is shown when it has been patched or created. -/
def Request.shows : Request → Bool
  | .byName _ (.patch _) => true
  | .create _ _ _ _ => true
  | _ => false

def Request.creates : Request → Bool
  | .create _ _ _ _ => true
  | _ => false

def Flight.close (f : Flight) (shows : Bool) (messages : List Message) : Flight :=
  if shows then f.view messages else f.finish messages

def start (request : Request) : Flight :=
  match request with
  | .byName policyName action => ⟨request, .paths policyName action, []⟩
  | .delete policyName =>
    if policyName = "" then ⟨request, .done, [.internalError]⟩
    else ⟨request, .managed policyName, []⟩
  | .create domain id params state => ⟨request, .create domain id params state, []⟩

/-- `createAttributePredicate` for "Id" and for "Owner". -/
def isOwn (policyId : String) (properties : Properties) : Bool :=
  getPropertyValue Attribute.string? properties "Id" == some policyId &&
    getPropertyValue Attribute.int32? properties "Owner" == some kPolicyOwnerBmc

/-- `asyncFindPolicies` with the predicate of a deletion. -/
def findOwn (policyId : String) (objects : List (String × Properties)) : List String :=
  (objects.filter fun object => isOwn policyId object.2).map Prod.fst

def changeDbusObjectState (f : Flight) (path : String) : Option String → Flight
  | none => f.finish [.actionParameterMissing]
  | some state =>
    if state = "Enabled" then f.to (.change path (.setEnabled true))
    else if state = "Disabled" then f.to (.change path (.setEnabled false))
    else f.finish [.actionParameterValueFormatError state]

/-! ### The steps -/

/-- The policies by their paths, the paths that have ever had one, the requests, and the changes
that were carried out: for which request, to which attributes. -/
structure System where
  objects : String → Option Properties
  known : List String
  flights : List Flight
  served : List (ℕ × Properties × Change)

inductive ServiceError
  | notPermitted
  | other

/-- How a call ends, other than with the reply that the service has. -/
inductive Answer
  | ok
  | error (e : ServiceError)
  /-- The paths that the mapper knows, or the paths of the policies that are listed. -/
  | paths (objects : List String)
  /-- The path of the new policy. -/
  | created (path : String)

/-- The error of a call that changes a policy. -/
def changeFailed (path : String) (e : ServiceError) : Change → Message
  | .update _ => .dbusError
  | .delete => match e with
    | .notPermitted => .resourceCannotBeDeleted
    | .other => .resourceNotFound "Policies" path
  | .setEnabled _ => match e with
    | .notPermitted => .queryNotSupportedOnResource
    | .other => .internalError
  | .resetStatistics => .internalError

section Steps

variable (fromDurationString : String → Option ℤ)

/-- The handler of the path that was looked up. -/
def afterPaths (f : Flight) (policyName : String) (action : Action)
    (objects : Option (List String)) : Flight :=
  match getPolicyObjectPath policyName objects.isNone (objects.getD []) with
  | some ⟨messages, [path]⟩ =>
    let f := { f with messages := f.messages ++ messages.map Message.lookup }
    match action with
    | .resetStatistics => f.to (.change path .resetStatistics)
    | _ => f.to (.attributes path action)
  | some ⟨messages, _⟩ => f.finish (messages.map Message.lookup)
  | none => f.to .thrown

/-- A PATCH ends with an update or with messages. -/
def sendUpdate (f : Flight) (path : String) (response : PolicyResponse) : Flight :=
  match response.updates with
  | [params] => f.to (.change path (.update params))
  | _ => f.finish (response.messages.map Message.patch)

/-- The handler of the attributes. -/
def afterAttributes [Reader] (f : Flight) (path : String) (action : Action)
    (properties : Option Properties) : Flight :=
  match action with
  | .patch body => sendUpdate f path (patchPolicy fromDurationString properties body)
  | .changeState state =>
    match properties with
    | none => f.finish [.internalError]
    | some properties =>
      if isHwProtectionPolicy properties = false ∧ isPolicyReadOnly properties = true then
        f.finish [.operationNotAllowed]
      else changeDbusObjectState f path state
  | .resetStatistics => f

/-- The handler of the list of the policies. -/
def afterManaged (f : Flight) (policyId : String) : Option (List (String × Properties)) → Flight
  | none => f.finish [.internalError]
  | some objects =>
    match findOwn policyId objects with
    | [path] => f.to (.change path .delete)
    | _ => f.finish [.resourceNotFound "Policies" policyId]

def System.put (s : System) (path : String) (properties : Option Properties) : System :=
  { s with objects := fun other => if other = path then properties else s.objects other }

/-- There is a policy at a path that had none. -/
def System.make (s : System) (path : String) (properties : Properties) : System :=
  { s.put path (some properties) with known := path :: s.known }

def System.fly (s : System) (i : ℕ) (f : Flight) : System :=
  { s with flights := s.flights.set i f }

variable (service : Service)

/-- A reply is made or handled, which changes nothing but where the request stands. -/
def handle [Reader] (s : System) (f : Flight) (answer : Answer) : Option Flight :=
  match f.stage, answer with
  | .paths policyName action, .paths objects => some (afterPaths f policyName action (some objects))
  | .paths policyName action, .error _ => some (afterPaths f policyName action none)
  | .attributes path action, .ok => some (f.to (.gotAttributes path action (s.objects path)))
  | .attributes path action, .error _ => some (f.to (.gotAttributes path action none))
  | .gotAttributes path action properties, .ok =>
    some (afterAttributes fromDurationString f path action properties)
  | .managed policyId, .paths objects => some (f.to (.gotManaged policyId
      (some (objects.filterMap fun path => (s.objects path).map (path, ·)))))
  | .managed policyId, .error _ => some (f.to (.gotManaged policyId none))
  | .gotManaged policyId objects, .ok => some (afterManaged f policyId objects)
  | .change path change, .error e => some (f.close f.request.creates [changeFailed path e change])
  | .create _ _ _ _, .error _ => some (f.finish [.dbusError])
  | .gotCreated path state, .ok =>
    some (if state then f.to (.change path (.setEnabled true)) else f.view [])
  | .reading left, .ok => some (f.shown left [])
  | .reading left, .error _ => some (f.shown left [.notShown])
  | _, _ => none

/-- The state in which a change has been carried out. -/
def System.serve (s : System) (i : ℕ) (f : Flight) (path : String) (change : Change)
    (properties : Properties) : System :=
  { (s.put path (service.apply change properties)).fly i (f.close f.request.shows []) with
    served := s.served ++ [(i, properties, change)] }

/-- The state in which a policy has been created. -/
def System.create (s : System) (i : ℕ) (f : Flight) (path : String) (state : Bool)
    (properties : Properties) : System :=
  (s.make path properties).fly i
    { f.to (.gotCreated path state) with messages := f.messages ++ [.created] }

/-- A request goes on: its call is carried out, or its reply is handled. -/
def advance [Reader] (s : System) (i : ℕ) (f : Flight) (answer : Answer) : Option System :=
  match f.stage, answer with
  | .change path change, .ok => (s.objects path).map (s.serve service i f path change)
  | .create domain id params state, .created path =>
    if s.objects path = none then
      some (s.create i f path state (service.createWithId domain id params))
    else none
  | _, _ => (handle fromDurationString s f answer).map (s.fly i)

inductive Event
  | request (request : Request)
  | advance (i : ℕ) (answer : Answer)
  /-- Another owner makes a policy, changes one or takes one away. -/
  | appear (path : String) (properties : Properties)
  | alter (path : String) (properties : Properties)
  | vanish (path : String)

def step [Reader] (s : System) : Event → Option System
  | .request request => some { s with flights := s.flights ++ [start request] }
  | .advance i answer =>
    (s.flights[i]?).bind fun f => advance fromDurationString service s i f answer
  | .appear path properties =>
    if s.objects path = none then some (s.make path properties) else none
  | .alter path properties => (s.objects path).map fun _ => s.put path (some properties)
  | .vanish path => some (s.put path none)

end Steps

/-! ### What must hold -/

/-- A change that the owner of a policy does not forbid. -/
def Permitted (properties : Properties) : Change → Prop
  | .update _ => isPolicyReadOnly properties = false
  | .delete => getPropertyValue Attribute.int32? properties "Owner" = some kPolicyOwnerBmc
  | .setEnabled _ => isHwProtectionPolicy properties = true ∨ isPolicyReadOnly properties = false
  | .resetStatistics => True

/-- No path has had a policy before another owner makes one there, and a policy keeps its owner. -/
def Lawful (s : System) : Event → Prop
  | .appear path _ => path ∉ s.known
  | .alter path properties => ∀ current ∈ s.objects path, SameOwner properties current
  | _ => True

/-- The policy at a path is as `P` says, now or whenever there is one again. -/
def Stays (s : System) (path : String) (P : Properties → Prop) : Prop :=
  path ∈ s.known ∧ ∀ current ∈ s.objects path, P current

/-- What was read of a policy does not permit more than its owner does. -/
def Covers (properties current : Properties) : Prop :=
  ∀ change, Permitted properties change → Permitted current change

def Sound (s : System) : Stage → Prop
  | .gotAttributes path _ (some properties) => Stays s path (Covers properties)
  | .gotManaged _ (some objects) => ∀ object ∈ objects, Stays s object.1 (Covers object.2)
  | .change path change => change = .resetStatistics ∨ Stays s path (Permitted · change)
  | .gotCreated path _ => Stays s path (isPolicyReadOnly · = false)
  | _ => True

structure Inv (s : System) : Prop where
  known : ∀ path properties, s.objects path = some properties → path ∈ s.known
  flights : ∀ f ∈ s.flights, Sound s f.stage
  served : ∀ entry ∈ s.served, Permitted entry.2.1 entry.2.2

/-! ### How the policies change -/

/-- What a predicate on a policy must be for other requests not to matter. -/
structure OfOwner (P : Properties → Prop) : Prop where
  congr : ∀ {properties current}, SameOwner properties current → P current → P properties
  own : ∀ {properties}, getPropertyValue Attribute.int32? properties "Owner" =
    some kPolicyOwnerBmc → P properties

/-- At a path that has had a policy the owner is the same as before, or it is the BMC. -/
structure Evolves (s s' : System) : Prop where
  known : ∀ path ∈ s.known, path ∈ s'.known
  objects : ∀ path ∈ s.known, ∀ current' ∈ s'.objects path,
    getPropertyValue Attribute.int32? current' "Owner" = some kPolicyOwnerBmc ∨
      ∃ current ∈ s.objects path, SameOwner current' current

theorem SameOwner.refl (properties : Properties) : SameOwner properties properties := ⟨rfl, rfl⟩

theorem isPolicyReadOnly_congr {properties current : Properties}
    (h : SameOwner properties current) :
    isPolicyReadOnly properties = isPolicyReadOnly current := by
  rw [isPolicyReadOnly, isPolicyReadOnly, h.owner]

theorem isHwProtectionPolicy_congr {properties current : Properties}
    (h : SameOwner properties current) :
    isHwProtectionPolicy properties = isHwProtectionPolicy current := by
  rw [isHwProtectionPolicy, isHwProtectionPolicy, h.domainId]

theorem not_readOnly_of_own {properties : Properties}
    (h : getPropertyValue Attribute.int32? properties "Owner" = some kPolicyOwnerBmc) :
    isPolicyReadOnly properties = false := by
  rw [isPolicyReadOnly, h]
  rfl

theorem ofOwner_permitted (change : Change) : OfOwner (Permitted · change) where
  congr h := by
    cases change with
    | update params => exact (isPolicyReadOnly_congr h).trans
    | delete => exact h.owner.trans
    | setEnabled enabled =>
      simp only [Permitted, isPolicyReadOnly_congr h, isHwProtectionPolicy_congr h]
      exact id
    | resetStatistics => exact id
  own h := by
    cases change with
    | update params => exact not_readOnly_of_own h
    | delete => exact h
    | setEnabled enabled => exact .inr (not_readOnly_of_own h)
    | resetStatistics => trivial

theorem ofOwner_covers (properties : Properties) : OfOwner (Covers properties) where
  congr h hcurrent change hchange := (ofOwner_permitted change).congr h (hcurrent change hchange)
  own h change _ := (ofOwner_permitted change).own h

theorem ofOwner_writable : OfOwner (isPolicyReadOnly · = false) where
  congr h := (isPolicyReadOnly_congr h).trans
  own := not_readOnly_of_own

section Evolution

variable {s s' : System}

@[simp] theorem put_objects_self (s : System) (path : String) (properties : Option Properties) :
    (s.put path properties).objects path = properties := if_pos rfl

theorem put_objects_of_ne {path other : String} (properties : Option Properties)
    (h : other ≠ path) : (s.put path properties).objects other = s.objects other := if_neg h

theorem Stays.evolve {path : String} {P : Properties → Prop} (hP : OfOwner P) (h : Stays s path P)
    (hs : Evolves s s') : Stays s' path P := by
  refine ⟨hs.known path h.1, fun current' hcurrent' => ?_⟩
  rcases hs.objects path h.1 current' hcurrent' with hown | ⟨current, hcurrent, hsame⟩
  · exact hP.own hown
  · exact hP.congr hsame (h.2 current hcurrent)

theorem Sound.evolve {stage : Stage} (h : Sound s stage) (hs : Evolves s s') : Sound s' stage := by
  cases stage with
  | gotAttributes path action properties =>
    cases properties with
    | none => trivial
    | some properties => exact Stays.evolve (ofOwner_covers properties) h hs
  | gotManaged policyId objects =>
    cases objects with
    | none => trivial
    | some objects =>
      exact fun object hobject => Stays.evolve (ofOwner_covers object.2) (h object hobject) hs
  | change path change =>
    rcases h with hreset | hstays
    · exact .inl hreset
    · exact .inr (hstays.evolve (ofOwner_permitted change) hs)
  | gotCreated path state => exact Stays.evolve ofOwner_writable h hs
  | _ => trivial

theorem evolves_of_eq (h : s'.objects = s.objects) (hknown : s'.known = s.known) :
    Evolves s s' := by
  constructor
  · intro path hpath
    rwa [hknown]
  · intro path _ current' hcurrent'
    rw [h] at hcurrent'
    exact .inr ⟨current', hcurrent', SameOwner.refl current'⟩

/-- A policy is put at a path, or taken away. -/
theorem evolves_put {path : String} {properties : Option Properties}
    (hobjects : s'.objects = (s.put path properties).objects)
    (hknown : ∀ other ∈ s.known, other ∈ s'.known)
    (h : path ∈ s.known → ∀ current' ∈ properties,
      getPropertyValue Attribute.int32? current' "Owner" = some kPolicyOwnerBmc ∨
        ∃ current ∈ s.objects path, SameOwner current' current) : Evolves s s' where
  known := hknown
  objects other hother current' hcurrent' := by
    rw [hobjects] at hcurrent'
    by_cases heq : other = path
    · subst heq
      rw [put_objects_self] at hcurrent'
      exact h hother current' hcurrent'
    · rw [put_objects_of_ne _ heq] at hcurrent'
      exact .inr ⟨current', hcurrent', SameOwner.refl current'⟩

end Evolution

/-! ### How a request goes on -/

section Handlers

variable {fromDurationString : String → Option ℤ} {service : Service} {s s' : System} {i : ℕ}
  {f : Flight} {answer : Answer}

theorem sound_afterPaths (f : Flight) (policyName : String) (action : Action)
    (objects : Option (List String)) : Sound s (afterPaths f policyName action objects).stage := by
  unfold afterPaths
  split
  · cases action with
    | resetStatistics => exact .inl rfl
    | _ => trivial
  · trivial
  · trivial

/-- What is sent or answered for the attributes that a PATCH has read. -/
theorem patchPolicy_cases [Reader] (fromDurationString : String → Option ℤ)
    (properties : Option Properties) (body : JsonTree) :
    ((patchPolicy fromDurationString properties body).messages ≠ [] ∧
      (patchPolicy fromDurationString properties body).updates = []) ∨
    ∃ current params, properties = some current ∧ isPolicyReadOnly current = false ∧
      patchPolicy fromDurationString properties body = ⟨[], [params]⟩ := by
  cases properties with
  | none => exact .inl ⟨List.cons_ne_nil _ _, rfl⟩
  | some current =>
    cases hreadOnly : isPolicyReadOnly current with
    | true =>
      simp only [patchPolicy, hreadOnly]
      exact .inl ⟨List.cons_ne_nil _ _, rfl⟩
    | false =>
      simp only [patchPolicy, hreadOnly, Bool.false_eq_true, if_false]
      cases convertAttributesToPolicyParams current with
      | none => exact .inl ⟨List.cons_ne_nil _ _, rfl⟩
      | some params =>
        dsimp only
        split_ifs with hmessages
        · exact .inr ⟨current, _, rfl, hreadOnly, rfl⟩
        · exact .inl ⟨hmessages, rfl⟩

theorem sound_changeDbusObjectState {path : String} (state : Option String)
    (h : ∀ enabled, Stays s path (Permitted · (.setEnabled enabled))) :
    Sound s (changeDbusObjectState f path state).stage := by
  unfold changeDbusObjectState
  cases state with
  | none => trivial
  | some state =>
    dsimp only
    split_ifs
    · exact .inr (h true)
    · exact .inr (h false)
    · trivial

theorem sound_afterAttributes [Reader] {path : String} {action : Action}
    {properties : Option Properties} (h : Sound s (.gotAttributes path action properties))
    (hf : Sound s f.stage) :
    Sound s (afterAttributes fromDurationString f path action properties).stage := by
  unfold afterAttributes
  cases action with
  | patch body =>
    rcases patchPolicy_cases fromDurationString properties body with
      ⟨-, hupdates⟩ | ⟨current, params, rfl, hwritable, hresponse⟩
    · simp only [sendUpdate, hupdates]
      trivial
    · simp only [sendUpdate, hresponse]
      exact .inr ⟨h.1, fun current' hcurrent' => h.2 current' hcurrent' (.update params) hwritable⟩
  | changeState state =>
    cases properties with
    | none => trivial
    | some properties =>
      dsimp only
      split_ifs with hdenied
      · trivial
      · apply sound_changeDbusObjectState
        intro enabled
        refine ⟨h.1, fun current hcurrent => h.2 current hcurrent (.setEnabled enabled) ?_⟩
        cases hhw : isHwProtectionPolicy properties with
        | true => exact .inl hhw
        | false => exact .inr (by simpa [hhw] using hdenied)
  | resetStatistics => exact hf

theorem sound_afterManaged {policyId : String} {objects : Option (List (String × Properties))}
    (h : Sound s (.gotManaged policyId objects)) :
    Sound s (afterManaged f policyId objects).stage := by
  unfold afterManaged
  cases objects with
  | none => trivial
  | some objects =>
    dsimp only
    split
    · next path hpath =>
      have hmem : path ∈ findOwn policyId objects := by simp [hpath]
      obtain ⟨object, hobject, rfl⟩ := List.mem_map.mp hmem
      obtain ⟨hobject, hown⟩ := List.mem_filter.mp hobject
      have howner : getPropertyValue Attribute.int32? object.2 "Owner" = some kPolicyOwnerBmc := by
        simp only [isOwn, Bool.and_eq_true, beq_iff_eq] at hown
        exact hown.2
      have hstays := h object hobject
      exact .inr ⟨hstays.1, fun current hcurrent => hstays.2 current hcurrent .delete howner⟩
    · trivial

theorem sound_close (f : Flight) (shows : Bool) (messages : List Message) :
    Sound s (f.close shows messages).stage := by
  cases shows <;> trivial

theorem sound_shown (f : Flight) (left : ℕ) (messages : List Message) :
    Sound s (f.shown left messages).stage := by
  unfold Flight.shown
  split_ifs <;> trivial

theorem sound_handle [Reader] (hknown : ∀ path properties, s.objects path = some properties →
    path ∈ s.known) (hsound : Sound s f.stage) {f' : Flight}
    (h : handle fromDurationString s f answer = some f') : Sound s f'.stage := by
  have hread : ∀ {path properties}, s.objects path = some properties →
      Stays s path (Covers properties) := by
    intro path properties hobject
    refine ⟨hknown path properties hobject, fun current hcurrent change hchange => ?_⟩
    obtain rfl : properties = current := Option.some.inj (hobject.symm.trans hcurrent)
    exact hchange
  unfold handle at h
  split at h
  case h_1 policyName action objects hstage =>
    obtain rfl := Option.some.inj h
    exact sound_afterPaths f policyName action _
  case h_2 policyName action e hstage =>
    obtain rfl := Option.some.inj h
    exact sound_afterPaths f policyName action _
  case h_3 path action hstage =>
    obtain rfl := Option.some.inj h
    cases hobject : s.objects path with
    | none => simp [Flight.to, Sound]
    | some properties => exact hread hobject
  case h_5 path action properties hstage =>
    obtain rfl := Option.some.inj h
    exact sound_afterAttributes (hstage ▸ hsound) hsound
  case h_6 policyId objects hstage =>
    obtain rfl := Option.some.inj h
    intro object hobject
    obtain ⟨path, -, hobject⟩ := List.mem_filterMap.mp hobject
    obtain ⟨properties, hproperties, rfl⟩ := Option.map_eq_some_iff.mp hobject
    exact hread hproperties
  case h_8 policyId objects hstage =>
    obtain rfl := Option.some.inj h
    exact sound_afterManaged (hstage ▸ hsound)
  case h_11 path state hstage =>
    obtain rfl := Option.some.inj h
    rw [hstage] at hsound
    split_ifs
    · exact .inr ⟨hsound.1, fun current hcurrent => .inr (hsound.2 current hcurrent)⟩
    · trivial
  case h_9 path change e hstage =>
    obtain rfl := Option.some.inj h
    exact sound_close f _ _
  case h_12 left hstage =>
    obtain rfl := Option.some.inj h
    exact sound_shown f left _
  case h_13 left e hstage =>
    obtain rfl := Option.some.inj h
    exact sound_shown f left _
  case h_14 => exact nomatch h
  all_goals
    obtain rfl := Option.some.inj h
    trivial

/-- Either only the request goes on, or its change is carried out, or its policy is created. -/
theorem advance_cases [Reader] (h : advance fromDurationString service s i f answer = some s') :
    (∃ f', handle fromDurationString s f answer = some f' ∧ s' = s.fly i f') ∨
    (∃ path change properties, f.stage = .change path change ∧
      s.objects path = some properties ∧ s' = s.serve service i f path change properties) ∨
    ∃ domain id params state path, f.stage = .create domain id params state ∧
      s.objects path = none ∧
      s' = s.create i f path state (service.createWithId domain id params) := by
  unfold advance at h
  split at h
  case h_1 path change hstage =>
    obtain ⟨properties, hobject, hs'⟩ := Option.map_eq_some_iff.mp h
    exact .inr (.inl ⟨path, change, properties, hstage, hobject, hs'.symm⟩)
  case h_2 domain id params state path hstage =>
    split_ifs at h with hnone
    exact .inr (.inr ⟨domain, id, params, state, path, hstage, hnone, (Option.some.inj h).symm⟩)
  case h_3 =>
    obtain ⟨f', hf', hs'⟩ := Option.map_eq_some_iff.mp h
    exact .inl ⟨f', hf', hs'.symm⟩

end Handlers

/-! ### Every run -/

section Runs

open Runs

variable {fromDurationString : String → Option ℤ} {service : Service} {s s' : System} {e : Event}

/-- The requests stay as they should, if that one does which goes on. -/
theorem sound_of_set {i : ℕ} {f' : Flight} (hs : Evolves s s')
    (hflights : s'.flights = s.flights.set i f') (hf' : Sound s' f'.stage)
    (h : ∀ f ∈ s.flights, Sound s f.stage) : ∀ f ∈ s'.flights, Sound s' f.stage := by
  intro f hf
  rw [hflights] at hf
  rcases List.mem_or_eq_of_mem_set hf with hold | rfl
  · exact (h f hold).evolve hs
  · exact hf'

theorem apply_sameOwner {change : Change} {properties properties' : Properties}
    (h : service.apply change properties = some properties') :
    SameOwner properties' properties := by
  cases change with
  | update params =>
    obtain rfl := Option.some.inj h
    exact service.update_sameOwner params properties
  | delete => exact nomatch h
  | setEnabled enabled =>
    obtain rfl := Option.some.inj h
    exact service.setEnabled_sameOwner enabled properties
  | resetStatistics =>
    obtain rfl := Option.some.inj h
    exact SameOwner.refl properties

theorem sound_start (request : Request) : Sound s (start request).stage := by
  cases request with
  | delete policyName =>
    unfold start
    dsimp only
    split_ifs <;> trivial
  | _ => trivial

theorem known_put {path : String} {properties : Option Properties}
    (h : ∀ path properties, s.objects path = some properties → path ∈ s.known)
    (hobjects : s'.objects = (s.put path properties).objects)
    (hknown : ∀ other ∈ s.known, other ∈ s'.known) (hpath : properties.isSome → path ∈ s'.known) :
    ∀ other properties', s'.objects other = some properties' → other ∈ s'.known := by
  intro other properties' hother
  rw [hobjects] at hother
  by_cases heq : other = path
  · subst heq
    rw [put_objects_self] at hother
    exact hpath (Option.isSome_of_eq_some hother)
  · rw [put_objects_of_ne _ heq] at hother
    exact hknown other (h other properties' hother)

theorem advance_inv [Reader] {i : ℕ} {f : Flight} {answer : Answer} (hf : f ∈ s.flights)
    (hinv : Inv s) (h : advance fromDurationString service s i f answer = some s') : Inv s' := by
  have hsound := hinv.flights f hf
  rcases advance_cases h with ⟨f', hf', rfl⟩ | ⟨path, change, properties, hstage, hobject, rfl⟩ |
    ⟨domain, id, params, state, path, hstage, hnone, rfl⟩
  · have hs : Evolves s (s.fly i f') := evolves_of_eq rfl rfl
    have hsound' : Sound s f'.stage := sound_handle hinv.known hsound hf'
    exact ⟨hinv.known, sound_of_set hs rfl (hsound'.evolve hs) hinv.flights, hinv.served⟩
  · have hpath : path ∈ s.known := hinv.known path properties hobject
    have hpermitted : Permitted properties change := by
      rw [hstage] at hsound
      rcases hsound with rfl | hstays
      · trivial
      · exact hstays.2 properties hobject
    have hs : Evolves s (s.serve service i f path change properties) := by
      have hput : (s.serve service i f path change properties).objects =
          (s.put path (service.apply change properties)).objects := rfl
      apply evolves_put hput fun _ h => h
      intro _ current' hcurrent'
      exact .inr ⟨properties, hobject, apply_sameOwner hcurrent'⟩
    refine ⟨known_put hinv.known rfl (fun _ h => h) fun _ => hpath,
      sound_of_set hs rfl (sound_close f _ _) hinv.flights, ?_⟩
    intro entry hentry
    rcases List.mem_append.mp hentry with hold | hnew
    · exact hinv.served entry hold
    · obtain rfl := List.mem_singleton.mp hnew
      exact hpermitted
  · have howner := service.createWithId_owner domain id params
    have hs : Evolves s (s.create i f path state (service.createWithId domain id params)) := by
      have hput : (s.create i f path state (service.createWithId domain id params)).objects =
          (s.put path (some (service.createWithId domain id params))).objects := rfl
      apply evolves_put hput fun _ h => List.mem_cons_of_mem path h
      rintro _ current' ⟨⟩
      exact .inl howner
    refine ⟨known_put hinv.known rfl (fun _ h => List.mem_cons_of_mem path h)
      fun _ => List.mem_cons_self, sound_of_set hs rfl ?_ hinv.flights, hinv.served⟩
    refine ⟨List.mem_cons_self, fun current hcurrent => ?_⟩
    change (s.put path _).objects path = some current at hcurrent
    rw [put_objects_self] at hcurrent
    obtain rfl := Option.some.inj hcurrent
    exact not_readOnly_of_own howner

theorem step_inv [Reader] (hinv : Inv s) (hlawful : Lawful s e)
    (h : step fromDurationString service s e = some s') : Inv s' := by
  cases e with
  | request request =>
    obtain rfl := Option.some.inj h
    have hs : Evolves s { s with flights := s.flights ++ [start request] } := evolves_of_eq rfl rfl
    refine ⟨hinv.known, fun f hf => ?_, hinv.served⟩
    rcases List.mem_append.mp hf with hold | hnew
    · exact (hinv.flights f hold).evolve hs
    · obtain rfl := List.mem_singleton.mp hnew
      exact sound_start request
  | advance i answer =>
    obtain ⟨f, hf, hadvance⟩ := Option.bind_eq_some_iff.mp h
    exact advance_inv (List.mem_of_getElem? hf) hinv hadvance
  | appear path properties =>
    simp only [step, Option.ite_none_right_eq_some] at h
    obtain ⟨-, hmake⟩ := h
    obtain rfl := Option.some.inj hmake
    have hs : Evolves s (s.make path properties) := by
      have hput : (s.make path properties).objects =
          (s.put path (some properties)).objects := rfl
      apply evolves_put hput fun _ h => List.mem_cons_of_mem path h
      intro hknown
      exact absurd hknown hlawful
    exact ⟨known_put hinv.known rfl (fun _ h => List.mem_cons_of_mem path h)
      fun _ => List.mem_cons_self, fun f hf => (hinv.flights f hf).evolve hs, hinv.served⟩
  | alter path properties =>
    obtain ⟨current, hcurrent, rfl⟩ := Option.map_eq_some_iff.mp h
    have hs : Evolves s (s.put path (some properties)) := by
      have hput : (s.put path (some properties)).objects =
          (s.put path (some properties)).objects := rfl
      apply evolves_put hput fun _ h => h
      rintro _ current' ⟨⟩
      exact .inr ⟨current, hcurrent, hlawful current hcurrent⟩
    exact ⟨known_put hinv.known rfl (fun _ h => h) (fun _ => hinv.known path current hcurrent),
      fun f hf => (hinv.flights f hf).evolve hs, hinv.served⟩
  | vanish path =>
    obtain rfl := Option.some.inj h
    have hs : Evolves s (s.put path none) := by
      have hput : (s.put path none).objects = (s.put path none).objects := rfl
      apply evolves_put hput fun _ h => h
      intro _ current' hcurrent'
      exact absurd hcurrent' (Option.not_mem_none current')
    exact ⟨known_put hinv.known rfl (fun _ h => h) (fun hsome => absurd hsome Bool.false_ne_true),
      fun f hf => (hinv.flights f hf).evolve hs, hinv.served⟩

/-- The policies before the first request. -/
def System.initial (objects : List (String × Properties)) : System :=
  ⟨(objects.lookup ·), objects.map Prod.fst, [], []⟩

theorem inv_initial (objects : List (String × Properties)) : Inv (.initial objects) where
  known path properties h := by
    obtain ⟨before, after, hobjects, -⟩ := List.lookup_eq_some_iff.mp h
    exact List.mem_map.mpr ⟨(path, properties), by simp [hobjects], rfl⟩
  flights _ hf := nomatch hf
  served _ hentry := nomatch hentry

/-- In whatever order the requests go on and other owners make, change and take away policies, no
request changes a policy in a way that its owner forbids. What is checked is an owner that was read
earlier: this needs that no other owner makes a policy at a path that has had one. -/
theorem served_permitted [Reader] (fromDurationString : String → Option ℤ) (service : Service)
    (objects : List (String × Properties)) (es : List Event) (s : System)
    (hlawful : ExecGuarded (step fromDurationString service) Lawful (.initial objects) es)
    (h : exec (step fromDurationString service) (.initial objects) es = some s) :
    ∀ entry ∈ s.served, Permitted entry.2.1 entry.2.2 := by
  have hinv : Inv s := hlawful.invariant (fun _ _ _ => step_inv) (inv_initial objects) h
  exact hinv.served

/-- A service whose methods keep the attributes. -/
def keepingService : Service where
  update _ properties := properties
  setEnabled _ properties := properties
  createWithId domain id _ :=
    [("Id", .string id), ("Owner", .int32 0), ("DomainId", .string domain)]
  update_sameOwner _ properties := SameOwner.refl properties
  setEnabled_sameOwner _ properties := SameOwner.refl properties
  createWithId_owner _ _ _ := rfl

def ownPath : String := "/xyz/openbmc_project/NodeManager/Domain/0/Policy/1"
def foreignPath : String := "/xyz/openbmc_project/NodeManager/Domain/0/Policy/2"

def twoPolicies : List (String × Properties) :=
  [(ownPath, [("Id", .string "1"), ("Owner", .int32 0), ("DomainId", .string "0")]),
    (foreignPath, [("Id", .string "2"), ("Owner", .int32 2), ("DomainId", .string "0")])]

/-- Both policies are to be disabled, and the requests overtake each other. -/
def twoRequests : List Event :=
  [.request (.byName "1" (.changeState (some "Disabled"))),
    .request (.byName "2" (.changeState (some "Disabled"))),
    .advance 1 (.paths [ownPath, foreignPath]), .advance 0 (.paths [ownPath, foreignPath]),
    .advance 0 .ok, .advance 1 .ok, .advance 1 .ok, .advance 0 .ok, .advance 0 .ok]

theorem served_permitted_twoRequests : ∃ s, exec (step (fun _ => none) keepingService)
    (.initial twoPolicies) twoRequests = some s ∧ s.served.length = 1 ∧
      ∀ entry ∈ s.served, Permitted entry.2.1 entry.2.2 := by
  have hlength : (exec (step (fun _ => none) keepingService) (.initial twoPolicies)
      twoRequests).map (·.served.length) = some 1 := by decide
  obtain ⟨s, hs, hone⟩ := Option.map_eq_some_iff.mp hlength
  refine ⟨s, hs, hone, served_permitted _ _ _ _ s ?_ hs⟩
  apply execGuarded_iff.mpr
  intro es₁ e es₂ s₁ heq _
  have hmem : e ∈ twoRequests := by simp [heq]
  simp only [twoRequests, List.mem_cons, List.not_mem_nil, or_false] at hmem
  rcases hmem with rfl | rfl | rfl | rfl | rfl | rfl | rfl | rfl | rfl <;> trivial

/-- Where the path is used again between the reading and the change, a policy of another owner is
disabled. -/
example : (exec (step (fun _ => none) keepingService) (.initial twoPolicies)
    [.request (.byName "1" (.changeState (some "Disabled"))), .advance 0 (.paths [ownPath]),
      .advance 0 .ok, .vanish ownPath, .appear ownPath [("Owner", .int32 2)], .advance 0 .ok,
      .advance 0 .ok]).map (fun s => s.served.map fun entry => isPolicyReadOnly entry.2.1) =
    some [true] := by decide

end Runs

/-! ### What is answered -/

/-- What was asked for is refused or has failed. -/
def Message.isError : Message → Bool
  | .created => false
  | .notShown => false
  | _ => true

def Flight.failed (f : Flight) : Bool := f.messages.any Message.isError

/-- How many changes of a policy a request asks for; its creation is not one. -/
def Request.changes : Request → ℕ
  | .create _ _ _ false => 0
  | _ => 1

def Asks : Request → Change → Prop
  | .byName _ (.patch _), .update _ => True
  | .byName _ (.changeState state), .setEnabled enabled =>
    state = some (if enabled then "Enabled" else "Disabled")
  | .byName _ .resetStatistics, .resetStatistics => True
  | .delete _, .delete => True
  | .create _ _ _ state, .setEnabled enabled => state = true ∧ enabled = true
  | _, _ => False

def System.servedBy (s : System) (i : ℕ) : ℕ := s.served.countP (·.1 = i)

/-- What a request waits for is what it asked for. -/
def Coherent (request : Request) : Stage → Prop
  | .paths policyName action => request = .byName policyName action
  | .attributes _ action => ∃ policyName, request = .byName policyName action
  | .gotAttributes _ action _ => ∃ policyName, request = .byName policyName action
  | .managed policyId => request = .delete policyId
  | .gotManaged policyId _ => request = .delete policyId
  | .change _ change => Asks request change
  | .create domain id params state => request = .create domain id params state
  | .gotCreated _ state => ∃ domain id params, request = .create domain id params state
  | _ => True

/-- No change is sent any more. -/
def Stage.isOver : Stage → Bool
  | .reading _ => true
  | .done => true
  | _ => false

/-- `n` changes have been carried out for the request. -/
structure Progress (request : Request) (n : ℕ) (f : Flight) : Prop where
  request_eq : f.request = request
  coherent : Coherent request f.stage
  count : if f.stage.isOver then n = if f.failed then 0 else request.changes
    else f.failed = false ∧ n = 0

section Answers

variable {fromDurationString : String → Option ℤ} {f : Flight} {request : Request}

theorem failed_append (f : Flight) (messages : List Message) (stage : Stage) :
    Flight.failed { f with stage := stage, messages := f.messages ++ messages } =
      (f.failed || messages.any Message.isError) := List.any_append

theorem coherent_of_isOver {stage : Stage} (hstage : stage.isOver = true) :
    Coherent request stage := by
  cases stage with
  | reading left => trivial
  | done => trivial
  | _ => exact nomatch hstage

theorem progress_over {n : ℕ} {stage : Stage} {messages : List Message} (hf : f.request = request)
    (hstage : stage.isOver = true)
    (h : n = if f.failed || messages.any Message.isError then 0 else request.changes) :
    Progress request n { f with stage := stage, messages := f.messages ++ messages } := by
  refine ⟨hf, coherent_of_isOver hstage, ?_⟩
  rw [if_pos hstage, failed_append]
  exact h

theorem progress_close {n : ℕ} {messages : List Message} (shows : Bool) (hf : f.request = request)
    (h : n = if f.failed || messages.any Message.isError then 0 else request.changes) :
    Progress request n (f.close shows messages) := by
  cases shows with
  | true => exact progress_over hf rfl h
  | false => exact progress_over hf rfl h

theorem progress_finish {messages : List Message} (hf : f.request = request)
    (h : ∃ m ∈ messages, m.isError = true) : Progress request 0 (f.finish messages) := by
  apply progress_over hf rfl
  rw [List.any_eq_true.mpr h, Bool.or_true, if_pos rfl]

theorem progress_to {stage : Stage} (hf : f.request = request) (hfailed : f.failed = false)
    (hcoherent : Coherent request stage) (hstage : stage.isOver = false) :
    Progress request 0 (f.to stage) := by
  refine ⟨hf, hcoherent, ?_⟩
  rw [if_neg (by simp [Flight.to, hstage])]
  exact ⟨hfailed, rfl⟩

theorem Progress.failed_eq_false {n : ℕ} (h : Progress request n f)
    (hstage : f.stage.isOver = false) : f.failed = false ∧ n = 0 := by
  have hcount := h.count
  rwa [if_neg (by simp [hstage])] at hcount

/-- The lookup either throws, or finds a path and reports nothing, or reports something. -/
theorem getPolicyObjectPath_cases (policyName : String) (objects : Option (List String)) :
    getPolicyObjectPath policyName objects.isNone (objects.getD []) = none ∨
    (∃ path, getPolicyObjectPath policyName objects.isNone (objects.getD []) =
      some ⟨[], [path]⟩) ∨
    ∃ messages, messages ≠ [] ∧
      getPolicyObjectPath policyName objects.isNone (objects.getD []) = some ⟨messages, []⟩ := by
  cases objects with
  | none => exact .inr (.inr ⟨_, List.cons_ne_nil _ _, rfl⟩)
  | some objects =>
    unfold getPolicyObjectPath objectPathReply
    dsimp only [Option.isNone_some, Option.getD_some]
    cases findPath ("Policy/" ++ policyName ++ "$") objects with
    | none => exact .inl rfl
    | some found =>
      cases found with
      | none => exact .inr (.inr ⟨_, List.cons_ne_nil _ _, rfl⟩)
      | some path => exact .inr (.inl ⟨path, rfl⟩)

theorem progress_afterPaths {policyName : String} {action : Action}
    (objects : Option (List String)) (hfailed : f.failed = false) (hf : f.request = request)
    (hrequest : request = .byName policyName action) :
    Progress request 0 (afterPaths f policyName action objects) := by
  unfold afterPaths
  rcases getPolicyObjectPath_cases policyName objects with hnone | ⟨path, hpath⟩ |
    ⟨messages, hne, hmessages⟩
  · rw [hnone]
    exact progress_to hf hfailed trivial rfl
  · rw [hpath]
    dsimp only
    rw [List.map_nil, List.append_nil]
    cases action with
    | resetStatistics =>
      apply progress_to hf hfailed
      · rw [hrequest]
        trivial
      · rfl
    | _ => exact progress_to hf hfailed ⟨policyName, hrequest⟩ rfl
  · obtain ⟨m, hm⟩ := List.exists_mem_of_ne_nil messages hne
    rw [hmessages]
    exact progress_finish hf ⟨_, List.mem_map_of_mem hm, rfl⟩

theorem progress_changeDbusObjectState {path : String} {state : Option String}
    (hfailed : f.failed = false) (hf : f.request = request)
    (hrequest : ∃ policyName, request = .byName policyName (.changeState state)) :
    Progress request 0 (changeDbusObjectState f path state) := by
  obtain ⟨policyName, hrequest⟩ := hrequest
  unfold changeDbusObjectState
  cases state with
  | none => exact progress_finish hf ⟨_, List.mem_singleton_self _, rfl⟩
  | some state =>
    dsimp only
    split_ifs with henabled hdisabled
    · apply progress_to hf hfailed _ rfl
      rw [hrequest, henabled]
      rfl
    · apply progress_to hf hfailed _ rfl
      rw [hrequest, hdisabled]
      rfl
    · exact progress_finish hf ⟨_, List.mem_singleton_self _, rfl⟩

theorem progress_afterAttributes [Reader] {path : String} {action : Action}
    {properties : Option Properties} (hprogress : Progress request 0 f)
    (hfailed : f.failed = false) (hrequest : ∃ policyName, request = .byName policyName action) :
    Progress request 0 (afterAttributes fromDurationString f path action properties) := by
  have hf := hprogress.request_eq
  unfold afterAttributes
  cases action with
  | patch body =>
    rcases patchPolicy_cases fromDurationString properties body with
      ⟨hne, hupdates⟩ | ⟨current, params, rfl, -, hresponse⟩
    · obtain ⟨m, hm⟩ := List.exists_mem_of_ne_nil _ hne
      simp only [sendUpdate, hupdates]
      exact progress_finish hf ⟨_, List.mem_map_of_mem hm, rfl⟩
    · simp only [sendUpdate, hresponse]
      apply progress_to hf hfailed _ rfl
      obtain ⟨policyName, hrequest⟩ := hrequest
      rw [hrequest]
      trivial
  | changeState state =>
    cases properties with
    | none => exact progress_finish hf ⟨_, List.mem_singleton_self _, rfl⟩
    | some properties =>
      dsimp only
      split_ifs
      · exact progress_finish hf ⟨_, List.mem_singleton_self _, rfl⟩
      · exact progress_changeDbusObjectState hfailed hf hrequest
  | resetStatistics => exact hprogress

theorem progress_afterManaged {policyId : String} (objects : Option (List (String × Properties)))
    (hfailed : f.failed = false) (hf : f.request = request)
    (hrequest : request = .delete policyId) :
    Progress request 0 (afterManaged f policyId objects) := by
  unfold afterManaged
  cases objects with
  | none => exact progress_finish hf ⟨_, List.mem_singleton_self _, rfl⟩
  | some objects =>
    dsimp only
    split
    · apply progress_to hf hfailed _ rfl
      rw [hrequest]
      trivial
    · exact progress_finish hf ⟨_, List.mem_singleton_self _, rfl⟩

theorem isError_changeFailed (path : String) (e : ServiceError) (change : Change) :
    (changeFailed path e change).isError = true := by
  cases change <;> cases e <;> rfl

/-- While the answer is read, nothing else happens. -/
theorem progress_shown {n left : ℕ} {messages : List Message} (hprogress : Progress request n f)
    (hstage : f.stage.isOver = true) (hquiet : messages.any Message.isError = false) :
    Progress request n (f.shown left messages) := by
  have hcount := hprogress.count
  rw [if_pos hstage] at hcount
  unfold Flight.shown
  split_ifs
  · apply progress_over hprogress.request_eq rfl
    rw [hquiet, Bool.or_false]
    exact hcount
  · apply progress_over hprogress.request_eq rfl
    rw [hquiet, Bool.or_false]
    exact hcount

theorem progress_handle [Reader] {s : System} {answer : Answer} {n : ℕ} {f' : Flight}
    (hprogress : Progress request n f) (h : handle fromDurationString s f answer = some f') :
    Progress request n f' := by
  have hf := hprogress.request_eq
  have hcoherent := hprogress.coherent
  -- before the change has been carried out or refused
  have hearly : f.stage.isOver = false → f.failed = false ∧ n = 0 := hprogress.failed_eq_false
  unfold handle at h
  split at h
  case h_1 policyName action objects hstage =>
    obtain ⟨hfailed, rfl⟩ := hearly (by rw [hstage]; rfl)
    obtain rfl := Option.some.inj h
    rw [hstage] at hcoherent
    exact progress_afterPaths _ hfailed hf hcoherent
  case h_2 policyName action e hstage =>
    obtain ⟨hfailed, rfl⟩ := hearly (by rw [hstage]; rfl)
    obtain rfl := Option.some.inj h
    rw [hstage] at hcoherent
    exact progress_afterPaths _ hfailed hf hcoherent
  case h_3 path action hstage =>
    obtain ⟨hfailed, rfl⟩ := hearly (by rw [hstage]; rfl)
    obtain rfl := Option.some.inj h
    rw [hstage] at hcoherent
    exact progress_to hf hfailed hcoherent rfl
  case h_4 path action e hstage =>
    obtain ⟨hfailed, rfl⟩ := hearly (by rw [hstage]; rfl)
    obtain rfl := Option.some.inj h
    rw [hstage] at hcoherent
    exact progress_to hf hfailed hcoherent rfl
  case h_5 path action properties hstage =>
    obtain ⟨hfailed, rfl⟩ := hearly (by rw [hstage]; rfl)
    obtain rfl := Option.some.inj h
    rw [hstage] at hcoherent
    exact progress_afterAttributes hprogress hfailed hcoherent
  case h_6 policyId objects hstage =>
    obtain ⟨hfailed, rfl⟩ := hearly (by rw [hstage]; rfl)
    obtain rfl := Option.some.inj h
    rw [hstage] at hcoherent
    exact progress_to hf hfailed hcoherent rfl
  case h_7 policyId e hstage =>
    obtain ⟨hfailed, rfl⟩ := hearly (by rw [hstage]; rfl)
    obtain rfl := Option.some.inj h
    rw [hstage] at hcoherent
    exact progress_to hf hfailed hcoherent rfl
  case h_8 policyId objects hstage =>
    obtain ⟨hfailed, rfl⟩ := hearly (by rw [hstage]; rfl)
    obtain rfl := Option.some.inj h
    rw [hstage] at hcoherent
    exact progress_afterManaged _ hfailed hf hcoherent
  case h_9 path change e hstage =>
    obtain ⟨hfailed, rfl⟩ := hearly (by rw [hstage]; rfl)
    obtain rfl := Option.some.inj h
    apply progress_close _ hf
    rw [List.any_cons, isError_changeFailed, Bool.true_or, Bool.or_true, if_pos rfl]
  case h_10 domain id params state e hstage =>
    obtain ⟨-, rfl⟩ := hearly (by rw [hstage]; rfl)
    obtain rfl := Option.some.inj h
    exact progress_finish hf ⟨_, List.mem_singleton_self _, rfl⟩
  case h_11 path state hstage =>
    obtain ⟨hfailed, rfl⟩ := hearly (by rw [hstage]; rfl)
    obtain rfl := Option.some.inj h
    rw [hstage] at hcoherent
    obtain ⟨domain, id, params, hrequest⟩ := hcoherent
    cases state with
    | true =>
      apply progress_to hf hfailed _ rfl
      rw [hrequest]
      exact ⟨rfl, rfl⟩
    | false =>
      apply progress_over hf rfl
      rw [hfailed, hrequest]
      rfl
  case h_12 left hstage =>
    obtain rfl := Option.some.inj h
    exact progress_shown hprogress (by rw [hstage]; rfl) rfl
  case h_13 left e hstage =>
    obtain rfl := Option.some.inj h
    exact progress_shown hprogress (by rw [hstage]; rfl) rfl
  case h_14 => exact nomatch h

end Answers

/-- Where every request stands, and that every change was asked for. -/
structure Counted (s : System) : Prop where
  flights : ∀ (i : ℕ) (f : Flight), s.flights[i]? = some f → Progress f.request (s.servedBy i) f
  entries : ∀ entry ∈ s.served, ∃ f, s.flights[entry.1]? = some f ∧ Asks f.request entry.2.2

section Counts

open Runs

variable {fromDurationString : String → Option ℤ} {service : Service} {s s' : System} {e : Event}

theorem servedBy_of_length_le (h : Counted s) {i : ℕ} (hi : s.flights.length ≤ i) :
    s.servedBy i = 0 := by
  apply List.countP_eq_zero.mpr
  intro entry hentry heq
  obtain ⟨f, hf, -⟩ := h.entries entry hentry
  obtain ⟨hlt, -⟩ := List.getElem?_eq_some_iff.mp hf
  have : entry.1 = i := by simpa using heq
  omega

theorem counted_request (h : Counted s) (request : Request) :
    Counted { s with flights := s.flights ++ [start request] } := by
  have hold : ∀ (i : ℕ) (f : Flight), s.flights[i]? = some f →
      (s.flights ++ [start request])[i]? = some f := by
    intro i f hf
    obtain ⟨hlt, -⟩ := List.getElem?_eq_some_iff.mp hf
    rw [List.getElem?_append_left hlt, hf]
  constructor
  · intro i f hf
    change (s.flights ++ [start request])[i]? = some f at hf
    change Progress f.request (s.servedBy i) f
    by_cases hlt : i < s.flights.length
    · rw [List.getElem?_append_left hlt] at hf
      exact h.flights i f hf
    · rw [List.getElem?_append_right (by omega), List.getElem?_singleton] at hf
      rw [servedBy_of_length_le h (by omega)]
      split_ifs at hf
      obtain rfl := Option.some.inj hf
      cases request with
      | byName policyName action => exact ⟨rfl, rfl, rfl, rfl⟩
      | delete policyName =>
        unfold start
        dsimp only
        split_ifs
        · exact ⟨rfl, trivial, rfl⟩
        · exact ⟨rfl, rfl, rfl, rfl⟩
      | create domain id params state => exact ⟨rfl, rfl, rfl, rfl⟩
  · intro entry hentry
    obtain ⟨f, hf, hasks⟩ := h.entries entry hentry
    exact ⟨f, hold _ f hf, hasks⟩

/-- A request has gone on, with the changes that were carried out for it. -/
theorem counted_of_set (h : Counted s) {i : ℕ} {f f' : Flight} (hf : s.flights[i]? = some f)
    (hflights : s'.flights = s.flights.set i f') (hf' : Progress f.request (s'.servedBy i) f')
    (hothers : ∀ j, j ≠ i → s'.servedBy j = s.servedBy j)
    (hentries : ∀ entry ∈ s'.served, entry ∈ s.served ∨ entry.1 = i ∧ Asks f.request entry.2.2) :
    Counted s' := by
  obtain ⟨hlt, -⟩ := List.getElem?_eq_some_iff.mp hf
  have hself : s'.flights[i]? = some f' := by rw [hflights, List.getElem?_set_self hlt]
  have hrequest := hf'.request_eq
  constructor
  · intro j g hg
    by_cases hj : j = i
    · subst hj
      obtain rfl : f' = g := Option.some.inj (hself.symm.trans hg)
      rwa [hrequest]
    · rw [hflights, List.getElem?_set_ne (Ne.symm hj)] at hg
      rw [hothers j hj]
      exact h.flights j g hg
  · have hasked : ∀ entry : ℕ × Properties × Change, entry.1 = i → Asks f.request entry.2.2 →
        ∃ g, s'.flights[entry.1]? = some g ∧ Asks g.request entry.2.2 :=
      fun entry heq hasks => ⟨f', heq ▸ hself, hrequest ▸ hasks⟩
    intro entry hentry
    rcases hentries entry hentry with hold | ⟨heq, hasks⟩
    · obtain ⟨g, hg, hasks⟩ := h.entries entry hold
      by_cases heq : entry.1 = i
      · rw [heq, hf] at hg
        obtain rfl := Option.some.inj hg
        exact hasked entry heq hasks
      · exact ⟨g, by rw [hflights, List.getElem?_set_ne (Ne.symm heq), hg], hasks⟩
    · exact hasked entry heq hasks

theorem counted_advance [Reader] {i : ℕ} {f : Flight} {answer : Answer} (h : Counted s)
    (hf : s.flights[i]? = some f)
    (hadvance : advance fromDurationString service s i f answer = some s') : Counted s' := by
  have hprogress := h.flights i f hf
  rcases advance_cases hadvance with ⟨f', hf', rfl⟩ | ⟨path, change, properties, hstage, -, rfl⟩ |
    ⟨domain, id, params, state, path, hstage, -, rfl⟩
  · exact counted_of_set h hf rfl (progress_handle hprogress hf') (fun _ _ => rfl) fun _ => .inl
  · have hcoherent := hprogress.coherent
    rw [hstage] at hcoherent
    obtain ⟨hfailed, hzero⟩ := hprogress.failed_eq_false (by rw [hstage]; rfl)
    have hone : (s.serve service i f path change properties).servedBy i = 1 := by
      change (s.served ++ [(i, properties, change)]).countP (·.1 = i) = 1
      rw [List.countP_append]
      change s.servedBy i + _ = 1
      rw [hzero]
      simp
    have hchanges : f.request.changes = 1 := by
      cases hrequest : f.request with
      | create domain id params state =>
        rw [hrequest] at hcoherent
        cases change with
        | setEnabled enabled =>
          rw [hcoherent.1]
          rfl
        | _ => exact hcoherent.elim
      | _ => rfl
    refine counted_of_set h hf rfl (progress_close _ rfl ?_) ?_ ?_
    · rw [hone, hfailed, hchanges]
      rfl
    · intro j hj
      change (s.served ++ [(i, properties, change)]).countP (·.1 = j) = _
      rw [List.countP_append, List.countP_singleton, if_neg (by simpa using Ne.symm hj), add_zero]
      rfl
    · intro entry hentry
      rcases List.mem_append.mp hentry with hold | hnew
      · exact .inl hold
      · obtain rfl := List.mem_singleton.mp hnew
        exact .inr ⟨rfl, hcoherent⟩
  · have hcoherent := hprogress.coherent
    rw [hstage] at hcoherent
    obtain ⟨hfailed, hzero⟩ := hprogress.failed_eq_false (by rw [hstage]; rfl)
    have hquiet : Flight.failed { f.to (.gotCreated path state) with
        messages := f.messages ++ [.created] } = false := by
      rw [← hfailed]
      exact List.any_append.trans (Bool.or_false _)
    exact counted_of_set h hf rfl ⟨rfl, ⟨domain, id, params, hcoherent⟩, hquiet, hzero⟩
      (fun _ _ => rfl) fun _ => .inl

theorem step_counted [Reader] (h : Counted s)
    (hstep : step fromDurationString service s e = some s') : Counted s' := by
  cases e with
  | request request =>
    obtain rfl := Option.some.inj hstep
    exact counted_request h request
  | advance i answer =>
    obtain ⟨f, hf, hadvance⟩ := Option.bind_eq_some_iff.mp hstep
    exact counted_advance h hf hadvance
  | appear path properties =>
    simp only [step, Option.ite_none_right_eq_some] at hstep
    obtain rfl := Option.some.inj hstep.2
    exact ⟨h.flights, h.entries⟩
  | alter path properties =>
    obtain ⟨_, -, rfl⟩ := Option.map_eq_some_iff.mp hstep
    exact ⟨h.flights, h.entries⟩
  | vanish path =>
    obtain rfl := Option.some.inj hstep
    exact ⟨h.flights, h.entries⟩

/-- A request that is answered has brought about the change that it asked for, once, unless it is
answered with an error other than that its new attributes could not be shown; then it has changed
nothing. No request, answered or not, brings about a change that it has not asked for. -/
theorem answered_iff_served [Reader] (fromDurationString : String → Option ℤ) (service : Service)
    (objects : List (String × Properties)) (es : List Event) (s : System)
    (h : exec (step fromDurationString service) (.initial objects) es = some s) (i : ℕ)
    (f : Flight) (hf : s.flights[i]? = some f) :
    (f.stage = .done → s.servedBy i = if f.failed then 0 else f.request.changes) ∧
      ∀ entry ∈ s.served, entry.1 = i → Asks f.request entry.2.2 := by
  have hstart : Counted (.initial objects) :=
    ⟨fun _ _ hf => (nomatch hf), fun _ hentry => (nomatch hentry)⟩
  have hcounted : Counted s := exec_invariant (fun _ _ _ => step_counted) hstart h
  refine ⟨fun hdone => ?_, ?_⟩
  · have hcount := (hcounted.flights i f hf).count
    rwa [if_pos (by rw [hdone]; rfl)] at hcount
  · intro entry hentry heq
    obtain ⟨g, hg, hasks⟩ := hcounted.entries entry hentry
    rw [heq, hf] at hg
    obtain rfl := Option.some.inj hg
    exact hasks

theorem answered_iff_served_twoRequests : ∃ s, exec (step (fun _ => none) keepingService)
    (.initial twoPolicies) twoRequests = some s ∧ s.servedBy 0 = 1 ∧ s.servedBy 1 = 0 := by
  obtain ⟨s, hs⟩ := Option.isSome_iff_exists.mp (show (exec (step (fun _ => none) keepingService)
    (.initial twoPolicies) twoRequests).isSome = true by decide)
  obtain rfl := Option.some.inj (Eq.trans hs.symm rfl)
  have hfirst := (answered_iff_served _ _ _ _ _ hs 0 _ rfl).1 rfl
  have hsecond := (answered_iff_served _ _ _ _ _ hs 1 _ rfl).1 rfl
  exact ⟨_, hs, hfirst, hsecond⟩

end Counts

end MetaCommon.NodeManager.Ownership
