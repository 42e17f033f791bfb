import MetaCommon.Lib.JsonTree
import MetaCommon.Telemetry.Parameters

/-!
# Patching the metrics of a report

The array of a PATCH is walked beside the reading parameters that the report has. An element that is
null drops the parameters at its place, and every other one replaces the members that it gives. The
sensors that an element names are appended once all look-ups have been answered. The object that
does this does it when it is destroyed, also after an error.
-/

namespace MetaCommon.Telemetry

open JsonTree

/-- The path of a sensor and the URI of its metric property. -/
abbrev SensorRef := String × String

structure ReadingParam where
  sensors : List SensorRef
  collectionFunction : String
  collectionTimeScope : String
  collectionDuration : UInt64
  deriving DecidableEq

structure MetricArgs where
  uris : List String
  collectionFunction : String
  collectionTimeScope : String
  collectionDuration : UInt64

/-- The members that are read from an element. -/
structure GivenMetric where
  uris : Option (List String)
  collectionFunction : Option String
  collectionTimeScope : Option String
  collectionDuration : Option UInt64

def MetricArgs.replace (args : MetricArgs) (given : GivenMetric) : MetricArgs where
  uris := given.uris.getD args.uris
  collectionFunction := given.collectionFunction.getD args.collectionFunction
  collectionTimeScope := given.collectionTimeScope.getD args.collectionTimeScope
  collectionDuration := given.collectionDuration.getD args.collectionDuration

/-- The functions of bmcweb that are called for the elements. Where one gives `none`, it has set an
error message. `given` is what `getUserMetric` reads; a "MetricProperties" that is there is a list of
URIs. `retrieved` is what the answers to the look-ups insert, the first of them first. -/
structure MetricHelpers where
  given : JsonTree → Option GivenMetric
  given_uris : ∀ metric given', given metric = some given' →
    given'.uris.isNone = (metric.at? ["MetricProperties"]).isNone
  getUserMetric : JsonTree → MetricArgs → Option MetricArgs
  getUserMetric_eq : ∀ metric args, getUserMetric metric args = (given metric).map args.replace
  getChassisSensorNode : List String → Option (List (String × String))
  retrieved : List (String × String) → UriToDbus

def isNull : JsonTree → Bool
  | .null => true
  | _ => false

structure UpdateMetrics where
  readingParamsUris : List (List String)
  readingParams : List ReadingParam

def UpdateMetrics.emplace (u : UpdateMetrics) (pathAndUri : List SensorRef) (args : MetricArgs) :
    UpdateMetrics where
  readingParamsUris := u.readingParamsUris ++ [args.uris]
  readingParams := u.readingParams ++
    [⟨pathAndUri, args.collectionFunction, args.collectionTimeScope, args.collectionDuration⟩]

/-! ### The walk along the array -/

/-- What the walk has done: the object, the nodes to look up, and the message it has ended with. -/
structure Walk where
  updateMetricsReq : UpdateMetrics
  chassisSensors : List (String × String)
  messages : List Message

section Walk

variable (m : MetricHelpers) (existing : List ReadingParam)

/-- The sensors that an element starts with. -/
def pathAndUri (index : ℕ) (metric : JsonTree) : List SensorRef :=
  match existing[index]? with
  | none => []
  | some param => if (metric.at? ["MetricProperties"]).isNone then param.sensors else []

def startArgs (index : ℕ) : MetricArgs :=
  match existing[index]? with
  | none => ⟨[], "", "", 0⟩
  | some param =>
    ⟨[], param.collectionFunction, param.collectionTimeScope, param.collectionDuration⟩

/-- The loop of `setReportMetrics`. -/
def walk (index : ℕ) : List JsonTree → Walk → Walk
  | [], s => s
  | metric :: metrics, s =>
    if isNull metric then walk (index + 1) metrics s
    else
      match m.getUserMetric metric (startArgs existing index) with
      | none => { s with messages := s.messages ++ [.ofHelper] }
      | some args =>
        match m.getChassisSensorNode args.uris with
        | none => { s with messages := s.messages ++ [.ofHelper] }
        | some nodes => walk (index + 1) metrics
          { s with
            updateMetricsReq := s.updateMetricsReq.emplace (pathAndUri existing index metric) args
            chassisSensors := s.chassisSensors ++ nodes }

end Walk

/-! ### The write -/

def sensorPathToUri (metricPropertyToDbusPaths : UriToDbus) :
    List String → Except Message (List SensorRef)
  | [] => .ok []
  | uri :: uris =>
    match metricPropertyToDbusPaths.lookup uri with
    | none => .error (.propertyValueNotInList uri "MetricProperties")
    | some path => (sensorPathToUri metricPropertyToDbusPaths uris).map ((path, uri) :: ·)

/-- The loop of `setReadingParams`. -/
def appendSensors (metricPropertyToDbusPaths : UriToDbus) :
    List (List String) → List ReadingParam → Except Message (List ReadingParam)
  | newUris :: uris, param :: params => do
    let sensors ← sensorPathToUri metricPropertyToDbusPaths newUris
    let params ← appendSensors metricPropertyToDbusPaths uris params
    return { param with sensors := param.sensors ++ sensors } :: params
  | _, params => .ok params

/-- The messages of the response, and the values that have been written to `ReadingParameters`. -/
structure MetricsOutcome where
  messages : List Message
  writes : List (List ReadingParam)

section Write

variable {μ ρ : Type} (hp : Helpers JsonTree μ ρ) (m : MetricHelpers)

/-- The answer to the write, which may be an error of the telemetry service. -/
def writeMessages (id : String) (redfishMetrics : List JsonTree) :
    Option BackendError → List Message
  | none => []
  | some e =>
    [((ErrorVerificator.verifyNamed e (some id) "Id" "Id").or
      (ErrorVerificator.verifyReadingParameters hp e (some redfishMetrics))).getD
      (ErrorVerificator.verify e (some id))]

def setReadingParams (messages : List Message) (id : String) (u : UpdateMetrics)
    (metricPropertyToDbusPaths : UriToDbus) (redfishMetrics : List JsonTree)
    (reply : Option BackendError) : MetricsOutcome :=
  if messages.isEmpty then
    match appendSensors metricPropertyToDbusPaths u.readingParamsUris u.readingParams with
    | .error message => ⟨[message], []⟩
    | .ok readingParams => ⟨writeMessages hp id redfishMetrics reply, [readingParams]⟩
  else ⟨messages, []⟩

/-- `others` are the messages that the rest of the request has set by then, and `properties` are the
reading parameters of the report, or the message for the error in getting them. -/
def setReportMetrics (others : List Message) (properties : Except Message (List ReadingParam))
    (reply : Option BackendError) (id : String) (metrics : List JsonTree) : MetricsOutcome :=
  match properties with
  | .error message => ⟨others ++ [message], []⟩
  | .ok readingParams =>
    let s := walk m readingParams 0 metrics ⟨⟨[], []⟩, [], []⟩
    let paths := if s.messages.isEmpty then m.retrieved s.chassisSensors else []
    setReadingParams hp (others ++ s.messages) id s.updateMetricsReq paths metrics reply

end Write

/-! ### What is written -/

/-- The elements that are not null, with their places. -/
def elements (index : ℕ) (metrics : List JsonTree) : List (JsonTree × ℕ) :=
  (metrics.zipIdx index).filter fun e => !isNull e.1

/-- The parameters of the place in the list of the report, or none. -/
def existingAt (existing : List ReadingParam) (index : ℕ) : ReadingParam :=
  existing[index]?.getD ⟨[], "", "", 0⟩

/-- The sensors of these URIs, as they have been looked up. -/
def SensorsOf (metricPropertyToDbusPaths : UriToDbus) (uris : List String)
    (sensors : List SensorRef) : Prop :=
  sensors.map Prod.snd = uris ∧
    ∀ s ∈ sensors, metricPropertyToDbusPaths.lookup s.2 = some s.1

/-- The parameters of the place with the members replaced that the element gives. -/
def Replaced (m : MetricHelpers) (existing : List ReadingParam) (paths : UriToDbus)
    (e : JsonTree × ℕ) (written : ReadingParam) : Prop :=
  ∃ given, m.given e.1 = some given ∧
    written.collectionFunction =
      given.collectionFunction.getD (existingAt existing e.2).collectionFunction ∧
    written.collectionTimeScope =
      given.collectionTimeScope.getD (existingAt existing e.2).collectionTimeScope ∧
    written.collectionDuration =
      given.collectionDuration.getD (existingAt existing e.2).collectionDuration ∧
    match given.uris with
    | none => written.sensors = (existingAt existing e.2).sensors
    | some uris => SensorsOf paths uris written.sensors

/-- The nodes of the sensors that an element names. -/
def nodesOf (m : MetricHelpers) (e : JsonTree × ℕ) : List (String × String) :=
  (m.getChassisSensorNode (((m.given e.1).bind GivenMetric.uris).getD [])).getD []

/-- There is an error and nothing is written, or the parameters are written once that belong to the
elements. -/
def WritesRight (m : MetricHelpers) (properties : Except Message (List ReadingParam))
    (metrics : List JsonTree) (o : MetricsOutcome) : Prop :=
  o.messages ≠ [] ∧ o.writes = [] ∨
    ∃ existing written, properties = .ok existing ∧ o.writes = [written] ∧
      List.Forall₂ (Replaced m existing (m.retrieved ((elements 0 metrics).flatMap (nodesOf m))))
        (elements 0 metrics) written

/-- The parameters of the report are there, nothing else has gone wrong, and of every element that is
not null the members are read, the nodes of its sensors are known and its URIs are found. -/
def Writable (m : MetricHelpers) (others : List Message)
    (properties : Except Message (List ReadingParam)) (metrics : List JsonTree) : Prop :=
  others = [] ∧ (∃ existing, properties = .ok existing) ∧ ∀ e ∈ elements 0 metrics,
    ∃ given, m.given e.1 = some given ∧ (m.getChassisSensorNode (given.uris.getD [])).isSome ∧
      ∀ uri ∈ given.uris.getD [],
        ((m.retrieved ((elements 0 metrics).flatMap (nodesOf m))).lookup uri).isSome

/-! ### One element -/

section Element

variable {m : MetricHelpers} {existing : List ReadingParam} {paths : UriToDbus} {index : ℕ}
  {metric : JsonTree} {args : MetricArgs}

theorem startArgs_eq : startArgs existing index =
    ⟨[], (existingAt existing index).collectionFunction,
      (existingAt existing index).collectionTimeScope,
      (existingAt existing index).collectionDuration⟩ := by
  unfold startArgs existingAt
  cases existing[index]? <;> rfl

theorem pathAndUri_eq : pathAndUri existing index metric =
    if (metric.at? ["MetricProperties"]).isNone then (existingAt existing index).sensors else [] := by
  unfold pathAndUri existingAt
  cases existing[index]? with
  | none => simp
  | some param => rfl

/-- What the walk puts into the object for an element: the URIs to look up, and the parameters. -/
def EntryOf (m : MetricHelpers) (existing : List ReadingParam) (e : JsonTree × ℕ)
    (entry : List String × ReadingParam) : Prop :=
  ∃ given, m.given e.1 = some given ∧ entry.1 = given.uris.getD [] ∧
    entry.2.sensors = (if given.uris.isNone then (existingAt existing e.2).sensors else []) ∧
    entry.2.collectionFunction =
      given.collectionFunction.getD (existingAt existing e.2).collectionFunction ∧
    entry.2.collectionTimeScope =
      given.collectionTimeScope.getD (existingAt existing e.2).collectionTimeScope ∧
    entry.2.collectionDuration =
      given.collectionDuration.getD (existingAt existing e.2).collectionDuration

/-- An element whose members are read has its entry at its place. -/
theorem entryOf_of_getUserMetric
    (h : m.getUserMetric metric (startArgs existing index) = some args) :
    EntryOf m existing (metric, index) (args.uris, ⟨pathAndUri existing index metric,
      args.collectionFunction, args.collectionTimeScope, args.collectionDuration⟩) ∧
      ((m.given metric).bind GivenMetric.uris).getD [] = args.uris := by
  rw [m.getUserMetric_eq, startArgs_eq] at h
  obtain ⟨given, hgiven, rfl⟩ := Option.map_eq_some_iff.mp h
  have huris : ((m.given metric).bind GivenMetric.uris).getD [] = given.uris.getD [] := by
    rw [hgiven]
    rfl
  refine ⟨⟨given, hgiven, rfl, ?_, rfl, rfl, rfl⟩, huris⟩
  rw [m.given_uris metric given hgiven]
  exact pathAndUri_eq

theorem sensorsOf_of_sensorPathToUri {uris : List String} {sensors : List SensorRef}
    (h : sensorPathToUri paths uris = .ok sensors) : SensorsOf paths uris sensors := by
  induction uris generalizing sensors with
  | nil =>
    obtain rfl : [] = sensors := Except.ok.inj h
    exact ⟨rfl, by simp⟩
  | cons uri uris ih =>
    unfold sensorPathToUri at h
    split at h
    · exact nomatch h
    · next path hlookup =>
      cases hrest : sensorPathToUri paths uris with
      | error message =>
        rw [hrest] at h
        exact nomatch h
      | ok rest =>
        rw [hrest] at h
        obtain rfl : (path, uri) :: rest = sensors := Except.ok.inj h
        obtain ⟨hmap, hall⟩ := ih hrest
        exact ⟨congrArg (uri :: ·) hmap, List.forall_mem_cons.mpr ⟨hlookup, hall⟩⟩

theorem sensorPathToUri_ok_iff {uris : List String} :
    (∃ sensors, sensorPathToUri paths uris = .ok sensors) ↔
      ∀ uri ∈ uris, (paths.lookup uri).isSome := by
  induction uris with
  | nil => simp [sensorPathToUri]
  | cons uri uris ih =>
    rw [List.forall_mem_cons, ← ih, sensorPathToUri]
    cases paths.lookup uri with
    | none => simp
    | some path => cases sensorPathToUri paths uris <;> simp [Except.map]

/-- The sensors of a prepared element are appended to those that it has kept. -/
theorem EntryOf.replaced {e : JsonTree × ℕ} {entry : List String × ReadingParam}
    {sensors : List SensorRef} (h : EntryOf m existing e entry)
    (hsensors : sensorPathToUri paths entry.1 = .ok sensors) :
    Replaced m existing paths e { entry.2 with sensors := entry.2.sensors ++ sensors } := by
  obtain ⟨given, hgiven, huris, hkept, hfunction, hscope, hduration⟩ := h
  refine ⟨given, hgiven, hfunction, hscope, hduration, ?_⟩
  rw [huris] at hsensors
  cases hcase : given.uris with
  | none =>
    rw [hcase] at hsensors hkept
    obtain rfl : [] = sensors := Except.ok.inj hsensors
    simpa using hkept
  | some uris =>
    rw [hcase] at hsensors hkept
    have hnone : entry.2.sensors = [] := hkept
    simpa [hnone] using sensorsOf_of_sensorPathToUri hsensors

end Element

/-! ### The whole array -/

section Array

variable {m : MetricHelpers} {existing : List ReadingParam} {paths : UriToDbus}

theorem elements_cons (index : ℕ) (metric : JsonTree) (metrics : List JsonTree) :
    elements index (metric :: metrics) =
      if isNull metric then elements (index + 1) metrics
      else (metric, index) :: elements (index + 1) metrics := by
  unfold elements
  cases hnull : isNull metric <;> simp [List.zipIdx_cons, hnull]

/-- A walk without an error has prepared all elements that are not null. -/
theorem walk_entryOf (m : MetricHelpers) (existing : List ReadingParam) (index : ℕ)
    (metrics : List JsonTree) (s : Walk)
    (h : (walk m existing index metrics s).messages = []) :
    ∃ entries : List (List String × ReadingParam),
      (walk m existing index metrics s).updateMetricsReq =
        ⟨s.updateMetricsReq.readingParamsUris ++ entries.map Prod.fst,
          s.updateMetricsReq.readingParams ++ entries.map Prod.snd⟩ ∧
      (walk m existing index metrics s).chassisSensors =
        s.chassisSensors ++ (elements index metrics).flatMap (nodesOf m) ∧
      List.Forall₂ (EntryOf m existing) (elements index metrics) entries := by
  induction metrics generalizing index s with
  | nil => exact ⟨[], by simp [walk], by simp [walk, elements], .nil⟩
  | cons metric metrics ih =>
    rw [elements_cons]
    cases hnull : isNull metric with
    | true =>
      simp only [walk, hnull, if_true] at h ⊢
      exact ih (index + 1) s h
    | false =>
      simp only [walk, hnull, Bool.false_eq_true, if_false] at h ⊢
      cases hargs : m.getUserMetric metric (startArgs existing index) with
      | none => simp [hargs] at h
      | some args =>
        obtain ⟨hprepared, huris⟩ := entryOf_of_getUserMetric hargs
        cases hnodes : m.getChassisSensorNode args.uris with
        | none => simp [hargs, hnodes] at h
        | some nodes =>
          simp only [hargs, hnodes] at h ⊢
          obtain ⟨entries, hrequest, hsensors, hall⟩ := ih (index + 1) _ h
          refine ⟨_ :: entries, ?_, ?_, .cons hprepared hall⟩
          · simpa [UpdateMetrics.emplace] using hrequest
          · have hnodesOf : nodesOf m (metric, index) = nodes := by
              rw [nodesOf, huris, hnodes]
              rfl
            rw [List.flatMap_cons, hnodesOf, ← List.append_assoc]
            exact hsensors

/-- The walk comes to its end if every element that is not null can be read. -/
theorem walk_messages_eq_nil_iff (m : MetricHelpers) (existing : List ReadingParam) (index : ℕ)
    (metrics : List JsonTree) (s : Walk) :
    (walk m existing index metrics s).messages = [] ↔ s.messages = [] ∧
      ∀ e ∈ elements index metrics, ∃ given, m.given e.1 = some given ∧
        (m.getChassisSensorNode (given.uris.getD [])).isSome := by
  induction metrics generalizing index s with
  | nil => simp [walk, elements]
  | cons metric metrics ih =>
    rw [elements_cons]
    cases hnull : isNull metric with
    | true =>
      simp only [walk, hnull, if_true]
      exact ih (index + 1) s
    | false =>
      simp only [walk, hnull, Bool.false_eq_true, if_false, List.forall_mem_cons]
      rw [m.getUserMetric_eq, startArgs_eq]
      cases hgiven : m.given metric with
      | none => simp
      | some given =>
        simp only [Option.map_some, MetricArgs.replace, Option.some.injEq, exists_eq_left']
        cases m.getChassisSensorNode (given.uris.getD []) with
        | none => simp
        | some nodes => simpa using ih (index + 1) _

/-- Every element has its sensors appended if every URI is found. -/
theorem appendSensors_ok_iff {entries : List (List String × ReadingParam)} :
    (∃ written, appendSensors paths (entries.map Prod.fst) (entries.map Prod.snd) = .ok written) ↔
      ∀ entry ∈ entries, ∀ uri ∈ entry.1, (paths.lookup uri).isSome := by
  induction entries with
  | nil => simp [appendSensors]
  | cons entry entries ih =>
    rw [List.forall_mem_cons, ← ih, ← sensorPathToUri_ok_iff]
    simp only [List.map_cons, appendSensors]
    cases sensorPathToUri paths entry.1 with
    | error message => simp [bind, Except.bind]
    | ok sensors =>
      cases appendSensors paths (entries.map Prod.fst) (entries.map Prod.snd) <;>
        simp [bind, Except.bind, pure, Except.pure]

theorem forall_uris_iff {es : List (JsonTree × ℕ)} {entries : List (List String × ReadingParam)}
    (hall : List.Forall₂ (EntryOf m existing) es entries) {P : String → Prop} :
    (∀ entry ∈ entries, ∀ uri ∈ entry.1, P uri) ↔
      ∀ e ∈ es, ∀ given ∈ m.given e.1, ∀ uri ∈ given.uris.getD [], P uri := by
  induction hall with
  | nil => simp
  | cons hentry _ ih =>
    obtain ⟨given, hgiven, huris, -⟩ := hentry
    rw [List.forall_mem_cons, List.forall_mem_cons, ih, huris, hgiven]
    simp

theorem forall₂_of_appendSensors {es : List (JsonTree × ℕ)}
    {entries : List (List String × ReadingParam)} {written : List ReadingParam}
    (hall : List.Forall₂ (EntryOf m existing) es entries)
    (h : appendSensors paths (entries.map Prod.fst) (entries.map Prod.snd) = .ok written) :
    List.Forall₂ (Replaced m existing paths) es written := by
  induction hall generalizing written with
  | nil =>
    obtain rfl : [] = written := Except.ok.inj h
    exact .nil
  | @cons e entry es entries hprepared _ ih =>
    simp only [List.map_cons, appendSensors] at h
    cases hsensors : sensorPathToUri paths entry.1 with
    | error message =>
      rw [hsensors] at h
      exact nomatch h
    | ok sensors =>
      cases hrest : appendSensors paths (entries.map Prod.fst) (entries.map Prod.snd) with
      | error message =>
        rw [hsensors, hrest] at h
        exact nomatch h
      | ok rest =>
        rw [hsensors, hrest] at h
        obtain rfl := Except.ok.inj h
        exact .cons (hprepared.replaced hsensors) (ih hrest)

end Array

variable {μ ρ : Type} (hp : Helpers JsonTree μ ρ) (m : MetricHelpers)

/-- A PATCH of the metrics writes what belongs to the elements, or answers an error and writes
nothing. -/
theorem writesRight_setReportMetrics (others : List Message)
    (properties : Except Message (List ReadingParam)) (reply : Option BackendError) (id : String)
    (metrics : List JsonTree) : WritesRight m properties metrics
      (setReportMetrics hp m others properties reply id metrics) := by
  cases properties with
  | error message => exact .inl ⟨by simp [setReportMetrics], rfl⟩
  | ok existing =>
    simp only [setReportMetrics]
    generalize hs : walk m existing 0 metrics ⟨⟨[], []⟩, [], []⟩ = s
    unfold setReadingParams
    split
    · next hmessages =>
      have hnone : s.messages = [] := by simp_all
      obtain ⟨entries, hrequest, hsensors, hall⟩ :=
        walk_entryOf m existing 0 metrics _ (hs ▸ hnone)
      rw [hs] at hrequest hsensors
      rw [hnone, hrequest, hsensors]
      split
      · exact .inl ⟨by simp, rfl⟩
      · next written hwritten => exact .inr ⟨existing, written, rfl, rfl,
          forall₂_of_appendSensors hall hwritten⟩
    · next hmessages => exact .inl ⟨by simpa using hmessages, rfl⟩

/-- Nothing but an element that cannot be read or a URI that is not found keeps it from writing. -/
theorem writes_setReportMetrics_iff (others : List Message)
    (properties : Except Message (List ReadingParam)) (reply : Option BackendError) (id : String)
    (metrics : List JsonTree) :
    (setReportMetrics hp m others properties reply id metrics).writes ≠ [] ↔
      Writable m others properties metrics := by
  unfold Writable
  cases properties with
  | error message => simp [setReportMetrics]
  | ok existing =>
    simp only [setReportMetrics]
    have hmessages := walk_messages_eq_nil_iff m existing 0 metrics ⟨⟨[], []⟩, [], []⟩
    generalize hs : walk m existing 0 metrics ⟨⟨[], []⟩, [], []⟩ = s at hmessages
    unfold setReadingParams
    by_cases hempty : (others ++ s.messages).isEmpty
    · rw [if_pos hempty]
      obtain ⟨hothers, hnone⟩ := List.append_eq_nil_iff.mp (List.isEmpty_iff.mp hempty)
      obtain ⟨entries, hrequest, hsensors, hall⟩ :=
        walk_entryOf m existing 0 metrics _ (hs ▸ hnone)
      rw [hs] at hrequest hsensors
      rw [hnone, hrequest, hsensors]
      obtain ⟨-, hread⟩ := hmessages.mp hnone
      set paths := m.retrieved ((elements 0 metrics).flatMap (nodesOf m)) with hpaths
      have hfound : (∃ written,
          appendSensors paths (entries.map Prod.fst) (entries.map Prod.snd) = .ok written) ↔
          ∀ e ∈ elements 0 metrics, ∀ given ∈ m.given e.1, ∀ uri ∈ given.uris.getD [],
            (paths.lookup uri).isSome :=
        appendSensors_ok_iff.trans (forall_uris_iff hall)
      have hwritable : (∀ e ∈ elements 0 metrics, ∃ given, m.given e.1 = some given ∧
          (m.getChassisSensorNode (given.uris.getD [])).isSome ∧
            ∀ uri ∈ given.uris.getD [], (paths.lookup uri).isSome) ↔
          ∀ e ∈ elements 0 metrics, ∀ given ∈ m.given e.1, ∀ uri ∈ given.uris.getD [],
            (paths.lookup uri).isSome := by
        constructor
        · intro h e he given hgiven
          obtain ⟨given', hgiven', -, huris⟩ := h e he
          obtain rfl := Option.some.inj (hgiven'.symm.trans hgiven)
          exact huris
        · intro h e he
          obtain ⟨given, hgiven, hnodes⟩ := hread e he
          exact ⟨given, hgiven, hnodes, h e he given hgiven⟩
      rw [hwritable, ← hfound]
      cases happend : appendSensors paths (entries.map Prod.fst) (entries.map Prod.snd) <;>
        simp [hothers, hpaths ▸ happend]
    · rw [if_neg hempty]
      refine iff_of_false (by simp) fun ⟨hothers, _, hall⟩ => hempty ?_
      have hnone : s.messages = [] := hmessages.mpr
        ⟨rfl, fun e he => let ⟨given, hgiven, hnodes, _⟩ := hall e he
          ⟨given, hgiven, hnodes⟩⟩
      rw [hothers, hnone]
      rfl

/-- A PATCH of the metrics writes what belongs to the elements, or answers an error and writes
nothing; and it writes if nothing else has gone wrong, all elements can be read and their URIs are
found. -/
theorem setReportMetrics_right (others : List Message)
    (properties : Except Message (List ReadingParam)) (reply : Option BackendError) (id : String)
    (metrics : List JsonTree) :
    WritesRight m properties metrics
        (setReportMetrics hp m others properties reply id metrics) ∧
      ((setReportMetrics hp m others properties reply id metrics).writes ≠ [] ↔
        Writable m others properties metrics) :=
  ⟨writesRight_setReportMetrics hp m others properties reply id metrics,
    writes_setReportMetrics_iff hp m others properties reply id metrics⟩

/-! ### Elements that are read member by member -/

section Tables

variable [Reader] (toDbusCollectionFunction toDbusCollectionTimeScope : String → Option String)
  (fromDurationString : String → Option UInt64)

/-- `json_util::readJson` with the members of an element, and their translation. -/
def readMetric (metric : JsonTree) : Option GivenMetric := do
  let members ← onlyMembers
    ["MetricProperties", "CollectionFunction", "CollectionTimeScope", "CollectionDuration"] metric
  let uris ← JsonTree.readOptional members "MetricProperties" asStrings
  let collectionFunction ← JsonTree.readOptional members "CollectionFunction" fun json =>
    (asString json).bind toDbusCollectionFunction
  let collectionTimeScope ← JsonTree.readOptional members "CollectionTimeScope" fun json =>
    (asString json).bind toDbusCollectionTimeScope
  let collectionDuration ← JsonTree.readOptional members "CollectionDuration" fun json =>
    (asString json).bind fromDurationString
  return ⟨uris, collectionFunction, collectionTimeScope, collectionDuration⟩

theorem readMetric_uris (metric : JsonTree) (given : GivenMetric)
    (h : readMetric toDbusCollectionFunction toDbusCollectionTimeScope fromDurationString metric =
      some given) : given.uris.isNone = (metric.at? ["MetricProperties"]).isNone := by
  unfold readMetric at h
  obtain ⟨members, hmembers, h⟩ := Option.bind_eq_some_iff.mp h
  obtain ⟨uris, huris, h⟩ := Option.bind_eq_some_iff.mp h
  obtain ⟨_, -, h⟩ := Option.bind_eq_some_iff.mp h
  obtain ⟨_, -, h⟩ := Option.bind_eq_some_iff.mp h
  obtain ⟨_, -, h⟩ := Option.bind_eq_some_iff.mp h
  obtain rfl := Option.some.inj h
  obtain ⟨rfl, -⟩ := onlyMembers_eq_some_iff.mp hmembers
  unfold JsonTree.readOptional at huris
  cases hlookup : members.lookup "MetricProperties" with
  | none =>
    obtain rfl : none = uris := by simpa [hlookup] using huris
    simp [at?, hlookup]
  | some value =>
    rw [hlookup] at huris
    obtain ⟨a, -, rfl⟩ := Option.map_eq_some_iff.mp huris
    simp only [at?, hlookup, Option.bind_some]
    cases value <;> rfl

def MetricHelpers.ofTables (getChassisSensorNode : List String → Option (List (String × String)))
    (retrieved : List (String × String) → UriToDbus) : MetricHelpers where
  given := readMetric toDbusCollectionFunction toDbusCollectionTimeScope fromDurationString
  given_uris := readMetric_uris _ _ _
  getUserMetric metric args :=
    (readMetric toDbusCollectionFunction toDbusCollectionTimeScope fromDurationString metric).map
      args.replace
  getUserMetric_eq _ _ := rfl
  getChassisSensorNode := getChassisSensorNode
  retrieved := retrieved

end Tables

/-- The helpers for a PATCH of the metrics alone. -/
def metricsHelpers : Helpers JsonTree Unit Unit where
  defaults := ⟨"", "Report", "OnRequest", "Overwrite", 0, [], 0, [], true⟩
  toDbusReportingType := id
  toDbusReportUpdates := id
  toDbusReportActions := some
  readRecurrenceInterval _ := some none
  fromDurationString _ := none
  getUserMetrics metrics := some (metrics.map fun _ => ())
  getChassisSensorNode _ := some []
  readingParams _ _ := some ()
  dumpActions _ := ""
  dumpMetrics _ := ""

/-- A URI is the name of a sensor in the one chassis. -/
def oneChassis : MetricHelpers :=
  .ofTables some some (fun _ => some 0) (fun uris => some (uris.map ("chassis", ·)))
    (fun nodes => nodes.map fun (_, sensor) => (sensor, "/sensors/" ++ sensor))

/-- The first reading is dropped, the second gets another function and the third another sensor; a
fourth one is added. -/
theorem setReportMetrics_right_four :
    let reading : String → ReadingParam := fun sensor =>
      ⟨[("/sensors/" ++ sensor, sensor)], "Average", "Interval", 5⟩
    let metrics : List JsonTree := [.null,
      .object [("CollectionFunction", .string "Maximum")],
      .object [("MetricProperties", .array [.string "power"])],
      .object [("MetricProperties", .array [.string "fan", .string "power"])]]
    let o := setReportMetrics metricsHelpers oneChassis []
      (.ok [reading "inlet", reading "outlet", reading "cpu"]) none "r" metrics
    o.writes = [[{ reading "outlet" with collectionFunction := "Maximum" }, reading "power",
      ⟨[("/sensors/fan", "fan"), ("/sensors/power", "power")], "", "", 0⟩]] ∧
    WritesRight oneChassis (.ok [reading "inlet", reading "outlet", reading "cpu"]) metrics o ∧
    Writable oneChassis [] (.ok [reading "inlet", reading "outlet", reading "cpu"]) metrics := by
  intro reading metrics o
  have hwrites : o.writes = [[{ reading "outlet" with collectionFunction := "Maximum" },
      reading "power", ⟨[("/sensors/fan", "fan"), ("/sensors/power", "power")], "", "", 0⟩]] := by
    rfl
  obtain ⟨hright, hiff⟩ := setReportMetrics_right metricsHelpers oneChassis []
    (.ok [reading "inlet", reading "outlet", reading "cpu"]) none "r" metrics
  exact ⟨hwrites, hright, hiff.mp (hwrites ▸ List.cons_ne_nil _ _)⟩

end MetaCommon.Telemetry
