import Mathlib.Data.List.Dedup
import Mathlib.Tactic.Common

/-!
# Overriding the reading of a sensor

The sensor is looked for under the name in the `Id` of the body, among the sensors of the chassis,
whatever their type. The name in the URL is not used.
-/

namespace MetaCommon.ChassisSensors

variable {V : Type}

inductive Message
  | internalError
  | resourceNotFound (type name : String)
  | ofHelper
  deriving DecidableEq

/-- The functions that are called, and what is behind them: the paths of the sensors of a chassis
and the services of their objects, unless there is an error, and whether a `Set` is accepted. -/
structure Platform (V : Type) where
  getChassis : String → Option (List String)
  splitSensorNameAndType : String → String × String
  filename : String → String
  findSensorNameUsingSensorPath : String → List String → Option String
  find_spec : ∀ name sensorsList path, findSensorNameUsingSensorPath name sensorsList = some path →
    path ∈ sensorsList ∧ filename path = name ∧ name ≠ ""
  getObjectsWithConnection : List String → Option (List (String × String))
  objects_spec : ∀ names objects, getObjectsWithConnection names = some objects →
    ∀ o ∈ objects, o.1 ∈ names
  set : String → String → V → Bool

/-- A value that has been written to an object of a service. -/
structure Write (V : Type) where
  service : String
  path : String
  value : V

/-- The writes of a request and its error messages. -/
abbrev Outcome (V : Type) := List (Write V) × List Message

namespace Platform

variable (P : Platform V)

/-- The sensors of the entries, or the message for the first that has none. -/
def matchNames (sensorsList : List String) :
    List (String × V × String) → Except Message (List String)
  | [] => .ok []
  | (name, _, member) :: rest =>
    match P.findSensorNameUsingSensorPath name sensorsList with
    | none => .error (.resourceNotFound member name)
    | some path => (matchNames sensorsList rest).map (path :: ·)

/-- The loop of `getObjectsWithConnectionCb`, with the answers to the calls that it makes. -/
def setValues (overrideMap : List (String × V × String)) : List (String × String) → Outcome V
  | [] => ([], [])
  | (path, service) :: rest =>
    let sensorName := P.filename path
    if sensorName = "" then ([], [.internalError])
    else
      match overrideMap.lookup sensorName with
      | none => ([], [.internalError])
      | some (value, _) =>
        let (writes, messages) := setValues overrideMap rest
        if P.set service path value then (⟨service, path, value⟩ :: writes, messages)
        else (writes, .internalError :: messages)

/-- The node is that of the sensors, not the thermal one. -/
def setSensor (chassisId : String) (overrideMap : List (String × V × String)) : Outcome V :=
  match P.getChassis chassisId with
  | none => ([], [.ofHelper])
  | some sensorsList =>
    match P.matchNames sensorsList overrideMap with
    | .error m => ([], [m])
    | .ok sensorNames =>
      match P.getObjectsWithConnection sensorNames.dedup with
      | none => ([], [.ofHelper])
      | some objectsWithConnection =>
        if objectsWithConnection.length ≠ overrideMap.length then
          ([], [.resourceNotFound "Voltages" "Count"])
        else P.setValues overrideMap objectsWithConnection

/-- The handler of a PATCH. The body is `none` where `readJsonPatch` refuses it. -/
def patchSensor (chassisName _sensorName : String) (body : Option (String × V)) : Outcome V :=
  match body with
  | none => ([], [.ofHelper])
  | some (memberId, value) =>
    let nameType := P.splitSensorNameAndType memberId
    P.setSensor chassisName [(nameType.2, value, "Reading")]

/-! ### The sensor of a URL -/

/-- The path of the sensor that a name in a URL stands for. -/
def sensorPath (sensorName : String) : String :=
  let nameType := P.splitSensorNameAndType sensorName
  "/xyz/openbmc_project/sensors/" ++ nameType.1 ++ "/" ++ nameType.2

/-- A PATCH is answered with an error and writes nothing, or it writes the reading to the sensor of
the URL, and nothing else. -/
def PatchRight (chassisName sensorName : String) (body : Option (String × V)) : Prop :=
  let outcome := P.patchSensor chassisName sensorName body
  (outcome.2 ≠ [] ∧ outcome.1 = []) ∨
    outcome.2 = [] ∧ ∃ memberId value service sensorsList, body = some (memberId, value) ∧
      outcome.1 = [⟨service, P.sensorPath sensorName, value⟩] ∧
      P.getChassis chassisName = some sensorsList ∧ P.sensorPath sensorName ∈ sensorsList

/-- The sensor that is found under the name in the `Id` is the object of one service, which accepts
the reading. -/
def Writes (chassisName memberId : String) (value : V) (service path : String) : Prop :=
  ∃ sensorsList, P.getChassis chassisName = some sensorsList ∧
    P.findSensorNameUsingSensorPath (P.splitSensorNameAndType memberId).2 sensorsList =
      some path ∧
    P.getObjectsWithConnection [path] = some [(path, service)] ∧ P.set service path value = true

variable {P} {chassisName memberId : String} {value : V}

/-- The one call for the one entry, whose key is the file name of the path. -/
theorem setValues_singleton {name path service : String} (hname : P.filename path = name)
    (hne : name ≠ "") :
    P.setValues [(name, value, "Reading")] [(path, service)] =
      if P.set service path value then ([⟨service, path, value⟩], [])
      else ([], [.internalError]) := by
  simp [setValues, hname, hne]

/-- What becomes of a PATCH once its sensor has been found. -/
theorem setSensor_of_found {name path : String} {sensorsList : List String} (value : V)
    (hchassis : P.getChassis chassisName = some sensorsList)
    (hfind : P.findSensorNameUsingSensorPath name sensorsList = some path) :
    (∃ service, P.getObjectsWithConnection [path] = some [(path, service)] ∧
        P.set service path value = true ∧
        P.setSensor chassisName [(name, value, "Reading")] = ([⟨service, path, value⟩], [])) ∨
      (∀ service, P.getObjectsWithConnection [path] = some [(path, service)] →
        P.set service path value = false) ∧
        ∃ m, P.setSensor chassisName [(name, value, "Reading")] = ([], [m]) := by
  obtain ⟨-, hname, hne⟩ := P.find_spec name sensorsList path hfind
  have hset : P.setSensor chassisName [(name, value, "Reading")] =
      match P.getObjectsWithConnection [path] with
      | none => ([], [.ofHelper])
      | some objects =>
        if objects.length ≠ 1 then ([], [.resourceNotFound "Voltages" "Count"])
        else P.setValues [(name, value, "Reading")] objects := by
    have hdedup : [path].dedup = [path] := (List.nodup_singleton path).dedup
    simp only [setSensor, hchassis, matchNames, hfind, Except.map, hdedup, List.length_singleton]
  rw [hset]
  cases hobjects : P.getObjectsWithConnection [path] with
  | none => exact .inr ⟨nofun, _, rfl⟩
  | some objects =>
    rcases objects with _ | ⟨⟨path', service⟩, _ | ⟨_, _⟩⟩
    · exact .inr ⟨nofun, _, rfl⟩
    · have hmem := P.objects_spec [path] _ hobjects _ List.mem_cons_self
      obtain rfl : path' = path := List.mem_singleton.mp hmem
      simp only [List.length_singleton, ne_eq, not_true_eq_false, if_false,
        setValues_singleton hname hne]
      cases haccepted : P.set service path' value with
      | true => exact .inl ⟨service, rfl, haccepted, rfl⟩
      | false =>
        refine .inr ⟨fun service' heq => ?_, .internalError, rfl⟩
        obtain ⟨rfl⟩ : service = service' := by simpa using heq
        exact haccepted
    · exact .inr ⟨fun _ heq => by simp at heq, _, rfl⟩

theorem Writes.unique {service service' path path' : String}
    (h : P.Writes chassisName memberId value service path)
    (h' : P.Writes chassisName memberId value service' path') : path = path' := by
  obtain ⟨sensorsList, hchassis, hfind, -⟩ := h
  obtain ⟨sensorsList', hchassis', hfind', -⟩ := h'
  obtain rfl := Option.some.inj (hchassis.symm.trans hchassis')
  exact Option.some.inj (hfind.symm.trans hfind')

/-- A PATCH writes once, or it fails and writes nothing. -/
theorem patchSensor_cases (P : Platform V) (chassisName sensorName memberId : String) (value : V) :
    (∃ service path, P.Writes chassisName memberId value service path ∧
        P.patchSensor chassisName sensorName (some (memberId, value)) =
          ([⟨service, path, value⟩], [])) ∨
      (∀ service path, ¬ P.Writes chassisName memberId value service path) ∧
        ∃ m, P.patchSensor chassisName sensorName (some (memberId, value)) = ([], [m]) := by
  unfold patchSensor
  dsimp only
  cases hchassis : P.getChassis chassisName with
  | none =>
    refine .inr ⟨fun service path => ?_, .ofHelper, by simp only [setSensor, hchassis]⟩
    rintro ⟨_, hsome, _⟩
    cases hchassis.symm.trans hsome
  | some sensorsList =>
    cases hfind : P.findSensorNameUsingSensorPath (P.splitSensorNameAndType memberId).2
        sensorsList with
    | none =>
      refine .inr ⟨fun service path => ?_,
        .resourceNotFound "Reading" (P.splitSensorNameAndType memberId).2,
        by simp only [setSensor, hchassis, matchNames, hfind]⟩
      rintro ⟨_, hsome, hfound, _⟩
      obtain rfl := Option.some.inj (hchassis.symm.trans hsome)
      cases hfind.symm.trans hfound
    | some path =>
      rcases setSensor_of_found value hchassis hfind with
        ⟨service, hobjects, hset, heq⟩ | ⟨hset, m, heq⟩
      · exact .inl ⟨service, path, ⟨sensorsList, hchassis, hfind, hobjects, hset⟩, heq⟩
      · refine .inr ⟨fun service path' => ?_, m, heq⟩
        rintro ⟨_, hsome, hfound, hobjects, haccepted⟩
        obtain rfl := Option.some.inj (hchassis.symm.trans hsome)
        obtain rfl := Option.some.inj (hfind.symm.trans hfound)
        exact Bool.false_ne_true ((hset service hobjects).symm.trans haccepted)

/-- A PATCH is right exactly if the sensor that it finds under the name in the `Id`, and writes, is
the one of the URL. -/
theorem patchSensor_right_iff (P : Platform V) (chassisName sensorName : String)
    (body : Option (String × V)) :
    P.PatchRight chassisName sensorName body ↔
      ∀ memberId value service path, body = some (memberId, value) →
        P.Writes chassisName memberId value service path → path = P.sensorPath sensorName := by
  cases body with
  | none => exact iff_of_true (.inl ⟨List.cons_ne_nil _ _, rfl⟩) nofun
  | some b =>
    obtain ⟨memberId, value⟩ := b
    rcases P.patchSensor_cases chassisName sensorName memberId value with
      ⟨service, path, hwrites, houtcome⟩ | ⟨hnone, m, houtcome⟩
    · constructor
      · rintro (⟨herror, -⟩ | ⟨-, _, _, service', _, -, heq, -⟩) _ _ _ path' ⟨⟩ hwrites'
        · exact absurd (by rw [houtcome]) herror
        · rw [houtcome, List.cons.injEq, Write.mk.injEq] at heq
          exact (hwrites'.unique hwrites).trans heq.1.2.1
      · intro h
        obtain rfl := h memberId value service path rfl hwrites
        obtain ⟨sensorsList, hchassis, hfind, -⟩ := hwrites
        refine .inr ⟨by rw [houtcome], memberId, value, service, sensorsList, rfl, by rw [houtcome],
          hchassis, (P.find_spec _ _ _ hfind).1⟩
    · refine iff_of_true (.inl ?_) ?_
      · rw [houtcome]
        exact ⟨List.cons_ne_nil _ _, rfl⟩
      · rintro _ _ service path ⟨⟩ hwrites
        exact absurd hwrites (hnone service path)

/-- A PATCH whose `Id` is the name in the URL is right if the sensor of the URL is the only one of
the chassis with its file name. -/
theorem patchSensor_right_of_unique (P : Platform V) (chassisName sensorName : String) (value : V)
    (hunique : ∀ sensorsList, P.getChassis chassisName = some sensorsList → ∀ path ∈ sensorsList,
      P.filename path = (P.splitSensorNameAndType sensorName).2 →
        path = P.sensorPath sensorName) :
    P.PatchRight chassisName sensorName (some (sensorName, value)) := by
  refine (P.patchSensor_right_iff chassisName sensorName _).mpr ?_
  rintro _ _ service path ⟨⟩ ⟨sensorsList, hchassis, hfind, -⟩
  obtain ⟨hmem, hname, -⟩ := P.find_spec _ _ _ hfind
  exact hunique sensorsList hchassis path hmem hname

end Platform

/-- A chassis with two temperature sensors. -/
def twoSensors : Platform Unit where
  getChassis _ := some ["/xyz/openbmc_project/sensors/temperature/Exhaust",
    "/xyz/openbmc_project/sensors/temperature/Inlet"]
  splitSensorNameAndType sensorId :=
    ("temperature", if sensorId = "temperature_Exhaust" then "Exhaust" else "Inlet")
  filename path :=
    if path = "/xyz/openbmc_project/sensors/temperature/Exhaust" then "Exhaust" else "Inlet"
  findSensorNameUsingSensorPath name sensorsList := sensorsList.find? fun path =>
    (if path = "/xyz/openbmc_project/sensors/temperature/Exhaust" then "Exhaust" else "Inlet") =
      name ∧ name ≠ ""
  find_spec name sensorsList path h :=
    ⟨List.mem_of_find?_eq_some h, by simpa using List.find?_some h⟩
  getObjectsWithConnection names := some (names.map fun path => (path, "HwmonTempSensor"))
  objects_spec names objects h o ho := by
    obtain rfl := Option.some.inj h
    obtain ⟨path, hpath, rfl⟩ := List.mem_map.mp ho
    exact hpath
  set _ _ _ := true

/-- A PATCH of `temperature_Inlet` with the `Id` `temperature_Exhaust`. -/
theorem not_patchSensor_right :
    ¬ ∀ (V : Type) (P : Platform V) (chassisName sensorName : String)
      (body : Option (String × V)), P.PatchRight chassisName sensorName body := by
  intro h
  rcases h Unit twoSensors "Baseboard" "temperature_Inlet" (some ("temperature_Exhaust", ())) with
    ⟨-, hnone⟩ | ⟨-, _, _, service, _, -, hwrite, -⟩
  · exact absurd (congrArg List.length hnone) (by decide +kernel)
  · have hpath : (twoSensors.patchSensor "Baseboard" "temperature_Inlet"
        (some ("temperature_Exhaust", ()))).1.map Write.path =
          [twoSensors.sensorPath "temperature_Inlet"] := congrArg (List.map Write.path) hwrite
    exact absurd hpath (by decide +kernel)

end MetaCommon.ChassisSensors
