import Mathlib.Data.List.Induction
import Mathlib.Data.String.Basic
import Mathlib.Logic.Function.Iterate
import MetaCommon.Lib.FlatMap

/-!
# The sensors of the fan control

`buildSensors` walks the configuration and erases the entries whose interfaces cannot be created.
The iterator has gone on before an entry is erased, so the walk itself is safe; the pointer into the
entry is not, and it is read once more for the timeout and once for the type.
-/

namespace MetaCommon.PidControl

structure SensorConfig where
  type : String
  readPath : String
  writePath : String
  timeout : ℤ
deriving DecidableEq

/-- A sensor that is always failed, or one with interfaces. -/
inductive Sensor (ρ : Type)
  | failed (name : String) (timeout : ℤ)
  | working (sensor : ρ)
deriving DecidableEq

/-- One call of `SensorManager::addSensor`. -/
structure Added (ρ : Type) where
  type : String
  name : String
  sensor : Sensor ρ
deriving DecidableEq

/-- What the patched function takes from the code around it: the interfaces, none where a null
pointer is found, and the sensor that is made of them. `freed` is what is read through a pointer
into an entry that has been erased. -/
structure Platform (Read Write ρ : Type) where
  createRead : String → SensorConfig → Option Read
  createWrite : String → SensorConfig → Option Write
  makeSensor : String → SensorConfig → Read → Write → ρ
  freed : String → SensorConfig

/-- The state between two passes of the loop. `readErased` are the entries that were read after
they had been erased. -/
structure Loop (ρ : Type) where
  config : FlatMap String SensorConfig
  it : Option String
  visited : List String
  sensors : List (Added ρ)
  readErased : List String

namespace Platform

variable {Read Write ρ : Type} (P : Platform Read Write ρ)

/-- `*info`, a pointer into the entry of the name. -/
def info (s : Loop ρ) (current : String) : SensorConfig :=
  (s.config.lookup current).getD (P.freed current)

def addSensor (s : Loop ρ) (type name : String) (sensor : Sensor ρ) : Loop ρ :=
  { s with sensors := s.sensors ++ [⟨type, name, sensor⟩] }

/-- A read of a member of `*info`. -/
def noteRead (s : Loop ρ) (current : String) : Loop ρ :=
  if (s.config.lookup current).isSome then s
  else { s with readErased := s.readErased ++ [current] }

/-- Either failure path: the entry is erased, and then a `FailedSensor` takes its place. -/
def addFailed (s : Loop ρ) (current : String) : Loop ρ :=
  let s := { s with config := s.config.erase current }
  let sensor := Sensor.failed current (P.info s current).timeout
  let s := noteRead s current
  let type := (P.info s current).type
  let s := noteRead s current
  addSensor s type current sensor

/-- One pass of the loop; there is none at the end of the map. -/
def step (s : Loop ρ) : Loop ρ :=
  match s.it with
  | none => s
  | some current =>
    let s := { s with it := s.config.after current, visited := s.visited ++ [current] }
    let info := P.info s current
    match P.createRead current info with
    | none => P.addFailed s current
    | some ri =>
      match P.createWrite current info with
      | none => P.addFailed s current
      | some wi => addSensor s info.type current (.working (P.makeSensor current info ri wi))

def start (config : FlatMap String SensorConfig) : Loop ρ := ⟨config, config.first, [], [], []⟩

/-- The loop after a number of passes. -/
def buildSensors (config : FlatMap String SensorConfig) (passes : ℕ) : Loop ρ :=
  P.step^[passes] (start config)

/-! ### What is asked of it -/

/-- The sensor that can be made, if both interfaces can be created. -/
def sensorOf (e : String × SensorConfig) : Option ρ :=
  (P.createRead e.1 e.2).bind fun ri =>
    (P.createWrite e.1 e.2).map fun wi => P.makeSensor e.1 e.2 ri wi

/-- The sensor that is added for an entry with the configuration that is read for it. -/
def addedFor (e : String × SensorConfig) (read : SensorConfig) : Added ρ :=
  match P.sensorOf e with
  | some sensor => ⟨e.2.type, e.1, .working sensor⟩
  | none => ⟨read.type, e.1, .failed e.1 read.timeout⟩

/-- Every entry is visited once and has its sensor, the entries that failed are gone, and none of
them was read again. -/
structure Right (config : FlatMap String SensorConfig) (s : Loop ρ) : Prop where
  ended : s.it = none
  visited : s.visited = config.keys
  kept : s.config = config.filter fun e => (P.sensorOf e).isSome
  sensors : s.sensors = config.entries.map fun e => P.addedFor e e.2
  noStaleRead : s.readErased = []

/-! ### One pass -/

/-- The entries `done` have been walked, and the entries `rest` are still to come. -/
structure At (done rest : List (String × SensorConfig)) (s : Loop ρ) : Prop where
  config : s.config.entries = done.filter (fun e => (P.sensorOf e).isSome) ++ rest
  it : s.it = rest.head?.map Prod.fst
  visited : s.visited = done.map Prod.fst
  sensors : s.sensors = done.map fun e => P.addedFor e (P.freed e.1)
  readErased : s.readErased =
    done.flatMap fun e => if (P.sensorOf e).isSome then [] else [e.1, e.1]

theorem addFailed_eq {s : Loop ρ} {current : String} :
    P.addFailed s current =
      { s with
        config := s.config.erase current
        sensors := s.sensors ++
          [⟨(P.freed current).type, current, .failed current (P.freed current).timeout⟩]
        readErased := s.readErased ++ [current, current] } := by
  have hgone : (s.config.erase current).lookup current = none := by
    rw [FlatMap.lookup_erase, if_pos rfl]
  simp [addFailed, noteRead, info, addSensor, hgone]

theorem step_eq {s : Loop ρ} {name : String} {info : SensorConfig} (hit : s.it = some name)
    (hinfo : s.config.lookup name = some info) :
    P.step s =
      let s := { s with it := s.config.after name, visited := s.visited ++ [name] }
      match P.sensorOf (name, info) with
      | none => P.addFailed s name
      | some sensor => addSensor s info.type name (.working sensor) := by
  have hread : ∀ it visited, P.info { s with it := it, visited := visited } name = info :=
    fun _ _ => by simp [Platform.info, hinfo]
  unfold step sensorOf
  rw [hit]
  dsimp only
  rw [hread]
  cases P.createRead name info with
  | none => rfl
  | some ri =>
    cases P.createWrite name info with
    | none => rfl
    | some wi => rfl

theorem At.step {done rest : List (String × SensorConfig)} {e : String × SensorConfig}
    {s : Loop ρ} (h : P.At done (e :: rest) s) : P.At (done ++ [e]) rest (P.step s) := by
  obtain ⟨name, info⟩ := e
  rw [P.step_eq h.it (FlatMap.lookup_of_entries h.config)]
  have hafter := FlatMap.after_of_entries h.config
  have herase := FlatMap.entries_erase_of_entries h.config
  have hvisited : s.visited ++ [name] = (done ++ [(name, info)]).map Prod.fst := by
    rw [h.visited, List.map_append]
    rfl
  cases hsensor : P.sensorOf (name, info) with
  | none =>
    dsimp only
    rw [addFailed_eq]
    refine ⟨?_, hafter, hvisited, ?_, ?_⟩
    · change (s.config.erase name).entries = _
      rw [herase, List.filter_append, List.filter_cons_of_neg (by simp [hsensor])]
      simp
    · simp [h.sensors, addedFor, hsensor]
    · simp [h.readErased, hsensor]
  | some sensor =>
    refine ⟨?_, hafter, hvisited, ?_, ?_⟩
    · change s.config.entries = _
      rw [h.config, List.filter_append, List.filter_cons_of_pos (by simp [hsensor])]
      simp
    · simp [addSensor, h.sensors, addedFor, hsensor]
    · simp [addSensor, h.readErased, hsensor]

/-! ### The walk -/

variable {config : FlatMap String SensorConfig}

theorem at_start : P.At [] config.entries (start config) := ⟨rfl, rfl, rfl, rfl, rfl⟩

/-- After as many passes as there are entries, all have been walked. -/
theorem at_buildSensors {done rest : List (String × SensorConfig)}
    (hentries : config.entries = done ++ rest) :
    P.At done rest (P.buildSensors config done.length) := by
  induction done using List.reverseRecOn generalizing rest with
  | nil =>
    rw [List.nil_append] at hentries
    exact hentries ▸ P.at_start
  | append_singleton done e ih =>
    have hbefore : P.At done (e :: rest) (P.buildSensors config done.length) :=
      ih (by rw [hentries, List.append_assoc]; rfl)
    rw [List.length_append, List.length_singleton, buildSensors, Function.iterate_succ_apply']
    exact hbefore.step P

theorem buildSensors_ended {passes : ℕ} (hpasses : config.entries.length ≤ passes) :
    P.At config.entries [] (P.buildSensors config passes) := by
  have hend : P.At config.entries [] (P.buildSensors config config.entries.length) :=
    P.at_buildSensors (List.append_nil _).symm
  obtain ⟨k, rfl⟩ := Nat.exists_eq_add_of_le' hpasses
  have hfixed : P.step (P.buildSensors config config.entries.length) =
      P.buildSensors config config.entries.length := by
    have hit := hend.it
    unfold Platform.step
    rw [hit]
    rfl
  rw [buildSensors, Function.iterate_add_apply, ← buildSensors, Function.iterate_fixed hfixed]
  exact hend

/-- The walk comes to the right end exactly if no entry fails. -/
theorem buildSensors_right_iff (config : FlatMap String SensorConfig) :
    (∃ passes, ∀ n ≥ passes, P.Right config (P.buildSensors config n)) ↔
      ∀ e ∈ config.entries, (P.sensorOf e).isSome := by
  constructor
  · rintro ⟨passes, hright⟩ e he
    have hend := P.buildSensors_ended (Nat.le_max_left config.entries.length passes)
    have hnone := (hright _ (Nat.le_max_right config.entries.length passes)).noStaleRead
    rw [hend.readErased, List.flatMap_eq_nil_iff] at hnone
    by_contra hfails
    exact List.cons_ne_nil _ _ ((if_neg hfails).symm.trans (hnone e he))
  · intro hall
    refine ⟨config.entries.length, fun n hn => ?_⟩
    have hend := P.buildSensors_ended hn
    refine ⟨hend.it, hend.visited, ?_, ?_, ?_⟩
    · apply FlatMap.eq_of_entries_eq
      rw [hend.config, List.append_nil]
      rfl
    · rw [hend.sensors]
      refine List.map_congr_left fun e he => ?_
      obtain ⟨sensor, hsensor⟩ := Option.isSome_iff_exists.mp (hall e he)
      simp [addedFor, hsensor]
    · rw [hend.readErased, List.flatMap_eq_nil_iff]
      exact fun e he => if_pos (hall e he)

end Platform

/-- A fan whose sensor is not on the bus. -/
def missingFan : FlatMap String SensorConfig :=
  FlatMap.empty.assign "fan0" ⟨"fan", "/xyz/openbmc_project/sensors/fan_tach/fan0", "", 2000⟩

def emptyBus : Platform Unit Unit Unit where
  createRead _ _ := none
  createWrite _ _ := none
  makeSensor _ _ _ _ := ()
  freed _ := ⟨"", "", "", 0⟩

/-- The timeout and the type of the fan are read after its entry has been erased. -/
theorem not_buildSensors_right :
    ¬ ∃ passes, ∀ n ≥ passes, emptyBus.Right missingFan (emptyBus.buildSensors missingFan n) := by
  rintro ⟨passes, hright⟩
  have hend := emptyBus.buildSensors_ended (Nat.le_max_left missingFan.entries.length passes)
  have hnone := (hright _ (Nat.le_max_right missingFan.entries.length passes)).noStaleRead
  rw [hend.readErased] at hnone
  exact absurd hnone (by decide)

end MetaCommon.PidControl
