import MetaCommon.DbusAdc.ChangeRounds

/-!
# What a reply does for the sensors

As long as each sensor that is on the list of changes finds its own path there, what the loop over a
reply does for a sensor follows from the names, the paths that have been signalled and the order of
the configurations.
-/

namespace MetaCommon.DbusAdc

open Runs

/-! ### The part of a list before an element -/

section InOrder

variable {α : Type}

/-- Every element of the list, with the part of the list before it, has the property. -/
def InOrder (P : List α → α → Prop) (l : List α) : Prop :=
  ∀ i (hi : i < l.length), P (l.take i) l[i]

instance (P : List α → α → Prop) [∀ l a, Decidable (P l a)] : DecidablePred (InOrder P) := fun l =>
  inferInstanceAs (Decidable (∀ i (hi : i < l.length), P (l.take i) l[i]))

theorem inOrder_iff {P : List α → α → Prop} {l : List α} :
    InOrder P l ↔ ∀ l₁ a l₂, l = l₁ ++ a :: l₂ → P l₁ a := by
  constructor
  · rintro h l₁ a l₂ rfl
    have ha := h l₁.length (by simp)
    simpa using ha
  · intro h i hi
    apply h (l.take i) l[i] (l.drop (i + 1))
    rw [List.getElem_cons_drop, List.take_append_drop]

/-- A search for an object with the property comes to one before any null entry. -/
def FindsFirst (P : α → Prop) (es : List (String × Option α)) : Prop :=
  InOrder (fun before e => e.2.isNone → ∃ e' ∈ before, ∃ a ∈ e'.2, P a) es

instance (P : α → Prop) [DecidablePred P] : DecidablePred (FindsFirst P) := fun es =>
  inferInstanceAs (Decidable (InOrder (fun before e => e.2.isNone →
    ∃ e' ∈ before, ∃ a ∈ e'.2, P a) es))

theorem findsFirst_cons_some {P : α → Prop} {k : String} {a : α} {es : List (String × Option α)} :
    FindsFirst P ((k, some a) :: es) ↔ P a ∨ FindsFirst P es := by
  unfold FindsFirst
  rw [inOrder_iff, inOrder_iff]
  constructor
  · intro h
    refine or_iff_not_imp_left.mpr fun ha es₁ e es₂ heq hnull => ?_
    obtain ⟨e', he', b, hb, hPb⟩ := h ((k, some a) :: es₁) e es₂ (congrArg _ heq) hnull
    rcases List.mem_cons.mp he' with rfl | he'
    · obtain rfl := Option.some.inj hb
      exact absurd hPb ha
    · exact ⟨e', he', b, hb, hPb⟩
  · intro h es₁ e es₂ heq hnull
    cases es₁ with
    | nil =>
      obtain ⟨rfl, -⟩ := List.cons.inj heq
      cases hnull
    | cons e₁ es₁ =>
      obtain ⟨rfl, htail⟩ := List.cons.inj heq
      rcases h with ha | h
      · exact ⟨_, List.mem_cons_self, a, rfl, ha⟩
      · obtain ⟨e', he', hb⟩ := h es₁ e es₂ htail hnull
        exact ⟨e', List.mem_cons_of_mem _ he', hb⟩

theorem findIf_isSome_iff_findsFirst {p : α → Bool} {es : List (String × Option α)} :
    (findIf p es).isSome ↔ FindsFirst (fun a => p a = true) es := by
  induction es with
  | nil => exact iff_of_true rfl fun i hi => absurd hi (Nat.not_lt_zero i)
  | cons e es ih =>
    obtain ⟨k, o⟩ := e
    cases o with
    | none =>
      refine iff_of_false Bool.false_ne_true fun h => ?_
      obtain ⟨e, he, -⟩ := inOrder_iff.mp h [] (k, none) es rfl rfl
      exact List.not_mem_nil he
    | some a =>
      unfold findIf
      rw [findsFirst_cons_some, ← ih]
      split_ifs with hp
      · exact iff_of_true rfl (.inl hp)
      · rw [or_iff_right hp]

/-- The search finds something if some object has the property. -/
theorem findIf_isSome_found {p : α → Bool} {es : List (String × Option α)} {found : Option α}
    (h : findIf p es = some found) : found.isSome ↔ ∃ e ∈ es, ∃ a ∈ e.2, p a := by
  induction es with
  | nil =>
    obtain rfl := Option.some.inj h
    simp
  | cons e es ih =>
    obtain ⟨k, o⟩ := e
    cases o with
    | none => cases h
    | some a =>
      unfold findIf at h
      split_ifs at h with hp
      · obtain rfl := Option.some.inj h
        exact iff_of_true rfl ⟨_, List.mem_cons_self, a, rfl, hp⟩
      · rw [ih h]
        simp [hp]

end InOrder

theorem endsWith_iff {path name : String} :
    endsWith path name = true ↔ name.toList <:+ path.toList := List.isSuffixOf_iff_suffix

/-! ### A reply and the request it answers -/

/-- A request for the configurations: the paths that it was made for, and whether it was made for
all sensors. -/
structure Request where
  signalled : List String
  full : Bool

namespace Daemon

/-- The names of the sensors that exist, in their order. -/
def existing (s : Daemon) : List String :=
  s.sensors.entries.filterMap fun e => e.2.map fun _ => e.1

theorem mem_existing {s : Daemon} {name : String} : name ∈ s.existing ↔ name ∈ s.sensorNames := by
  unfold existing sensorNames
  simp only [List.mem_filterMap, Option.map_eq_some_iff, Set.mem_ofPred_eq]
  constructor
  · rintro ⟨⟨k, o⟩, he, sensor, rfl, rfl⟩
    exact ⟨sensor, he⟩
  · rintro ⟨sensor, he⟩
    exact ⟨_, he, sensor, rfl, rfl⟩

/-- The sensor has a configuration whose controller is enabled. -/
def Configured (s : Daemon) (cfgs : List SensorConfig) (name : String) : Prop :=
  ∃ cfg ∈ cfgs, ∃ t ∈ s.target cfg, t.1 = name

instance (s : Daemon) (cfgs : List SensorConfig) : DecidablePred (s.Configured cfgs) := fun name =>
  inferInstanceAs (Decidable (∃ cfg ∈ cfgs, ∃ t ∈ s.target cfg, t.1 = name))

variable (escapeName pathOf : String → String) (request : Request) (later : List String)

/-- What the loop over a reply does for the request, with the paths signalled `later`: the sensors
that were signalled are made again or removed, the others are left alone, and the changes are taken
off the list; if the request is for all sensors, those that can be are there afterwards. -/
structure Served (s : Daemon) (cfgs : List SensorConfig) (s' : Daemon) (names : List String) :
    Prop where
  remade : ∀ name ∈ s.sensorNames, pathOf name ∈ request.signalled →
    (∀ cfg ∈ cfgs, ∀ controller, s.target cfg = some (name, controller) → s.Ready cfg →
      name ∈ names ∧ s'.sensors.lookup name = some (sensorOf escapeName name controller cfg)) ∧
    ((∀ cfg ∈ cfgs, ∀ controller, s.target cfg = some (name, controller) → ¬ s.Ready cfg) →
      name ∉ s'.sensorNames)
  others : request.full = false → ∀ name ∈ s.sensorNames,
    pathOf name ∉ request.signalled → pathOf name ∉ later →
      name ∉ names ∧ s'.sensors.lookup name = s.sensors.lookup name
  consumed : ∀ path ∈ s'.sensorsChanged.keys, path ∈ later
  created : request.full = true → ∀ cfg ∈ cfgs, ∀ name controller,
    s.target cfg = some (name, controller) → s.Ready cfg → name ∈ s'.sensorNames

/-- The path is that of a sensor which is there and configured. -/
def Taken (s : Daemon) (cfgs : List SensorConfig) (path : String) : Prop :=
  ∃ name ∈ s.existing, pathOf name = path ∧ s.Configured cfgs name

instance (s : Daemon) (cfgs : List SensorConfig) : DecidablePred (s.Taken pathOf cfgs) :=
  fun path => inferInstanceAs (Decidable (∃ name ∈ s.existing, pathOf name = path ∧
    s.Configured cfgs name))

/-- A sensor that has been signalled is there and comes after those configurations. -/
def Waiting (s : Daemon) (cfgs : List SensorConfig) : Prop :=
  ∃ name ∈ s.existing, pathOf name ∈ request.signalled ++ later ∧
    ¬ s.Taken pathOf cfgs (pathOf name)

instance (s : Daemon) : DecidablePred (s.Waiting pathOf request later) := fun cfgs =>
  inferInstanceAs (Decidable (∃ name ∈ s.existing, pathOf name ∈ request.signalled ++ later ∧
    ¬ s.Taken pathOf cfgs (pathOf name)))

/-- After those configurations no other path that has been signalled comes in the way of the sensor
`t`: one that ends with its name has been taken, or the sensor has been signalled and its own path
is the lesser. -/
def Apart (s : Daemon) (cfgs : List SensorConfig) (t : String) : Prop :=
  ∀ name ∈ s.existing, pathOf name ∈ request.signalled ++ later →
    (escapeName t).toList <:+ (pathOf name).toList → pathOf name ≠ pathOf t →
      s.Taken pathOf cfgs (pathOf name) ∨ pathOf t ∈ request.signalled ∧ pathOf t < pathOf name

instance (s : Daemon) (cfgs : List SensorConfig) :
    DecidablePred (s.Apart escapeName pathOf request later cfgs) := fun t =>
  inferInstanceAs (Decidable (∀ name ∈ s.existing, pathOf name ∈ request.signalled ++ later →
    (escapeName t).toList <:+ (pathOf name).toList → pathOf name ≠ pathOf t →
      s.Taken pathOf cfgs (pathOf name) ∨ pathOf t ∈ request.signalled ∧ pathOf t < pathOf name))

/-- The condition on a configuration whose controller is enabled, in the place that it has in the
reply: the sensor has not been signalled since the request; no other path that has been signalled
comes in its way; a sensor that exists and has not been signalled comes while another one is
waiting, and one that is to be made when none is. -/
structure PlaceCondition (s : Daemon) (cfgs : List SensorConfig) (cfg : SensorConfig) (t : String) :
    Prop where
  quiet : t ∈ s.existing ∨ s.Ready cfg → pathOf t ∉ later
  apart : t ∈ s.existing → s.Apart escapeName pathOf request later cfgs t
  others : request.full = false → t ∈ s.existing → pathOf t ∉ request.signalled → s.Ready cfg →
    s.Waiting pathOf request later cfgs
  created : request.full = true → t ∉ s.existing → s.Ready cfg →
    ¬ s.Waiting pathOf request later cfgs

set_option synthInstance.maxSize 256 in
instance (s : Daemon) (cfgs : List SensorConfig) (cfg : SensorConfig) :
    DecidablePred (s.PlaceCondition escapeName pathOf request later cfgs cfg) := fun t =>
  decidable_of_iff ((t ∈ s.existing ∨ s.Ready cfg → pathOf t ∉ later) ∧
    (t ∈ s.existing → s.Apart escapeName pathOf request later cfgs t) ∧
    (request.full = false → t ∈ s.existing → pathOf t ∉ request.signalled → s.Ready cfg →
      s.Waiting pathOf request later cfgs) ∧
    (request.full = true → t ∉ s.existing → s.Ready cfg → ¬ s.Waiting pathOf request later cfgs))
    ⟨fun h => ⟨h.1, h.2.1, h.2.2.1, h.2.2.2⟩, fun h => ⟨h.quiet, h.apart, h.others, h.created⟩⟩

/-- The condition on a reply: no search for a controller comes to a null entry, every sensor that
was signalled is configured, and every configuration is in a place that it may have. -/
structure ReplyCondition (s : Daemon) (cfgs : List SensorConfig) : Prop where
  searches : ∀ cfg ∈ cfgs, cfg.typed = true → cfg.name.isSome →
    ∀ controllerName ∈ cfg.controllerName,
      FindsFirst (fun c => c.name = controllerName) s.controllers.entries
  configured : ∀ name ∈ s.existing, pathOf name ∈ request.signalled → s.Configured cfgs name
  places : InOrder (fun before cfg => ∀ t ∈ s.target cfg,
    s.PlaceCondition escapeName pathOf request later before cfg t.1) cfgs

instance (s : Daemon) : DecidablePred (s.ReplyCondition escapeName pathOf request later) :=
  fun cfgs => decidable_of_iff ((∀ cfg ∈ cfgs, cfg.typed = true → cfg.name.isSome →
      ∀ controllerName ∈ cfg.controllerName,
        FindsFirst (fun c => c.name = controllerName) s.controllers.entries) ∧
    (∀ name ∈ s.existing, pathOf name ∈ request.signalled → s.Configured cfgs name) ∧
    InOrder (fun before cfg => ∀ t ∈ s.target cfg,
      s.PlaceCondition escapeName pathOf request later before cfg t.1) cfgs)
    ⟨fun h => ⟨h.1, h.2.1, h.2.2⟩, fun h => ⟨h.searches, h.configured, h.places⟩⟩

/-- The sensors and their changes while the paths `outstanding` have been signalled: an object has
the name of its entry, and the changes are those of the sensors that exist, each of which finds its
own path. -/
structure Tracks (outstanding : List String) (s : Daemon) : Prop where
  objects : ∀ name sensor, s.sensors.lookup name = some (some sensor) →
    sensor.name = escapeName name
  signalled : ∀ path ∈ s.sensorsChanged.keys,
    path ∈ outstanding ∧ ∃ name ∈ s.existing, pathOf name = path
  recorded : ∀ name ∈ s.existing, pathOf name ∈ outstanding →
    pathOf name ∈ s.sensorsChanged.keys ∧ (escapeName name).toList <:+ (pathOf name).toList

section Reply

variable {escapeName pathOf request later} {s s' : Daemon} {cfgs : List SensorConfig}
  {names : List String}

theorem taken_concat {cfg : SensorConfig} {path : String} :
    s.Taken pathOf (cfgs ++ [cfg]) path ↔ s.Taken pathOf cfgs path ∨
      ∃ t ∈ s.target cfg, t.1 ∈ s.existing ∧ pathOf t.1 = path := by
  unfold Taken Configured
  simp only [List.mem_append, List.mem_singleton]
  constructor
  · rintro ⟨name, hname, hpath, cfg', hcfg' | rfl, t, ht, rfl⟩
    · exact .inl ⟨t.1, hname, hpath, cfg', hcfg', t, ht, rfl⟩
    · exact .inr ⟨t, ht, hname, hpath⟩
  · rintro (⟨name, hname, hpath, cfg', hcfg', ht⟩ | ⟨t, ht, hname, hpath⟩)
    · exact ⟨name, hname, hpath, cfg', .inl hcfg', ht⟩
    · exact ⟨t.1, hname, hpath, cfg, .inr rfl, t, ht, rfl⟩

/-- A sensor whose configuration is still to come has not had its path taken. -/
theorem not_taken_of_target {cfgs₁ cfgs₂ : List SensorConfig} {cfg : SensorConfig}
    {t : String × DBusADCSensorController} (hd : DistinctPaths pathOf (cfgs₁ ++ cfg :: cfgs₂))
    (ht : s.target cfg = some t) : ¬ s.Taken pathOf cfgs₁ (pathOf t.1) := by
  rintro ⟨_, -, hpath, cfg', hcfg', t', ht', rfl⟩
  have hne := (List.pairwise_append.mp hd).2.2 cfg' hcfg' cfg List.mem_cons_self
  refine hne _ (path_of_target pathOf ht') ?_
  rw [hpath]
  exact path_of_target pathOf ht

/-- The changes are the paths of the sensors that exist and have been signalled. -/
theorem Tracks.mem_keys_iff (ht : s.Tracks escapeName pathOf (request.signalled ++ later))
    {path : String} : path ∈ s.sensorsChanged.keys ↔
    ∃ name ∈ s.existing, pathOf name = path ∧ path ∈ request.signalled ++ later := by
  constructor
  · intro hpath
    obtain ⟨hout, name, hname, rfl⟩ := ht.signalled path hpath
    exact ⟨name, hname, rfl, hout⟩
  · rintro ⟨name, hname, rfl, hout⟩
    exact (ht.recorded name hname hout).1

/-- The state of the loop after some rounds: the changes that are left are those which no sensor has
taken off. -/
def Left (s : Daemon) (pathOf : String → String) (cfgs₁ : List SensorConfig) (s₁ : Daemon) : Prop :=
  ∀ path, path ∈ s₁.sensorsChanged.keys ↔
    path ∈ s.sensorsChanged.keys ∧ ¬ s.Taken pathOf cfgs₁ path

section Round

variable {s₁ : Daemon} {cfgs₁ cfgs₂ : List SensorConfig} {cfg : SensorConfig} {name : String}
  {controller : DBusADCSensorController}
  (ht : s.Tracks escapeName pathOf (request.signalled ++ later))
  (hd : DistinctPaths pathOf (cfgs₁ ++ cfg :: cfgs₂))
  (htarget : s.target cfg = some (name, controller))
  (hplace : s.PlaceCondition escapeName pathOf request later cfgs₁ cfg name)
  (hleft : s.Left pathOf cfgs₁ s₁) (hbefore : s₁.sensors.lookup name = s.sensors.lookup name)
include ht hd htarget hplace hleft hbefore

/-- In its round a sensor that has been signalled finds its own path, and no other finds any. -/
theorem Tracks.changeFound_iff {path : String} : s₁.changeFound name = some path ↔
    name ∈ s.existing ∧ pathOf name = path ∧ path ∈ request.signalled ++ later := by
  by_cases hname : name ∈ s.existing
  swap
  · refine iff_of_false (fun h => hname ?_) fun h => hname h.1
    have hmem := mem_sensorNames_of_changeFound h
    rw [mem_sensorNames_iff, hbefore] at hmem
    exact mem_existing.mpr (mem_sensorNames_iff.mpr hmem)
  obtain ⟨sensor, hsensor⟩ := mem_sensorNames_iff.mp (mem_existing.mp hname)
  have hobject := ht.objects name sensor hsensor
  have hfound : s₁.changeFound name = s₁.sensorsChanged.keys.find? fun path =>
      endsWith path (escapeName name) := by
    unfold changeFound
    rw [hbefore, hsensor, ← hobject]
  -- Another path on the list that ends with the name comes after that of the sensor.
  have hother : ∀ path ∈ s₁.sensorsChanged.keys, endsWith path (escapeName name) = true →
      path ≠ pathOf name → pathOf name ∈ request.signalled ∧ pathOf name < path := by
    intro path hpath hends hne
    obtain ⟨hpath, hnot⟩ := (hleft path).mp hpath
    obtain ⟨name', hname', rfl, hout⟩ := ht.mem_keys_iff.mp hpath
    exact (hplace.apart hname name' hname' hout (endsWith_iff.mp hends) hne).resolve_left hnot
  rw [hfound, FlatMap.find?_keys_eq_some]
  constructor
  · rintro ⟨hpath, hends, hleast⟩
    have hout := (ht.signalled path ((hleft path).mp hpath).1).1
    by_cases heq : pathOf name = path
    · exact ⟨hname, heq, hout⟩
    · obtain ⟨hsignalled, hlt⟩ := hother path hpath hends (Ne.symm heq)
      obtain ⟨hown, hsuffix⟩ := ht.recorded name hname (List.mem_append_left _ hsignalled)
      have hin : pathOf name ∈ s₁.sensorsChanged.keys :=
        (hleft _).mpr ⟨hown, not_taken_of_target hd htarget⟩
      exact absurd hlt (hleast _ hin (endsWith_iff.mpr hsuffix)).not_gt
  · rintro ⟨-, rfl, hout⟩
    obtain ⟨hown, hsuffix⟩ := ht.recorded name hname hout
    refine ⟨(hleft _).mpr ⟨hown, not_taken_of_target hd htarget⟩, endsWith_iff.mpr hsuffix, ?_⟩
    intro path hpath hends
    by_cases heq : path = pathOf name
    · exact heq.ge
    · exact (hother path hpath hends heq).2.le

/-- A round touches the sensor if that has been signalled, or if none is waiting and the sensor is
ready. -/
theorem Tracks.touches_iff (hready : s₁.Ready cfg ↔ s.Ready cfg) : s₁.Touches name cfg ↔
    name ∈ s.existing ∧ pathOf name ∈ request.signalled ++ later ∨
      ¬ s.Waiting pathOf request later cfgs₁ ∧ s.Ready cfg := by
  have hempty : s₁.sensorsChanged.isEmpty ↔ ¬ s.Waiting pathOf request later cfgs₁ := by
    have hkeys : s₁.sensorsChanged.isEmpty ↔ ∀ path, path ∉ s₁.sensorsChanged.keys := by
      unfold FlatMap.isEmpty FlatMap.keys
      rw [List.isEmpty_iff, ← List.eq_nil_iff_forall_not_mem, List.map_eq_nil_iff]
    rw [hkeys]
    unfold Waiting
    constructor
    · rintro h ⟨name', hname', hout, hnot⟩
      exact h _ ((hleft _).mpr ⟨(ht.recorded name' hname' hout).1, hnot⟩)
    · intro h path hpath
      obtain ⟨hpath, hnot⟩ := (hleft path).mp hpath
      obtain ⟨name', hname', rfl, hout⟩ := ht.mem_keys_iff.mp hpath
      exact h ⟨name', hname', hout, hnot⟩
  unfold Touches
  rw [hready, hempty, Option.isSome_iff_exists]
  simp only [ht.changeFound_iff hd htarget hplace hleft hbefore, exists_and_left,
    exists_eq_left']

end Round

/-- The loop takes the paths of the sensors off the list that it comes to. -/
theorem Tracks.left_exec (ht : s.Tracks escapeName pathOf (request.signalled ++ later))
    {s₁ : Daemon} {cfgs₁ cfgs₂ : List SensorConfig} (hd : DistinctPaths pathOf (cfgs₁ ++ cfgs₂))
    (hplaces : InOrder (fun before cfg => ∀ t ∈ s.target cfg,
      s.PlaceCondition escapeName pathOf request later before cfg t.1) (cfgs₁ ++ cfgs₂))
    (h : exec (processSensor escapeName) s cfgs₁ = some s₁) : s.Left pathOf cfgs₁ s₁ := by
  induction cfgs₁ using List.reverseRecOn generalizing cfgs₂ s₁ with
  | nil =>
    obtain rfl := Option.some.inj h
    intro path
    simp [Taken, Configured]
  | append_singleton cfgs₁ cfg ih =>
    rw [List.append_assoc, List.singleton_append] at hd hplaces
    rw [exec_append] at h
    obtain ⟨s₂, h₂, h⟩ := Option.bind_eq_some_iff.mp h
    obtain ⟨_, hround, h⟩ := Option.bind_eq_some_iff.mp h
    obtain rfl := Option.some.inj h
    have hleft := ih hd hplaces h₂
    have htarget₂ := target_exec h₂ cfg
    intro path
    rw [taken_concat]
    cases htarget : s.target cfg with
    | none =>
      rw [eq_of_target_none escapeName (htarget₂.trans htarget) hround, hleft path]
      simp
    | some t =>
      obtain ⟨name, controller⟩ := t
      have hbefore := exec_processSensor_lookup name h₂ fun cfg' hcfg' =>
        hd.target_ne htarget cfg' (List.mem_append_left _ hcfg')
      have hplace := inOrder_iff.mp hplaces cfgs₁ cfg cfgs₂ rfl _ htarget
      rw [processSensor_changes escapeName (htarget₂.trans htarget) hround path, hleft path, ne_eq,
        ht.changeFound_iff hd htarget hplace hleft hbefore]
      simp only [Option.mem_def, Option.some.injEq, exists_eq_left', not_or, and_assoc]
      refine and_congr_right fun hpath => and_congr_right fun _ => not_congr ?_
      simp [(ht.signalled path hpath).1]

/-- The loop over a reply is defined if the condition is met. -/
theorem ReplyCondition.exec_some (hc : s.ReplyCondition escapeName pathOf request later cfgs) :
    ∃ s' names, exec (traceSensor escapeName) (s, []) cfgs = some (s', names) := by
  have hends : (exec (processSensor escapeName) s cfgs).isSome := by
    refine exec_processSensor_isSome_iff.mpr fun cfg hcfg htyped hname controllerName hc' => ?_
    have heq : (fun c : DBusADCSensorController => (controllerName == c.name) = true) =
        fun c => c.name = controllerName := funext fun c => propext (beq_iff_eq.trans eq_comm)
    rw [findIf_isSome_iff_findsFirst, heq]
    exact hc.searches cfg hcfg htyped hname controllerName hc'
  rw [← exec_traceSensor_fst escapeName (s, []), Option.isSome_map] at hends
  obtain ⟨⟨s', names⟩, h⟩ := Option.isSome_iff_exists.mp hends
  exact ⟨s', names, h⟩

/-- A sensor that is not configured is left alone. -/
theorem frame_of_not_configured
    (h : exec (traceSensor escapeName) (s, []) cfgs = some (s', names)) {name : String}
    (hnot : ¬ s.Configured cfgs name) :
    s'.sensors.lookup name = s.sensors.lookup name ∧ name ∉ names := by
  obtain ⟨hlookup, hnames⟩ := exec_traceSensor_frame name h fun cfg hcfg t ht hname =>
    hnot ⟨cfg, hcfg, t, ht, hname⟩
  exact ⟨hlookup, fun hn => List.not_mem_nil (hnames.mp hn)⟩

section Loop

variable (ht : s.Tracks escapeName pathOf (request.signalled ++ later))
  (hd : DistinctPaths pathOf cfgs)
  (hc : s.ReplyCondition escapeName pathOf request later cfgs)
  (h : exec (traceSensor escapeName) (s, []) cfgs = some (s', names))
include ht hd hc h

/-- The round of a sensor that is configured. -/
theorem Tracks.round_of_mem {cfg : SensorConfig} {name : String}
    {controller : DBusADCSensorController} (hcfg : cfg ∈ cfgs)
    (htarget : s.target cfg = some (name, controller)) : ∃ cfgs₁ s₁,
      RoundOf escapeName s s' names name controller cfg s₁ ∧
      s.PlaceCondition escapeName pathOf request later cfgs₁ cfg name ∧
      (s₁.Touches name cfg ↔ name ∈ s.existing ∧ pathOf name ∈ request.signalled ++ later ∨
        ¬ s.Waiting pathOf request later cfgs₁ ∧ s.Ready cfg) := by
  obtain ⟨cfgs₁, cfgs₂, rfl⟩ := List.append_of_mem hcfg
  obtain ⟨s₁, hs₁, hround⟩ := roundOf_exec h htarget (hd.target_ne htarget)
  have hplace := inOrder_iff.mp hc.places cfgs₁ cfg cfgs₂ rfl _ htarget
  have hleft := ht.left_exec hd hc.places hs₁
  exact ⟨cfgs₁, s₁, hround, hplace,
    ht.touches_iff hd htarget hplace hleft hround.before hround.ready⟩

theorem Tracks.left_all : s.Left pathOf cfgs s' := by
  have hexec : exec (processSensor escapeName) s cfgs = some s' := by
    rw [← exec_traceSensor_fst escapeName (s, []), h]
    rfl
  rw [← List.append_nil cfgs] at hd
  exact ht.left_exec hd (by rw [List.append_nil]; exact hc.places) hexec

/-- The loop serves the request. -/
theorem Tracks.served : Served escapeName pathOf request later s cfgs s' names where
  remade := by
    intro name hmem hsignalled
    have hname := mem_existing.mpr hmem
    obtain ⟨cfg, hcfg, ⟨_, controller⟩, htarget, rfl⟩ := hc.configured name hname hsignalled
    obtain ⟨cfgs₁, s₁, hround, -, htouches⟩ := ht.round_of_mem hd hc h hcfg htarget
    obtain ⟨hready, hnot⟩ := (hround.remade_iff hmem).mpr
      (htouches.mpr (.inl ⟨hname, List.mem_append_left _ hsignalled⟩))
    refine ⟨?_, fun hall => hnot (hall cfg hcfg controller htarget)⟩
    intro cfg' hcfg' controller' htarget' hready'
    obtain rfl := hd.eq_of_target hcfg hcfg' htarget htarget'
    obtain rfl : controller' = controller :=
      congrArg Prod.snd (Option.some.inj (htarget'.symm.trans htarget))
    exact hready hready'
  others := by
    intro hfull name hmem hsignalled hlater
    have hname := mem_existing.mpr hmem
    by_cases hconf : s.Configured cfgs name
    · obtain ⟨cfg, hcfg, ⟨_, controller⟩, htarget, rfl⟩ := hconf
      obtain ⟨cfgs₁, s₁, hround, hplace, htouches⟩ := ht.round_of_mem hd hc h hcfg htarget
      apply (hround.kept_iff hmem).mpr
      rw [htouches]
      rintro (⟨-, hout⟩ | ⟨hwaiting, hready⟩)
      · exact (List.mem_append.mp hout).elim hsignalled hlater
      · exact hwaiting (hplace.others hfull hname hsignalled hready)
    · exact (frame_of_not_configured h hconf).symm
  consumed := by
    intro path hpath
    obtain ⟨hpath, hnot⟩ := (ht.left_all hd hc h path).mp hpath
    obtain ⟨name, hname, rfl, hout⟩ := ht.mem_keys_iff.mp hpath
    refine (List.mem_append.mp hout).resolve_left fun hsignalled => hnot ?_
    exact ⟨name, hname, rfl, hc.configured name hname hsignalled⟩
  created := by
    intro hfull cfg hcfg name controller htarget hready
    obtain ⟨cfgs₁, s₁, hround, hplace, htouches⟩ := ht.round_of_mem hd hc h hcfg htarget
    rw [hround.mem_after_iff]
    split_ifs with htouched
    · exact hready
    · by_contra hmem
      have hname : name ∉ s.existing := fun hname => hmem (mem_existing.mp hname)
      exact htouched (htouches.mpr (.inr ⟨hplace.created hfull hname hready, hready⟩))

/-- The loop leaves a sensor alone that has been signalled since the request. -/
theorem Tracks.lookup_of_later {name : String} (hlater : pathOf name ∈ later) :
    s'.sensors.lookup name = s.sensors.lookup name := by
  by_cases hconf : s.Configured cfgs name
  · obtain ⟨cfg, hcfg, ⟨_, controller⟩, htarget, rfl⟩ := hconf
    obtain ⟨cfgs₁, s₁, hround, hplace, htouches⟩ := ht.round_of_mem hd hc h hcfg htarget
    have hquiet := not_or.mp fun hor => hplace.quiet hor hlater
    rw [hround.after, if_neg]
    rw [htouches]
    rintro (⟨hname, -⟩ | ⟨-, hready⟩)
    · exact hquiet.1 hname
    · exact hquiet.2 hready
  · exact (frame_of_not_configured h hconf).1

theorem Tracks.mem_existing_of_later {name : String} (hlater : pathOf name ∈ later) :
    name ∈ s'.existing ↔ name ∈ s.existing := by
  rw [mem_existing, mem_existing, mem_sensorNames_iff, mem_sensorNames_iff,
    ht.lookup_of_later hd hc h hlater]

/-- What the loop leaves on the list are the paths that have been signalled since the request. -/
theorem Tracks.after : s'.Tracks escapeName pathOf later where
  objects := by
    intro name sensor hsensor
    by_cases hconf : s.Configured cfgs name
    · obtain ⟨cfg, hcfg, ⟨_, controller⟩, htarget, rfl⟩ := hconf
      obtain ⟨cfgs₁, s₁, hround, -, -⟩ := ht.round_of_mem hd hc h hcfg htarget
      rw [hround.after] at hsensor
      split_ifs at hsensor with htouched hready
      · obtain ⟨dbusPropName, -, rfl⟩ := Option.map_eq_some_iff.mp (Option.some.inj hsensor)
        rfl
      · cases hsensor
      · exact ht.objects _ sensor hsensor
    · rw [(frame_of_not_configured h hconf).1] at hsensor
      exact ht.objects name sensor hsensor
  signalled := by
    intro path hpath
    have hlater := (ht.served hd hc h).consumed path hpath
    obtain ⟨hpath, -⟩ := (ht.left_all hd hc h path).mp hpath
    obtain ⟨name, hname, rfl, -⟩ := ht.mem_keys_iff.mp hpath
    exact ⟨hlater, name, (ht.mem_existing_of_later hd hc h hlater).mpr hname, rfl⟩
  recorded := by
    intro name hname hlater
    rw [ht.mem_existing_of_later hd hc h hlater] at hname
    obtain ⟨hkeys, hsuffix⟩ := ht.recorded name hname (List.mem_append_right _ hlater)
    refine ⟨(ht.left_all hd hc h _).mpr ⟨hkeys, ?_⟩, hsuffix⟩
    rintro ⟨_, hname', hpath, cfg, hcfg, ⟨_, controller⟩, htarget, rfl⟩
    obtain ⟨cfgs₁, s₁, -, hplace, -⟩ := ht.round_of_mem hd hc h hcfg htarget
    exact hplace.quiet (.inl hname') (hpath ▸ hlater)

end Loop

end Reply

end Daemon

end MetaCommon.DbusAdc
