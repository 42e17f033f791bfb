import MetaCommon.DbusAdc.ChangeReplies

/-!
# Tracking the changes of the sensors

A signal puts the path of a configuration on the list of changes, if the path ends with the name of
a sensor, and some time later the configurations of all sensors are asked for. The requests are
answered in their order, and each reply serves the request that it answers.
-/

namespace MetaCommon.DbusAdc

open Runs

namespace Daemon

variable (escapeName pathOf : String → String)

/-! ### A signal -/

variable {pathOf} in
theorem Tracks.congr {outstanding : List String} {s s' : Daemon}
    (ht : s.Tracks escapeName pathOf outstanding) (hsensors : s'.sensors = s.sensors)
    (hchanged : s'.sensorsChanged = s.sensorsChanged) :
    s'.Tracks escapeName pathOf outstanding := by
  have hexisting : s'.existing = s.existing := by
    unfold existing
    rw [hsensors]
  refine ⟨?_, ?_, ?_⟩
  · rw [hsensors]
    exact ht.objects
  · rw [hchanged, hexisting]
    exact ht.signalled
  · rw [hchanged, hexisting]
    exact ht.recorded

/-- Without sensors and changes there is nothing to keep track of. -/
theorem tracks_of_empty {outstanding : List String} {s : Daemon} (hsensors : s.sensors = .empty)
    (hchanged : s.sensorsChanged = .empty) : s.Tracks escapeName pathOf outstanding := by
  have hexisting : s.existing = [] := by
    unfold existing
    rw [hsensors]
    rfl
  refine ⟨?_, ?_, ?_⟩
  · intro name sensor h
    rw [hsensors] at h
    cases h
  · intro path h
    rw [hchanged] at h
    cases h
  · intro name h
    rw [hexisting] at h
    cases h

/-- The condition on a signal: every null entry comes after that of a sensor whose name the path ends
with; a sensor that has the path has a name that it ends with, and if it ends with the name of any
sensor, it is the path of one. -/
structure SignalCondition (s : Daemon) (path : String) : Prop where
  finds : FindsFirst (fun sensor => sensor.name.toList <:+ path.toList) s.sensors.entries
  own : ∀ name ∈ s.existing, pathOf name = path → (escapeName name).toList <:+ path.toList
  known : ∀ name ∈ s.existing, (escapeName name).toList <:+ path.toList →
    ∃ name' ∈ s.existing, pathOf name' = path

instance (s : Daemon) : DecidablePred (s.SignalCondition escapeName pathOf) := fun path =>
  decidable_of_iff (FindsFirst (fun sensor => sensor.name.toList <:+ path.toList)
      s.sensors.entries ∧
    (∀ name ∈ s.existing, pathOf name = path → (escapeName name).toList <:+ path.toList) ∧
    ∀ name ∈ s.existing, (escapeName name).toList <:+ path.toList →
      ∃ name' ∈ s.existing, pathOf name' = path)
    ⟨fun h => ⟨h.1, h.2.1, h.2.2⟩, fun h => ⟨h.finds, h.own, h.known⟩⟩

section Signal

variable {escapeName pathOf} {s s' : Daemon} {path : String} {outstanding : List String}

theorem SignalCondition.isSome (h : s.SignalCondition escapeName pathOf path) :
    (s.sensorEventHandler path).isSome := by
  have heq : (fun sensor : DBusADCSensor => endsWith path sensor.name = true) =
      fun sensor => sensor.name.toList <:+ path.toList := funext fun _ => propext endsWith_iff
  unfold sensorEventHandler
  rw [Option.isSome_map, findIf_isSome_iff_findsFirst, heq]
  exact h.finds

/-- The path goes on the list if it ends with the name of a sensor that exists. -/
theorem Tracks.mem_keys_sensorEventHandler (ht : s.Tracks escapeName pathOf outstanding)
    (h : s.sensorEventHandler path = some s') (path' : String) :
    path' ∈ s'.sensorsChanged.keys ↔ path' ∈ s.sensorsChanged.keys ∨
      path' = path ∧ ∃ name ∈ s.existing, (escapeName name).toList <:+ path.toList := by
  obtain ⟨found, hfound, rfl⟩ := Option.map_eq_some_iff.mp h
  have hsome : found.isSome ↔ ∃ name ∈ s.existing, (escapeName name).toList <:+ path.toList := by
    rw [findIf_isSome_found hfound]
    constructor
    · rintro ⟨⟨name, o⟩, he, sensor, rfl, hends⟩
      have hsensor := FlatMap.lookup_eq_some.mpr he
      refine ⟨name, mem_existing.mpr ⟨sensor, he⟩, ?_⟩
      rw [← ht.objects name sensor hsensor]
      exact endsWith_iff.mp hends
    · rintro ⟨name, hname, hends⟩
      obtain ⟨sensor, he⟩ := mem_existing.mp hname
      refine ⟨_, he, sensor, rfl, endsWith_iff.mpr ?_⟩
      rw [ht.objects name sensor (FlatMap.lookup_eq_some.mpr he)]
      exact hends
  dsimp only
  rw [← hsome]
  split_ifs with hf
  · rw [FlatMap.mem_keys_assign]
    simp only [hf, and_true, or_comm]
  · simp [hf]

theorem Tracks.sensorEventHandler (ht : s.Tracks escapeName pathOf outstanding)
    (hc : s.SignalCondition escapeName pathOf path) (h : s.sensorEventHandler path = some s') :
    s'.Tracks escapeName pathOf (outstanding ++ [path]) := by
  have hkeys := ht.mem_keys_sensorEventHandler h
  have hsensors : s'.sensors = s.sensors := by
    obtain ⟨found, -, rfl⟩ := Option.map_eq_some_iff.mp h
    rfl
  have hexisting : s'.existing = s.existing := by
    unfold existing
    rw [hsensors]
  refine ⟨?_, ?_, ?_⟩
  · rw [hsensors]
    exact ht.objects
  · intro path' hpath'
    rw [hexisting]
    rcases (hkeys path').mp hpath' with hold | ⟨rfl, name, hname, hends⟩
    · obtain ⟨hout, hname⟩ := ht.signalled path' hold
      exact ⟨List.mem_append_left _ hout, hname⟩
    · exact ⟨List.mem_concat_self, hc.known name hname hends⟩
  · rw [hexisting]
    intro name hname hout
    rw [hkeys]
    rcases List.mem_append.mp hout with hout | hout
    · obtain ⟨hold, hends⟩ := ht.recorded name hname hout
      exact ⟨.inl hold, hends⟩
    · obtain rfl : pathOf name = path := List.mem_singleton.mp hout
      have hends := hc.own name hname rfl
      exact ⟨.inr ⟨rfl, name, hname, hends⟩, hends⟩

end Signal

end Daemon

/-! ### Runs -/

/-- The daemon, the requests that have not been answered, the oldest first, and the paths signalled
since the sensor timer expired last. -/
structure Watch where
  daemon : Daemon
  requests : List Request
  signalled : List String

namespace Watch

variable (escapeName pathOf : String → String)

def init (cpuPresence : ℕ → Option Bool) : Watch := ⟨.init cpuPresence, [], []⟩

/-- What is asked for after an event has led to the state `s`. A reply answers the oldest request,
and what is not asked for by the sensor timer is asked for all sensors. -/
def next (w : Watch) (s : Daemon) : Event → Watch
  | .sensorEvent false path => ⟨s, w.requests, w.signalled ++ [path]⟩
  | .sensorTimer true => ⟨s, w.requests ++ [⟨w.signalled, false⟩], []⟩
  | .sensorsReply _ => ⟨s, w.requests.tail, w.signalled⟩
  | _ =>
    ⟨s, if w.daemon.sensorReplies < s.sensorReplies then w.requests ++ [⟨[], true⟩]
      else w.requests, w.signalled⟩

def step (w : Watch) (e : Event) : Option Watch :=
  (w.daemon.step escapeName e).map fun s => w.next s e

/-- The paths signalled that the oldest request was not made for. -/
def later (w : Watch) : List String := w.requests.tail.flatMap Request.signalled ++ w.signalled

/-- The state in which the loop over a reply starts. -/
def answered (w : Watch) : Daemon :=
  { w.daemon with sensorReplies := w.daemon.sensorReplies - 1 }

theorem next_daemon (w : Watch) (s : Daemon) (e : Event) : (w.next s e).daemon = s := by
  unfold next
  split <;> rfl

/-- A signal and a reply are handled without going through a null pointer, and the reply serves the
request that it answers. -/
def Sound (w : Watch) (e : Event) : Prop :=
  w.daemon.Possible e → match e with
    | .sensorEvent false path => (w.daemon.sensorEventHandler path).isSome
    | .sensorsReply cfgs => DistinctPaths pathOf cfgs →
      ∃ request ∈ w.requests.head?, ∃ s' names,
        exec (Daemon.traceSensor escapeName) (w.answered, []) cfgs = some (s', names) ∧
          Daemon.Served escapeName pathOf request w.later w.answered cfgs s' names
    | _ => True

/-- The condition on an event. -/
def Condition (w : Watch) (e : Event) : Prop :=
  w.daemon.Possible e → match e with
    | .sensorEvent false path => w.daemon.SignalCondition escapeName pathOf path
    | .sensorsReply cfgs => DistinctPaths pathOf cfgs ∧ ∀ request ∈ w.requests.head?,
      w.answered.ReplyCondition escapeName pathOf request w.later cfgs
    | _ => True

instance : DecidableRel (Condition escapeName pathOf) := fun w e =>
  match e with
  | .sensorEvent false path => inferInstanceAs (Decidable (w.daemon.Possible _ →
      w.daemon.SignalCondition escapeName pathOf path))
  | .sensorsReply cfgs => inferInstanceAs (Decidable (w.daemon.Possible _ →
      DistinctPaths pathOf cfgs ∧ ∀ request ∈ w.requests.head?,
        w.answered.ReplyCondition escapeName pathOf request w.later cfgs))
  | .sensorEvent true _ => isTrue fun _ => trivial
  | .posted => isTrue fun _ => trivial
  | .controllersReply _ => isTrue fun _ => trivial
  | .controllerEvent _ _ => isTrue fun _ => trivial
  | .cpuPresence _ _ => isTrue fun _ => trivial
  | .sensorTimer _ => isTrue fun _ => trivial
  | .controllerTimer _ => isTrue fun _ => trivial
  | .cpuTimer _ => isTrue fun _ => trivial
  | .signal => isTrue fun _ => trivial

/-! ### The requests and the pending replies -/

theorem run_processController_sensors (r : Daemon × Bool) (cfgs : List ControllerConfig) :
    (run Daemon.processController r cfgs).1.sensors = r.1.sensors ∧
      (run Daemon.processController r cfgs).1.sensorsChanged = r.1.sensorsChanged ∧
      (run Daemon.processController r cfgs).1.sensorReplies = r.1.sensorReplies :=
  run_invariant (I := fun r' : Daemon × Bool => r'.1.sensors = r.1.sensors ∧
      r'.1.sensorsChanged = r.1.sensorsChanged ∧ r'.1.sensorReplies = r.1.sensorReplies)
    (fun r cfg hr => by
      obtain ⟨_, _, he⟩ := Daemon.processController_frame r cfg
      rw [he]
      exact hr) ⟨rfl, rfl, rfl⟩ cfgs

theorem controllersReply_sensorReplies (s : Daemon) (cfgs : List ControllerConfig) :
    (s.controllersReply cfgs).sensorReplies = s.sensorReplies ∨
      (s.controllersReply cfgs).sensorReplies = s.sensorReplies + 1 := by
  obtain ⟨-, -, hrun⟩ := run_processController_sensors (s, false) cfgs
  unfold Daemon.controllersReply
  dsimp only
  split_ifs
  · exact .inr (congrArg (· + 1) hrun)
  · exact .inl hrun

theorem controllersReply_sensors (s : Daemon) (cfgs : List ControllerConfig) :
    (s.controllersReply cfgs).sensors = s.sensors ∧
        (s.controllersReply cfgs).sensorsChanged = s.sensorsChanged ∨
      (s.controllersReply cfgs).sensors = .empty ∧
        (s.controllersReply cfgs).sensorsChanged = .empty := by
  obtain ⟨hsensors, hchanged, -⟩ := run_processController_sensors (s, false) cfgs
  unfold Daemon.controllersReply
  dsimp only
  split_ifs
  · exact .inr ⟨rfl, rfl⟩
  · exact .inl ⟨hsensors, hchanged⟩

/-- An event that is neither a signal nor a reply for the sensors makes at most one request, and
leaves the sensors and their changes alone or clears both. -/
theorem handle_frame {s s' : Daemon} {e : Event} (h : s.handle escapeName e = some s')
    (hsignal : ∀ path, e ≠ .sensorEvent false path) (hreply : ∀ cfgs, e ≠ .sensorsReply cfgs) :
    (s'.sensorReplies = s.sensorReplies ∨ s'.sensorReplies = s.sensorReplies + 1) ∧
      (s'.sensors = s.sensors ∧ s'.sensorsChanged = s.sensorsChanged ∨
        s'.sensors = .empty ∧ s'.sensorsChanged = .empty) := by
  cases e with
  | posted =>
    obtain rfl := Option.some.inj h
    exact ⟨.inr rfl, .inl ⟨rfl, rfl⟩⟩
  | controllersReply cfgs =>
    obtain rfl := Option.some.inj h
    exact ⟨controllersReply_sensorReplies _ cfgs, controllersReply_sensors _ cfgs⟩
  | sensorsReply cfgs => exact absurd rfl (hreply cfgs)
  | sensorEvent isMethodError path =>
    cases isMethodError with
    | true =>
      obtain rfl := Option.some.inj h
      exact ⟨.inl rfl, .inl ⟨rfl, rfl⟩⟩
    | false => exact absurd rfl (hsignal path)
  | controllerEvent isMethodError path =>
    cases isMethodError with
    | true =>
      obtain rfl := Option.some.inj h
      exact ⟨.inl rfl, .inl ⟨rfl, rfl⟩⟩
    | false =>
      obtain ⟨found, -, rfl⟩ := Option.map_eq_some_iff.mp h
      exact ⟨.inl rfl, .inl ⟨rfl, rfl⟩⟩
  | cpuPresence index present =>
    obtain rfl := Option.some.inj h
    unfold Daemon.cpuPresenceHandler
    split
    · exact ⟨.inl rfl, .inl ⟨rfl, rfl⟩⟩
    · exact ⟨.inl rfl, .inl ⟨rfl, rfl⟩⟩
  | sensorTimer expired =>
    obtain rfl := Option.some.inj h
    cases expired with
    | true => exact ⟨.inr rfl, .inl ⟨rfl, rfl⟩⟩
    | false => exact ⟨.inl rfl, .inl ⟨rfl, rfl⟩⟩
  | controllerTimer expired =>
    obtain rfl := Option.some.inj h
    cases expired with
    | true => exact ⟨.inl rfl, .inl ⟨rfl, rfl⟩⟩
    | false => exact ⟨.inl rfl, .inl ⟨rfl, rfl⟩⟩
  | cpuTimer expired =>
    obtain rfl := Option.some.inj h
    cases expired with
    | true => exact ⟨.inr rfl, .inl ⟨rfl, rfl⟩⟩
    | false => exact ⟨.inl rfl, .inl ⟨rfl, rfl⟩⟩
  | signal =>
    unfold Daemon.handle Daemon.signalHandler at h
    split_ifs at h
    obtain rfl := Option.some.inj h
    exact ⟨.inl rfl, .inl ⟨rfl, rfl⟩⟩

/-- There is a request for each reply that is pending. -/
def Tallies (w : Watch) : Prop := w.requests.length = w.daemon.sensorReplies

/-- What an event that is not of the sensors' own adds. -/
theorem length_requests {requests : List Request} {a b : ℕ} (h : requests.length = a)
    (hb : b = a ∨ b = a + 1) :
    (if a < b then requests ++ [⟨[], true⟩] else requests).length = b := by
  split_ifs with hlt
  · rw [List.length_append, List.length_singleton]
    omega
  · omega

theorem step_tallies {w w' : Watch} {e : Event} (hw : w.Tallies)
    (he : w.step escapeName e = some w') : w'.Tallies := by
  obtain ⟨s, hs, rfl⟩ := Option.map_eq_some_iff.mp he
  unfold Daemon.step at hs
  split_ifs at hs
  unfold Tallies at hw ⊢
  unfold next
  split
  · obtain ⟨found, -, rfl⟩ := Option.map_eq_some_iff.mp hs
    exact hw
  · obtain rfl := Option.some.inj hs
    exact List.length_append.trans (congrArg (· + 1) hw)
  · obtain ⟨_, _, rfl⟩ := Daemon.exec_processSensor_frame hs
    exact List.length_tail.trans (congrArg (· - 1) hw)
  · next hsignal _ hreply =>
    obtain ⟨hreplies, -⟩ := handle_frame escapeName hs hsignal hreply
    exact length_requests hw hreplies

/-! ### The invariant -/

/-- The paths that have been signalled and not been asked for in a reply. -/
def outstanding (w : Watch) : List String :=
  w.requests.flatMap Request.signalled ++ w.signalled

/-- The request that a reply answers. -/
theorem Tallies.exists_request {w : Watch} (hw : w.Tallies) (hreplies : 0 < w.daemon.sensorReplies) :
    ∃ request ∈ w.requests.head?, w.outstanding = request.signalled ++ w.later := by
  rw [← hw] at hreplies
  obtain ⟨request, requests, hrequests⟩ := List.exists_cons_of_length_pos hreplies
  refine ⟨request, by rw [hrequests]; rfl, ?_⟩
  unfold outstanding later
  rw [hrequests, List.flatMap_cons, List.append_assoc]
  rfl

/-- There is a request for each pending reply, and the list of changes is that of the paths
outstanding. -/
structure Inv (w : Watch) : Prop where
  tallies : w.Tallies
  tracks : w.daemon.Tracks escapeName pathOf w.outstanding

theorem Inv.answered {w : Watch} (hw : w.Inv escapeName pathOf)
    (hreplies : 0 < w.daemon.sensorReplies) : ∃ request ∈ w.requests.head?,
      w.answered.Tracks escapeName pathOf (request.signalled ++ w.later) := by
  obtain ⟨request, hrequest, hout⟩ := hw.tallies.exists_request hreplies
  exact ⟨request, hrequest, hout ▸ hw.tracks.congr escapeName rfl rfl⟩

/-- A request without signals asks for nothing that is outstanding. -/
theorem outstanding_next {w : Watch} {s : Daemon} {e : Event}
    (hsignal : ∀ path, e ≠ .sensorEvent false path) (hreply : ∀ cfgs, e ≠ .sensorsReply cfgs) :
    (w.next s e).outstanding = w.outstanding := by
  unfold next outstanding
  split
  · next path => exact absurd rfl (hsignal path)
  · simp
  · next cfgs => exact absurd rfl (hreply cfgs)
  · dsimp only
    split_ifs with hlt
    · simp
    · rfl

theorem step_tracks {w w' : Watch} {e : Event} (hw : w.Inv escapeName pathOf)
    (hc : w.Condition escapeName pathOf e) (he : w.step escapeName e = some w') :
    w'.daemon.Tracks escapeName pathOf w'.outstanding := by
  obtain ⟨s, hs, rfl⟩ := Option.map_eq_some_iff.mp he
  unfold Daemon.step at hs
  split_ifs at hs with hpossible
  have hcond := hc hpossible
  by_cases hsignal : ∃ path, e = .sensorEvent false path
  · obtain ⟨path, rfl⟩ := hsignal
    have htracks := hw.tracks.sensorEventHandler hcond hs
    unfold outstanding at htracks ⊢
    rwa [List.append_assoc] at htracks
  by_cases hreply : ∃ cfgs, e = .sensorsReply cfgs
  · obtain ⟨cfgs, rfl⟩ := hreply
    obtain ⟨request, hrequest, htracks⟩ := hw.answered escapeName pathOf hpossible.2
    obtain ⟨s', names, htrace⟩ := (hcond.2 request hrequest).exec_some
    have hexec := (Daemon.exec_traceSensor_fst escapeName (w.answered, []) cfgs).symm
    rw [htrace] at hexec
    obtain rfl := Option.some.inj (hs.symm.trans hexec)
    exact htracks.after hcond.1 (hcond.2 request hrequest) htrace
  · have hsignal' := not_exists.mp hsignal
    have hreply' := not_exists.mp hreply
    rw [outstanding_next hsignal' hreply', next_daemon]
    obtain ⟨-, ⟨hsensors, hchanged⟩ | ⟨hs', hc'⟩⟩ := handle_frame escapeName hs hsignal' hreply'
    · exact hw.tracks.congr escapeName hsensors hchanged
    · exact Daemon.tracks_of_empty escapeName pathOf hs' hc'

theorem step_inv {w w' : Watch} {e : Event} (hw : w.Inv escapeName pathOf)
    (hc : w.Condition escapeName pathOf e) (he : w.step escapeName e = some w') :
    w'.Inv escapeName pathOf :=
  ⟨step_tallies escapeName hw.tallies he, step_tracks escapeName pathOf hw hc he⟩

theorem inv_init (cpuPresence : ℕ → Option Bool) : (init cpuPresence).Inv escapeName pathOf :=
  ⟨rfl, Daemon.tracks_of_empty escapeName pathOf rfl rfl⟩

theorem Inv.sound {w : Watch} {e : Event} (hw : w.Inv escapeName pathOf)
    (hc : w.Condition escapeName pathOf e) : w.Sound escapeName pathOf e := by
  intro hpossible
  have hcond := hc hpossible
  split
  · exact hcond.isSome
  · next cfgs =>
    intro hd
    obtain ⟨request, hrequest, htracks⟩ := hw.answered escapeName pathOf hpossible.2
    obtain ⟨s', names, htrace⟩ := (hcond.2 request hrequest).exec_some
    exact ⟨request, hrequest, s', names, htrace,
      htracks.served hd (hcond.2 request hrequest) htrace⟩
  · trivial

/-- In every run whose events meet the condition, each signal is taken and each reply serves the
request that it answers. -/
theorem run_serves (cpuPresence : ℕ → Option Bool) (es : List Event)
    (h : ExecGuarded (step escapeName) (Condition escapeName pathOf) (init cpuPresence) es) :
    ExecGuarded (step escapeName) (Sound escapeName pathOf) (init cpuPresence) es :=
  h.mono (fun _ _ _ hw hc he => step_inv escapeName pathOf hw hc he)
    (fun _ _ hw hc => hw.sound escapeName pathOf hc) (inv_init escapeName pathOf cpuPresence)

/-- The path of a configuration under the inventory. -/
def inventoryPath (name : String) : String := "/inventory/" ++ Daemon.escapeSpaces name

def voltageConfigs : List SensorConfig :=
  [⟨true, some "P3V3", some "ADC", none, some "Channel0"⟩,
    ⟨true, some "P5V", some "ADC", none, some "Channel1"⟩]

/-- The name of one sensor is a suffix of that of another, and there is one that requires a CPU. -/
def suffixConfigs : List SensorConfig :=
  ⟨true, some "AUX P5V", some "ADC", none, some "Channel2"⟩ :: voltageConfigs ++
    [⟨true, some "P1V8", some "ADC", some 1, some "Channel3"⟩]

/-- Both sensors with the suffix are signalled, and the one with the longer name comes first. Then
the CPU turns out to be present. -/
theorem run_serves_suffix : ExecGuarded (step Daemon.escapeSpaces)
    (Sound Daemon.escapeSpaces inventoryPath) (init fun _ => none)
    [.posted, .controllersReply [Daemon.adcConfig true], .sensorsReply suffixConfigs,
      .sensorEvent false "/inventory/P5V", .sensorEvent false "/inventory/AUX_P5V",
      .sensorTimer true, .sensorsReply suffixConfigs, .cpuPresence (some 1) (some true),
      .cpuTimer true, .sensorsReply suffixConfigs] :=
  run_serves Daemon.escapeSpaces inventoryPath (fun _ => none) _ (by decide +kernel)

/-- Of two sensors the first is signalled. Its round takes the only change off the list, and the
other is made again too. -/
theorem not_run_serves : ¬ ExecGuarded (step Daemon.escapeSpaces)
    (Sound Daemon.escapeSpaces inventoryPath) (init fun _ => none)
    [.posted, .controllersReply [Daemon.adcConfig true], .sensorsReply voltageConfigs,
      .sensorEvent false "/inventory/P3V3", .sensorTimer true, .sensorsReply voltageConfigs] := by
  rintro ⟨-, -, -, -, -, hsound, -⟩
  obtain ⟨request, hrequest, s', names, h, hserved⟩ := hsound (by decide +kernel) (by
    unfold DistinctPaths
    decide +kernel)
  obtain rfl := Option.some.inj hrequest
  have hnames : names = ["P3V3", "P5V"] :=
    (Option.some.inj (congrArg (Option.map Prod.snd) h)).symm
  have hothers := hserved.others rfl "P5V"
    (Daemon.mem_sensorNames_iff.mpr
      ⟨⟨"P5V", "scm", "/scm/adc", "xyz.ADC", "Channel1", "2.5", "10"⟩, by decide +kernel⟩)
    (by decide +kernel) (by decide +kernel)
  rw [hnames] at hothers
  exact hothers.1 (by decide +kernel)

end Watch

end MetaCommon.DbusAdc
