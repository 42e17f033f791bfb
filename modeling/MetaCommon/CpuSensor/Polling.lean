import Mathlib.Data.String.Basic
import MetaCommon.Lib.FlatMap
import MetaCommon.Lib.Runs

/-!
# The polling coroutine of the CPU sensors

`pollCPUSensors` goes through the map of the sensors again and again. It is suspended while a
sensor's input is awaited inside `setupRead` and in the wait between two sensors. Meanwhile other
handlers may change the map, and so may the response itself, which looks the Tcontrol sensor up with
`operator[]`. `react` gives what the loop goes through from one suspension to the next.
-/

namespace MetaCommon.CpuSensor

open Runs

/-- A sensor made for a required one has no path. The number tells two sensors of one name apart. -/
structure CPUSensor where
  number : ℕ
  path : String
  nameTcontrol : String
deriving DecidableEq

abbrev CPUSensors := FlatMap String (Option CPUSensor)

/-- One run of the `for` over the map: the place it has come to and `sensorCnt`, the number of
entries at its begin. -/
structure Iteration where
  place : ℕ
  sensorCnt : ℕ
deriving DecidableEq

/-- Where the coroutine is. It is `ended` where its timer failed or it used what is no entry. -/
inductive Loop
  | spawned
  | emptyWait
  | reading (it : Iteration) (sensor : CPUSensor)
  | waiting (it : Iteration) (waitMs : ℕ)
  | ended
deriving DecidableEq

def Loop.iteration : Loop → Option Iteration
  | .reading it _ => some it
  | .waiting it _ => some it
  | _ => none

/-- `changed`, `moved` and `unflagged` tell what has happened to the map since the iteration began:
a change, one that makes places and references into it invalid, and one that did not set
`sensorMapUpdated`. -/
structure Poller where
  gCpuSensors : CPUSensors
  sensorMapUpdated : Bool
  failSensorCnt : ℕ
  loop : Loop
  created : ℕ
  changed : Bool
  moved : Bool
  unflagged : Bool

def Poller.init : Poller :=
  ⟨.empty, false, 0, .spawned, 0, false, false, false⟩

/-- How the part of `setupRead` before its wait goes for one sensor, and whether its value is finite
then. -/
structure Setup where
  readingStateGood : Bool
  opens : Bool
  finite : Bool

/-- Whether the input gave a number, and whether the sensor's value is finite then. -/
structure Response where
  read : Bool
  finite : Bool

inductive Event
  | spawn (next : Setup)
  | timer (ok : Bool) (next : Setup)
  | response (r : Response)
  | createSensor (name path nameTcontrol : String)
  | getCpuConfig (requiredSensorName : String)
  | removeSensor (name : String)

/-- What the loop does: the entries it goes through, `none` where there is none any more, and its
steps from one entry to the next, with whether the map has changed. -/
inductive Action
  | setupRead (entry : Option (Option CPUSensor))
  | readValue (entry : Option (Option CPUSensor))
  | next (changed : Bool)
deriving DecidableEq

def Action.Sound : Action → Prop
  | .setupRead entry => ∃ sensor, entry = some (some sensor)
  | .readValue entry => ∃ sensor, entry = some (some sensor)
  | .next changed => changed = false

namespace Poller

/-- What the loop's reference into the map leads to. -/
def entryAt (s : Poller) (it : Iteration) : Option (Option CPUSensor) :=
  if s.moved then none else s.gCpuSensors.entries[it.place]?.map Prod.snd

def contains (s : Poller) (name : String) : Bool := decide (name ∈ s.gCpuSensors.keys)

/-- A change of the entry of a name, which may be made or erased by it. -/
def change (s : Poller) (gCpuSensors : CPUSensors) (moves flags : Bool) : Poller :=
  { s with
    gCpuSensors := gCpuSensors
    sensorMapUpdated := s.sensorMapUpdated || flags
    changed := true
    moved := s.moved || moves
    unflagged := s.unflagged || !flags }

def sensorPollLoopMs : ℕ := 1000

def sensorFailThrottleMs : ℕ := 3000

def failSensorLimit : ℕ := 5

/-- What follows `setupRead` in the loop's body, up to the wait. -/
def afterRead (s : Poller) (it : Iteration) (finite : Bool) : Poller × List Action :=
  match s.entryAt it with
  | some (some sensor) =>
    let failSensorCnt := if finite then s.failSensorCnt else s.failSensorCnt + 1
    let throttled := failSensorLimit ≤ failSensorCnt
    ({ s with
        failSensorCnt := if throttled then 0 else failSensorCnt
        loop := .waiting it
          (if throttled then sensorFailThrottleMs else sensorPollLoopMs / it.sensorCnt) },
      [.readValue (some (some sensor))])
  | entry => ({ s with loop := .ended }, [.readValue entry])

/-- The call of `setupRead` through the entry that the loop has come to. -/
def callSetupRead (s : Poller) (it : Iteration) (next : Setup) : Poller × List Action :=
  match s.entryAt it with
  | some (some sensor) =>
    if next.readingStateGood ∧ sensor.path ≠ "" ∧ next.opens then
      ({ s with loop := .reading it sensor }, [.setupRead (some (some sensor))])
    else
      let (s', actions) := s.afterRead it next.finite
      (s', .setupRead (some (some sensor)) :: actions)
  | entry => ({ s with loop := .ended }, [.setupRead entry])

/-- The outer loop begins anew. -/
def iterate (s : Poller) (next : Setup) : Poller × List Action :=
  let s := { s with
    sensorMapUpdated := false
    changed := false
    moved := false
    unflagged := false }
  let sensorCnt := s.gCpuSensors.entries.length
  if sensorCnt = 0 then ({ s with loop := .emptyWait }, [])
  else s.callSetupRead ⟨0, sensorCnt⟩ next

/-- The end of the loop's body, after its wait. -/
def afterWait (s : Poller) (it : Iteration) (next : Setup) : Poller × List Action :=
  if s.sensorMapUpdated then s.iterate next
  else if it.place + 1 = it.sensorCnt then s.iterate next
  else
    let (s', actions) := s.callSetupRead { it with place := it.place + 1 } next
    (s', .next s.changed :: actions)

/-- `weakRef.lock()`. -/
def alive (s : Poller) (sensor : CPUSensor) : Bool :=
  s.gCpuSensors.entries.any fun e => e.2 = some sensor

/-- `gCpuSensors[nameTcontrol]`: a missing entry is made, and is null. -/
def lookupTcontrol (s : Poller) (nameTcontrol : String) : Poller :=
  if s.contains nameTcontrol then s
  else s.change (s.gCpuSensors.assign nameTcontrol none) true false

def handleResponse (s : Poller) (sensor : CPUSensor) (r : Response) : Poller :=
  if s.alive sensor ∧ r.read then s.lookupTcontrol sensor.nameTcontrol else s

/-- A sensor is made and put in the place of one of its name. -/
def createSensor (s : Poller) (name path nameTcontrol : String) : Poller :=
  let sensor : CPUSensor := ⟨s.created, path, nameTcontrol⟩
  { s.change (s.gCpuSensors.assign name (some sensor)) (!s.contains name) true with
    created := s.created + 1 }

/-- A sensor without a path is made for a required one, unless there is a sensor. -/
def getCpuConfig (s : Poller) (requiredSensorName : String) : Poller :=
  match s.gCpuSensors.lookup requiredSensorName with
  | some (some _) => s
  | _ =>
    let sensor : CPUSensor := ⟨s.created, "", ""⟩
    { s.change (s.gCpuSensors.assign requiredSensorName (some sensor))
        (!s.contains requiredSensorName) false with
      created := s.created + 1 }

def removeSensor (s : Poller) (name : String) : Poller :=
  if s.contains name then s.change (s.gCpuSensors.erase name) true false else s

def react (s : Poller) (e : Event) : Poller × List Action :=
  match s.loop, e with
  | .spawned, .spawn next => s.iterate next
  | .emptyWait, .timer ok next => if ok then s.iterate next else ({ s with loop := .ended }, [])
  | .waiting it _, .timer ok next =>
    if ok then s.afterWait it next else ({ s with loop := .ended }, [])
  | .reading it sensor, .response r => (s.handleResponse sensor r).afterRead it r.finite
  | _, .createSensor name path nameTcontrol => (s.createSensor name path nameTcontrol, [])
  | _, .getCpuConfig requiredSensorName => (s.getCpuConfig requiredSensorName, [])
  | _, .removeSensor name => (s.removeSensor name, [])
  | _, _ => (s, [])

def step (s : Poller) (e : Event) : Poller := (s.react e).1

/-- What the loop does on the event is sound. -/
def Sound (s : Poller) (e : Event) : Prop := ∀ a ∈ (s.react e).2, a.Sound

/-- When a response comes, no entry was made or erased since `setupRead` was called, and the
response finds the Tcontrol sensor that it looks up. When the loop goes on to a next entry, none was
made or erased by another handler than the one that creates sensors, since the iteration began. -/
def Undisturbed (s : Poller) (e : Event) : Prop :=
  match s.loop, e with
  | .reading _ sensor, .response r =>
    s.moved = false ∧ (s.alive sensor = true → r.read = true → s.contains sensor.nameTcontrol = true)
  | .waiting it _, .timer ok _ =>
    ok = true → s.sensorMapUpdated = false → it.place + 1 ≠ it.sensorCnt → s.unflagged = false
  | _, _ => True

/-- No entry is null, and a change of the map has set the flag or is remembered as one that has
not. -/
structure Noted (s : Poller) : Prop where
  nonnull : ∀ e ∈ s.gCpuSensors.entries, e.2 ≠ none
  noticed : s.changed = true → s.sensorMapUpdated = true ∨ s.unflagged = true
  moved : s.moved = true → s.changed = true
  unflagged : s.unflagged = true → s.changed = true

/-- As long as nothing has moved, the iteration is one over the map as it is. -/
def Stands (s : Poller) (it : Iteration) : Prop :=
  it.place < it.sensorCnt ∧ (s.moved = false → it.sensorCnt = s.gCpuSensors.entries.length)

structure Consistent (s : Poller) : Prop extends s.Noted where
  inside : ∀ it ∈ s.loop.iteration, s.Stands it

variable {s : Poller} {it : Iteration}

/-- What is known does not depend on where the loop is. -/
theorem Noted.consistent (hs : s.Noted) {loop : Loop} {failSensorCnt : ℕ}
    (hit : ∀ it ∈ loop.iteration, s.Stands it) :
    Consistent { s with loop := loop, failSensorCnt := failSensorCnt } :=
  ⟨⟨hs.nonnull, hs.noticed, hs.moved, hs.unflagged⟩, hit⟩

theorem Stands.exists_entryAt (hit : s.Stands it) (hs : s.Noted) (hmoved : s.moved = false) :
    ∃ sensor, s.entryAt it = some (some sensor) := by
  have hplace : it.place < s.gCpuSensors.entries.length := (hit.2 hmoved) ▸ hit.1
  have hentry := hs.nonnull _ (List.getElem_mem hplace)
  obtain ⟨sensor, hsensor⟩ := Option.ne_none_iff_exists'.mp hentry
  refine ⟨sensor, ?_⟩
  unfold entryAt
  rw [hmoved, List.getElem?_eq_getElem hplace]
  simp [hsensor]

theorem moved_of_afterRead_sound {finite : Bool}
    (h : ∀ a ∈ (s.afterRead it finite).2, a.Sound) : s.moved = false := by
  by_contra hmoved
  have hnone : s.entryAt it = none := if_pos (Bool.not_eq_false _ ▸ hmoved)
  unfold afterRead at h
  rw [hnone] at h
  obtain ⟨sensor, hsensor⟩ := h (.readValue none) (List.mem_singleton_self _)
  cases hsensor

/-- The value is read through an entry exactly if the map has not moved. -/
theorem afterRead_sound (hs : s.Noted) (hit : s.Stands it) (finite : Bool) :
    (∀ a ∈ (s.afterRead it finite).2, a.Sound) ↔ s.moved = false := by
  refine ⟨moved_of_afterRead_sound, fun hmoved => ?_⟩
  obtain ⟨sensor, hsensor⟩ := hit.exists_entryAt hs hmoved
  unfold afterRead
  rw [hsensor]
  intro a ha
  rw [List.mem_singleton.mp ha]
  exact ⟨sensor, rfl⟩

theorem afterRead_consistent (hs : s.Noted) (hit : s.Stands it) (finite : Bool) :
    Consistent (s.afterRead it finite).1 := by
  unfold afterRead
  split
  · exact hs.consistent fun _ h => Option.some.inj h ▸ hit
  · exact hs.consistent fun _ h => by cases h

theorem callSetupRead_consistent (hs : s.Noted) (hit : s.Stands it) (next : Setup) :
    Consistent (s.callSetupRead it next).1 := by
  unfold callSetupRead
  split
  · split_ifs
    · exact hs.consistent fun _ h => Option.some.inj h ▸ hit
    · exact afterRead_consistent hs hit next.finite
  · exact hs.consistent fun _ h => by cases h

theorem callSetupRead_sound (hs : s.Noted) (hit : s.Stands it) (hmoved : s.moved = false)
    (next : Setup) : ∀ a ∈ (s.callSetupRead it next).2, a.Sound := by
  obtain ⟨sensor, hsensor⟩ := hit.exists_entryAt hs hmoved
  unfold callSetupRead
  rw [hsensor]
  intro a ha
  dsimp only at ha
  split_ifs at ha
  · rw [List.mem_singleton.mp ha]
    exact ⟨sensor, rfl⟩
  · rcases List.mem_cons.mp ha with rfl | ha
    · exact ⟨sensor, rfl⟩
    · exact (afterRead_sound hs hit next.finite).mpr hmoved a ha

theorem iterate_spec (hnull : ∀ e ∈ s.gCpuSensors.entries, e.2 ≠ none) (next : Setup) :
    Consistent (s.iterate next).1 ∧ ∀ a ∈ (s.iterate next).2, a.Sound := by
  have hs : Noted
      { s with sensorMapUpdated := false, changed := false, moved := false, unflagged := false } :=
    ⟨hnull, fun h => absurd h Bool.false_ne_true, id, id⟩
  unfold iterate
  dsimp only
  split_ifs with hempty
  · exact ⟨hs.consistent fun _ h => (by cases h), fun _ ha => absurd ha List.not_mem_nil⟩
  · have hit : Stands
        { s with sensorMapUpdated := false, changed := false, moved := false, unflagged := false }
        ⟨0, s.gCpuSensors.entries.length⟩ := ⟨Nat.pos_of_ne_zero hempty, fun _ => rfl⟩
    exact ⟨callSetupRead_consistent hs hit next, callSetupRead_sound hs hit rfl next⟩

/-! ### Changes of the map by others -/

/-- The new map has no null entry, and as many entries as the old one unless something moves. -/
theorem change_consistent (hs : s.Consistent) {m : CPUSensors} {moves flags : Bool}
    (hnull : ∀ e ∈ m.entries, e.2 ≠ none)
    (hlen : moves = false → m.entries.length = s.gCpuSensors.entries.length) {created : ℕ} :
    Consistent { s.change m moves flags with created := created } where
  nonnull := hnull
  noticed _ := by cases flags <;> simp [change]
  moved _ := rfl
  unflagged _ := rfl
  inside it hit := by
    obtain ⟨hplace, hcnt⟩ := hs.inside it hit
    refine ⟨hplace, fun hmoved => ?_⟩
    obtain ⟨hm, hmoves⟩ := Bool.or_eq_false_iff.mp hmoved
    exact (hcnt hm).trans (hlen hmoves).symm

theorem assign_nonnull (hs : s.Noted) (name : String) (sensor : CPUSensor) :
    ∀ e ∈ (s.gCpuSensors.assign name (some sensor)).entries, e.2 ≠ none := by
  intro e he
  rcases (FlatMap.mem_assign e).mp he with rfl | ⟨he, -⟩
  · simp
  · exact hs.nonnull e he

theorem length_assign (name : String) (sensor : Option CPUSensor)
    (h : (!s.contains name) = false) :
    (s.gCpuSensors.assign name sensor).entries.length = s.gCpuSensors.entries.length := by
  have hmem : name ∈ s.gCpuSensors.keys := by simpa [contains] using h
  have hkeys := congrArg List.length (FlatMap.keys_assign_of_mem sensor hmem)
  simpa [FlatMap.keys] using hkeys

theorem createSensor_consistent (hs : s.Consistent) (name path nameTcontrol : String) :
    Consistent (s.createSensor name path nameTcontrol) :=
  change_consistent hs (assign_nonnull hs.toNoted name _) (length_assign name _)

theorem getCpuConfig_consistent (hs : s.Consistent) (requiredSensorName : String) :
    Consistent (s.getCpuConfig requiredSensorName) := by
  unfold getCpuConfig
  split
  · exact hs
  · exact change_consistent hs (assign_nonnull hs.toNoted requiredSensorName _)
      (length_assign requiredSensorName _)

theorem removeSensor_consistent (hs : s.Consistent) (name : String) :
    Consistent (s.removeSensor name) := by
  unfold removeSensor
  split_ifs
  · refine change_consistent hs (fun e he => ?_) (fun h => absurd h.symm Bool.false_ne_true)
    exact hs.nonnull e (List.mem_filter.mp he).1
  · exact hs

/-! ### The loop -/

theorem handleResponse_moved (sensor : CPUSensor) (r : Response) :
    (s.handleResponse sensor r).moved = false ↔
      s.moved = false ∧
        (s.alive sensor = true → r.read = true → s.contains sensor.nameTcontrol = true) := by
  unfold handleResponse lookupTcontrol
  split_ifs with hread hmem
  · simp [hmem]
  · simp [change, hread, hmem]
  · simp only [iff_self_and]
    exact fun _ halive hr => absurd ⟨halive, hr⟩ hread

theorem handleResponse_of_moved_eq_false {sensor : CPUSensor} {r : Response}
    (h : (s.handleResponse sensor r).moved = false) : s.handleResponse sensor r = s := by
  unfold handleResponse lookupTcontrol at h ⊢
  split_ifs with hread hmem
  · rfl
  · rw [if_pos hread, if_neg hmem] at h
    simp [change] at h
  · rfl

/-- What the loop does on the end of a wait is sound exactly if no other handler has changed the
map. -/
theorem afterWait_sound (hs : s.Noted) (hit : s.Stands it) (next : Setup) :
    (∀ a ∈ (s.afterWait it next).2, a.Sound) ↔
      (s.sensorMapUpdated = false → it.place + 1 ≠ it.sensorCnt → s.unflagged = false) := by
  unfold afterWait
  split_ifs with hflag hlast
  · simpa [hflag] using (iterate_spec hs.nonnull next).2
  · simpa [hlast] using (iterate_spec hs.nonnull next).2
  · simp only [Bool.not_eq_true] at hflag
    simp only [hflag, hlast, List.forall_mem_cons, ne_eq, not_false_eq_true, true_imp_iff]
    constructor
    · rintro ⟨hchanged, -⟩
      by_contra hun
      have := hs.unflagged (Bool.not_eq_false _ ▸ hun)
      exact absurd (hchanged.symm.trans this) Bool.false_ne_true
    · intro hun
      have hchanged : s.changed = false := by
        by_contra hc
        rcases hs.noticed (Bool.not_eq_false _ ▸ hc) with h | h
        · exact absurd (hflag.symm.trans h) Bool.false_ne_true
        · exact absurd (hun.symm.trans h) Bool.false_ne_true
      have hmoved : s.moved = false := by
        by_contra hm
        exact absurd (hchanged.symm.trans (hs.moved (Bool.not_eq_false _ ▸ hm))) Bool.false_ne_true
      have hnext : s.Stands { it with place := it.place + 1 } :=
        ⟨Nat.lt_of_le_of_ne hit.1 hlast, hit.2⟩
      exact ⟨hchanged, callSetupRead_sound hs hnext hmoved next⟩

theorem afterWait_consistent (hs : s.Noted) (hit : s.Stands it) (next : Setup) :
    Consistent (s.afterWait it next).1 := by
  unfold afterWait
  split_ifs with hflag hlast
  · exact (iterate_spec hs.nonnull next).1
  · exact (iterate_spec hs.nonnull next).1
  · have hnext : s.Stands { it with place := it.place + 1 } :=
      ⟨Nat.lt_of_le_of_ne hit.1 hlast, hit.2⟩
    exact callSetupRead_consistent hs hnext next

theorem ended_consistent (hs : s.Noted) : Consistent { s with loop := .ended } := by
  have hended : Consistent { s with loop := .ended, failSensorCnt := s.failSensorCnt } :=
    hs.consistent fun _ h => by cases h
  exact hended

theorem reading_response (hs : s.Consistent) {sensor : CPUSensor}
    (hloop : s.loop = .reading it sensor)
    (r : Response) :
    ((∀ a ∈ ((s.handleResponse sensor r).afterRead it r.finite).2, a.Sound) ↔
      s.moved = false ∧
        (s.alive sensor = true → r.read = true → s.contains sensor.nameTcontrol = true)) ∧
    ((s.handleResponse sensor r).moved = false →
      Consistent ((s.handleResponse sensor r).afterRead it r.finite).1) := by
  have hit : s.Stands it := hs.inside it (by rw [hloop]; rfl)
  rw [← handleResponse_moved]
  refine ⟨⟨moved_of_afterRead_sound, fun hmoved => ?_⟩, fun hmoved => ?_⟩
  · have hsame := handleResponse_of_moved_eq_false hmoved
    rw [hsame] at hmoved ⊢
    exact (afterRead_sound hs.toNoted hit r.finite).mpr hmoved
  · rw [handleResponse_of_moved_eq_false hmoved]
    exact afterRead_consistent hs.toNoted hit r.finite

/-- What the loop does on an event is sound exactly if the event finds it undisturbed, and then the
poller stays consistent. -/
theorem react_spec (hs : s.Consistent) (e : Event) :
    (s.Sound e ↔ s.Undisturbed e) ∧ (s.Undisturbed e → (s.step e).Consistent) := by
  unfold Sound Undisturbed step react
  cases e with
  | spawn next =>
    cases hloop : s.loop
    case spawned =>
      obtain ⟨hcons, hsound⟩ := iterate_spec hs.nonnull next
      exact ⟨iff_of_true hsound trivial, fun _ => hcons⟩
    all_goals exact ⟨by simp, fun _ => hs⟩
  | timer ok next =>
    cases hloop : s.loop
    case emptyWait =>
      obtain ⟨hcons, hsound⟩ := iterate_spec hs.nonnull next
      cases ok
      · exact ⟨by simp, fun _ => ended_consistent hs.toNoted⟩
      · exact ⟨iff_of_true hsound trivial, fun _ => hcons⟩
    case waiting it waitMs =>
      have hit : s.Stands it := hs.inside it (by rw [hloop]; rfl)
      cases ok
      · exact ⟨by simp, fun _ => ended_consistent hs.toNoted⟩
      · refine ⟨?_, fun _ => afterWait_consistent hs.toNoted hit next⟩
        simpa using afterWait_sound hs.toNoted hit next
    all_goals exact ⟨by simp, fun _ => hs⟩
  | response r =>
    cases hloop : s.loop
    case reading it sensor =>
      obtain ⟨hsound, hcons⟩ := reading_response hs hloop r
      exact ⟨hsound, fun h => hcons (handleResponse_moved sensor r |>.mpr h)⟩
    all_goals exact ⟨by simp, fun _ => hs⟩
  | createSensor name path nameTcontrol =>
    cases s.loop <;> exact ⟨by simp, fun _ => createSensor_consistent hs name path nameTcontrol⟩
  | getCpuConfig requiredSensorName =>
    cases s.loop <;> exact ⟨by simp, fun _ => getCpuConfig_consistent hs requiredSensorName⟩
  | removeSensor name =>
    cases s.loop <;> exact ⟨by simp, fun _ => removeSensor_consistent hs name⟩

theorem init_consistent : Consistent .init :=
  ⟨⟨fun _ h => absurd h List.not_mem_nil, by simp [init], by simp [init], by simp [init]⟩,
    fun _ h => by cases h⟩

/-- All that the loop does in a run is sound exactly if every event finds it undisturbed. -/
theorem run_polls_sound_iff (es : List Event) :
    Guarded step Sound .init es ↔ Guarded step Undisturbed .init es := by
  apply guarded_congr (I := Consistent)
  · intro s e hs he
    exact (react_spec hs e).2 he
  · intro s e hs
    exact (react_spec hs e).1
  · exact init_consistent

/-- A DTS sensor is created before any Tcontrol sensor; its first reading makes a null entry for
that one, before its own. -/
theorem not_run_polls_sound : ¬ ∀ es, Guarded step Sound .init es := by
  intro h
  have hg := h [.createSensor "DTS CPU1" "/sys/bus/peci/devices/0-30/temp2_input" "Tcontrol CPU1",
    .spawn ⟨true, true, false⟩, .response ⟨true, true⟩]
  obtain ⟨sensor, hsensor⟩ := hg.2.2.1 (.readValue none) (by decide)
  cases hsensor

end Poller

end MetaCommon.CpuSensor
