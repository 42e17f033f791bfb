import Mathlib.Data.Finset.Max
import MetaCommon.CpuSensor.ConfigSet

/-!
# Udev events and the CPU configurations

When an adapter goes, no configuration of its bus should remain and all others should. When one
comes, each configuration of bus 0 that it serves should have exactly one configuration for its bus.
The loops of `udevAction` change the set they run over, so this depends on where the elements stand.
-/

namespace MetaCommon.CpuSensor

open Runs FlatSet

/-- `c'` is the configuration of `c` for the bus, through the adapter that it names. -/
def CPUConfig.IsFor (c : CPUConfig) (bus : ℤ) (c' : CPUConfig) : Prop :=
  c'.bus = bus ∧ c'.addr = c.addr ∧ c'.name = c.nameFor c'.busName

instance (c : CPUConfig) (bus : ℤ) : DecidablePred (c.IsFor bus) := fun c' =>
  inferInstanceAs (Decidable (c'.bus = bus ∧ c'.addr = c.addr ∧ c'.name = c.nameFor c'.busName))

/-- A configuration of bus 0 whose CPU is reached through the adapter. -/
def AdapterEvent.Serves (p : Platform) (e : AdapterEvent) (c : CPUConfig) : Prop :=
  c.bus = 0 ∧ (e.adapterName = "i3c" →
    c.addr = p.peciI3cChardevToCpu (String.ofList e.pecidevName) + 0x30)

instance (p : Platform) (e : AdapterEvent) : DecidablePred (e.Serves p) := fun c =>
  inferInstanceAs (Decidable (c.bus = 0 ∧ (e.adapterName = "i3c" → c.addr = _ + 0x30)))

/-- What an event should do. -/
def AdapterEvent.Effect (p : Platform) (e : AdapterEvent) (s s' : CPUConfigs) : Prop :=
  match e.action with
  | .remove => (∀ c ∈ s'.entries, c.bus ≠ e.bus) ∧
      ∀ c ∈ s.entries, c.bus ≠ e.bus → c ∈ s'.entries
  | .add => ∀ c ∈ s'.entries, e.Serves p c → ∃! c', c' ∈ s'.entries ∧ c.IsFor e.bus c'

/-- The event is handled to its end and has done what it should. -/
def Follows (p : Platform) (s : CPUConfigs) (e : AdapterEvent) : Prop :=
  ∃ s', handle p s e = some s' ∧ e.Effect p s s'

/-- The loop comes to the configuration and inserts one for the adapter's bus. -/
def AdapterEvent.Inserts (p : Platform) (e : AdapterEvent) (s : CPUConfigs) (c : CPUConfig) : Prop :=
  c.nameFor e.adapterName ∉ s.keys ∧ c ∈ (grown (e.addedConfig p) s).entries.take s.entries.length

/-- Only the last configuration is of the bus that goes. When a bus comes, the configurations that
get one for it have none yet and the others have exactly one; the buffer has room for all that is
inserted before the last place; and bus 0 serves none. -/
def Orderly (p : Platform) (s : CPUConfigs) (e : AdapterEvent) : Prop :=
  match e.action with
  | .remove => ∀ c ∈ s.entries.dropLast, c.bus ≠ e.bus
  | .add => (e.bus = 0 → ∀ c ∈ s.entries, ¬ e.Serves p c) ∧
      s.entries.length + inserted (e.addedConfig p) s (s.entries.length - 1) ≤ s.capacity ∧
      ∀ c ∈ s.entries, e.Serves p c →
        (e.Inserts p s c → ∀ c' ∈ s.entries, ¬ c.IsFor e.bus c') ∧
        (¬ e.Inserts p s c → ∃! c', c' ∈ s.entries ∧ c.IsFor e.bus c')

/-! ### The configurations that the loop makes -/

namespace AdapterEvent

variable {p : Platform} {e : AdapterEvent} {s s' : CPUConfigs} {c c' d d' : CPUConfig}

/-- The configuration of `c` that the loop makes for the adapter's bus. -/
def made (e : AdapterEvent) (c : CPUConfig) : CPUConfig :=
  ⟨e.bus, c.addr, c.nameFor e.adapterName, e.adapterName, .off⟩

theorem addedConfig_eq_some : e.addedConfig p c = some c' ↔ e.Serves p c ∧ c' = e.made c := by
  unfold addedConfig CpuSensor.addedConfig Serves
  split_ifs with hbus hi3c
  · simp [hbus]
  · simp only [false_iff, not_and]
    exact fun hs => absurd (hs.2 hi3c.1) hi3c.2
  · have hs : e.adapterName = "i3c" →
        c.addr = p.peciI3cChardevToCpu (String.ofList e.pecidevName) + 0x30 := fun h =>
      not_not.mp fun hne => hi3c ⟨h, hne⟩
    have hserves : c.bus = 0 ∧ (e.adapterName = "i3c" →
        c.addr = p.peciI3cChardevToCpu (String.ofList e.pecidevName) + 0x30) :=
      ⟨not_not.mp hbus, hs⟩
    rw [Option.some_inj, eq_comm]
    exact ⟨fun h => ⟨hserves, h⟩, And.right⟩

theorem isFor_made (e : AdapterEvent) (c : CPUConfig) : c.IsFor e.bus (e.made c) := ⟨rfl, rfl, rfl⟩

theorem name_lt_nameFor (c : CPUConfig) (adapter : String) : c.name < c.nameFor adapter := by
  unfold CPUConfig.nameFor
  refine lt_of_le_of_ne (not_lt.mp fun hlt => ?_) fun heq => ?_
  · rw [String.lt_iff, String.toList_append, String.toList_append, List.append_assoc] at hlt
    exact List.le_append_left hlt
  · have hlen := congrArg String.length heq
    rw [String.length_append, String.length_append, show "_".length = 1 from rfl] at hlen
    omega

theorem name_eq_of_nameFor_eq {adapter : String} (h : c.nameFor adapter = d.nameFor adapter) :
    c.name = d.name :=
  (String.append_left_inj "_").mp ((String.append_left_inj adapter).mp h)

/-- On a bus other than 0 each configuration that is made is the last for its own. -/
theorem successor (p : Platform) (hbus : e.bus = 0 → ∀ c ∈ s.entries, ¬ e.Serves p c) :
    Successor (e.addedConfig p) s where
  key_lt := by
    intro c d hc hd
    obtain ⟨-, rfl⟩ := addedConfig_eq_some.mp hd
    exact name_lt_nameFor c _
  last := by
    intro c d hc hd
    obtain ⟨hserves, rfl⟩ := addedConfig_eq_some.mp hd
    rw [Option.eq_none_iff_forall_ne_some]
    intro d' hd'
    have hzero : (e.bus : ℤ) = 0 := (addedConfig_eq_some.mp hd').1.1
    exact hbus (by exact_mod_cast hzero) c hc hserves
  key_inj := by
    intro c d c' d' hc hd hc' hd' heq
    obtain ⟨-, rfl⟩ := addedConfig_eq_some.mp hc'
    obtain ⟨-, rfl⟩ := addedConfig_eq_some.mp hd'
    exact name_eq_of_nameFor_eq heq

theorem lacks_iff : Lacks (e.addedConfig p) s c ↔
    e.Serves p c ∧ c.nameFor e.adapterName ∉ s.keys := by
  constructor
  · rintro ⟨d, hd, hk⟩
    obtain ⟨hs, rfl⟩ := addedConfig_eq_some.mp hd
    exact ⟨hs, hk⟩
  · rintro ⟨hs, hk⟩
    exact ⟨e.made c, addedConfig_eq_some.mpr ⟨hs, rfl⟩, hk⟩

/-! ### One event -/

theorem handle_add (ha : e.action = .add) :
    handle p s e = forEach (emplaceNext p.grow (e.addedConfig p)) s := by
  unfold handle udevAction
  rw [readDevpath_devpath, ha]
  rfl

theorem handle_remove (ha : e.action = .remove) :
    handle p s e = forEach (eraseIf fun c : CPUConfig => c.bus = e.bus) s := by
  unfold handle udevAction
  rw [readDevpath_devpath, ha]
  rfl

/-- What is in the set when the adapter was added. -/
theorem mem_of_handle_add (ha : e.action = .add) (h : handle p s e = some s')
    (hbus : e.bus = 0 → ∀ c ∈ s.entries, ¬ e.Serves p c) (c' : CPUConfig) :
    c' ∈ s'.entries ↔ c' ∈ s.entries ∨
      ∃ c ∈ s.entries, e.Serves p c ∧ e.Inserts p s c ∧ c' = e.made c := by
  rw [handle_add ha] at h
  rw [mem_forEach_emplaceNext (successor p hbus) h]
  refine or_congr_right ⟨?_, ?_⟩
  · rintro ⟨c, hc, hc', hlacks⟩
    have hmem := hlacks.mem (successor p hbus) (List.mem_of_mem_take hc)
    obtain ⟨hs, hk⟩ := lacks_iff.mp hlacks
    exact ⟨c, hmem, hs, ⟨hk, hc⟩, (addedConfig_eq_some.mp hc').2⟩
  · rintro ⟨c, -, hs, ⟨hk, hc⟩, rfl⟩
    exact ⟨c, hc, addedConfig_eq_some.mpr ⟨hs, rfl⟩, lacks_iff.mpr ⟨hs, hk⟩⟩

theorem made_not_mem (hi : e.Inserts p s c) : e.made c ∉ s.entries := fun hmem =>
  hi.1 (mem_keys_of_mem hmem)

/-- The configuration for the bus is there once exactly if it was not there and is inserted, or was
there once and none is inserted. -/
theorem existsUnique_iff (ha : e.action = .add) (h : handle p s e = some s')
    (hbus : e.bus = 0 → ∀ c ∈ s.entries, ¬ e.Serves p c) (hc : c ∈ s.entries)
    (hs : e.Serves p c) :
    (∃! c', c' ∈ s'.entries ∧ c.IsFor e.bus c') ↔
      (e.Inserts p s c → ∀ c' ∈ s.entries, ¬ c.IsFor e.bus c') ∧
      (¬ e.Inserts p s c → ∃! c', c' ∈ s.entries ∧ c.IsFor e.bus c') := by
  have hmem := mem_of_handle_add ha h hbus
  have hfor : ∀ c', (c' ∈ s'.entries ∧ c.IsFor e.bus c') ↔
      (c' ∈ s.entries ∧ c.IsFor e.bus c') ∨ e.Inserts p s c ∧ c' = e.made c := by
    intro c'
    rw [hmem]
    constructor
    · rintro ⟨hc' | ⟨d, hd, -, hi, rfl⟩, hfor⟩
      · exact .inl ⟨hc', hfor⟩
      · obtain rfl : c = d := eq_of_key_eq hc hd (name_eq_of_nameFor_eq hfor.2.2.symm)
        exact .inr ⟨hi, rfl⟩
    · rintro (⟨hc', hfor⟩ | ⟨hi, rfl⟩)
      · exact ⟨.inl hc', hfor⟩
      · exact ⟨.inr ⟨c, hc, hs, hi, rfl⟩, isFor_made e c⟩
  by_cases hi : e.Inserts p s c
  · simp only [hi, true_imp_iff, not_true_eq_false, false_imp_iff, and_true]
    constructor
    · rintro ⟨d, -, huniq⟩ c' hc' hfor'
      have h₁ : c' = d := huniq c' ((hfor c').mpr (.inl ⟨hc', hfor'⟩))
      have h₂ : e.made c = d := huniq _ ((hfor _).mpr (.inr ⟨hi, rfl⟩))
      exact made_not_mem hi (h₂.trans h₁.symm ▸ hc')
    · intro hnone
      refine ⟨e.made c, (hfor _).mpr (.inr ⟨hi, rfl⟩), fun c' hc' => ?_⟩
      rcases (hfor c').mp hc' with ⟨hc', hfor'⟩ | ⟨-, rfl⟩
      · exact (hnone c' hc' hfor').elim
      · rfl
  · simp only [hi, false_imp_iff, not_false_eq_true, true_imp_iff, true_and]
    refine existsUnique_congr fun c' => ?_
    rw [hfor]
    simp [hi]

/-- An adapter of bus 0 itself would have to get configurations for those that it adds, and so
on. -/
theorem not_follows_of_serves_bus_zero (ha : e.action = .add) (hbus : e.bus = 0)
    (hc : c ∈ s.entries) (hs : e.Serves p c) : ¬ Follows p s e := by
  rintro ⟨s', h, heffect⟩
  rw [handle_add ha] at h
  have hc' : c ∈ s'.entries := mem_forEach_of_mem h hc
  unfold AdapterEvent.Effect at heffect
  rw [ha] at heffect
  obtain ⟨d, hd, hmax⟩ := Finset.exists_max_image
    (s'.entries.toFinset.filter fun c => e.Serves p c) (fun c => c.name.length)
    ⟨c, by simp [hc', hs]⟩
  simp only [Finset.mem_filter, List.mem_toFinset] at hd hmax
  obtain ⟨d', ⟨hd', hbus', haddr, hname⟩, -⟩ := heffect d hd.1 hd.2
  have hle : d'.name.length ≤ d.name.length := by
    refine hmax d' ⟨hd', ?_, fun hi3c => haddr.trans (hd.2.2 hi3c)⟩
    rw [hbus', hbus]
    rfl
  rw [hname] at hle
  simp only [CPUConfig.nameFor, String.length_append] at hle
  have : "_".length = 1 := rfl
  omega

end AdapterEvent

open AdapterEvent

theorem follows_iff (p : Platform) (s : CPUConfigs) (e : AdapterEvent) :
    Follows p s e ↔ Orderly p s e := by
  unfold Orderly
  cases ha : e.action with
  | remove =>
    have hdef := forEach_eraseIf_isSome (s := s) (P := fun c : CPUConfig => c.bus = e.bus)
    refine ⟨?_, fun h => ?_⟩
    · rintro ⟨s', h, -⟩
      rw [handle_remove ha] at h
      exact hdef.mp ⟨s', h⟩
    · obtain ⟨s', hs'⟩ := hdef.mpr h
      have hmem := mem_forEach_eraseIf hs'
      refine ⟨s', (handle_remove ha).trans hs', ?_⟩
      unfold AdapterEvent.Effect
      rw [ha]
      exact ⟨fun c hc => ((hmem c).mp hc).2, fun c hc hne => (hmem c).mpr ⟨hc, hne⟩⟩
  | add =>
    constructor
    · intro hf
      have hbus : e.bus = 0 → ∀ c ∈ s.entries, ¬ e.Serves p c := fun hzero c hc hs =>
        not_follows_of_serves_bus_zero ha hzero hc hs hf
      obtain ⟨s', h, heffect⟩ := hf
      unfold AdapterEvent.Effect at heffect
      rw [ha] at heffect
      have hkeep : ∀ c ∈ s.entries, c ∈ s'.entries := fun c hc =>
        (mem_of_handle_add ha h hbus c).mpr (.inl hc)
      refine ⟨hbus, ?_, fun c hc hs => ?_⟩
      · exact (forEach_emplaceNext_isSome (successor p hbus)).mp ⟨s', handle_add ha ▸ h⟩
      · exact (existsUnique_iff ha h hbus hc hs).mp (heffect c (hkeep c hc) hs)
    · rintro ⟨hbus, hroom, hone⟩
      obtain ⟨s', hs'⟩ := (forEach_emplaceNext_isSome (successor p hbus)).mpr hroom
      have h : handle p s e = some s' := (handle_add ha).trans hs'
      refine ⟨s', h, ?_⟩
      unfold AdapterEvent.Effect
      rw [ha]
      intro c hc hs
      have hcs : c ∈ s.entries := by
        rcases (mem_of_handle_add ha h hbus c).mp hc with hc | ⟨d, hd, hds, -, rfl⟩
        · exact hc
        · have hzero : (e.bus : ℤ) = 0 := hs.1
          exact (hbus (by exact_mod_cast hzero) d hd hds).elim
      exact (existsUnique_iff ha h hbus hcs hs).mpr (hone c hcs hs)

/-- Every event of a run does what it should exactly if each finds the set in order. -/
theorem run_follows_iff (p : Platform) (s : CPUConfigs) (es : List AdapterEvent) :
    ExecGuarded (handle p) (Follows p) s es ↔ ExecGuarded (handle p) (Orderly p) s es :=
  execGuarded_congr (I := fun _ => True) (fun _ _ _ _ _ _ _ => trivial)
    (fun s e _ _ => follows_iff p s e) trivial

/-- Two CPUs, each with a configuration for bus 1. -/
def twoCpus : CPUConfigs where
  entries := [⟨0, 0x30, "CPU_1", "default", .on⟩, ⟨1, 0x30, "CPU_1_bus", "bus", .on⟩,
    ⟨0, 0x31, "CPU_2", "default", .on⟩, ⟨1, 0x31, "CPU_2_bus", "bus", .on⟩]
  capacity := 4
  sorted := by decide
  fits := le_rfl

def busOneRemoved : AdapterEvent where
  action := .remove
  parent := "/devices/platform/ahb/1e78b000.".toList
  peciAdapterName := "bus".toList
  unit := []
  bus := 1
  parent_find := by decide
  name_clear := by decide
  unit_clear := by decide
  bus_lt := by decide

/-- "CPU_1_bus" is erased, and the last place that the loop comes to holds no element. -/
theorem not_run_follows :
    ¬ ∀ (p : Platform) (s : CPUConfigs) (es : List AdapterEvent),
      ExecGuarded (handle p) (Follows p) s es := by
  intro h
  have hf := (h ⟨fun _ => 0, fun n => 2 * n⟩ twoCpus [busOneRemoved]).1
  have horderly : ∀ c ∈ twoCpus.entries.dropLast, c.bus ≠ 1 := (follows_iff _ _ _).mp hf
  exact horderly ⟨1, 0x30, "CPU_1_bus", "bus", .on⟩ (by decide) rfl

end MetaCommon.CpuSensor
