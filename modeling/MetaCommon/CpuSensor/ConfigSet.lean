import Mathlib.Data.String.Basic
import MetaCommon.Lib.FlatSet
import MetaCommon.Tpmi.Stoi

/-!
# The CPU configurations

The CPU sensor daemon keeps a configuration for each CPU that Entity Manager knows, on bus 0, and
one for each other PECI adapter through which the same CPU is reached. `udevAction` is called for
each udev event. It goes through the set of configurations and inserts into it or erases from it
while the loop runs.
-/

namespace MetaCommon.CpuSensor

inductive State
  | off
  | on
  | ready
deriving DecidableEq, Repr

structure CPUConfig where
  bus : ℤ
  addr : ℤ
  name : String
  busName : String
  state : State
deriving DecidableEq

/-- Configurations are ordered by their names. -/
abbrev CPUConfigs := FlatSet CPUConfig.name

/-- The name of the configuration for another adapter. -/
def CPUConfig.nameFor (config : CPUConfig) (peciAdapterName : String) : String :=
  config.name ++ "_" ++ peciAdapterName

/-- Which CPU an I3C device belongs to, and how much room a full buffer gets. -/
structure Platform where
  peciI3cChardevToCpu : String → ℤ
  grow : ℕ → ℕ

/-! ### Device paths -/

/-- `std::string::find`. -/
def find (pat : List Char) : List Char → Option ℕ
  | [] => if pat.isEmpty then some 0 else none
  | c :: s => if pat.isPrefixOf (c :: s) then some 0 else (find pat s).map (· + 1)

inductive Devpath
  | client
  | adapter (peciAdapterName pecidevName : String) (bus : ℤ)
deriving DecidableEq

/-- What `udevAction` takes from a device path. It is `none` where `substr` or `stoi` throws; a find
that fails there leaves `npos`, so the adapter's name goes on to the end, and the device's name
starts at `npos + 1`, which is 0. -/
def readDevpath (devpath : List Char) : Option Devpath := do
  let pos ← find "peci-".toList devpath
  let path := devpath.drop pos
  let (peciAdapterName, pecidevName) := match find ['/'] path with
    | some pos => ((path.take pos).drop 5, path.drop (pos + 1))
    | none => (path.drop 5, path)
  if (find ['/'] pecidevName).isSome then
    return .client
  let number := match find ['-'] pecidevName with
    | some pos => pecidevName.drop (pos + 1)
    | none => pecidevName
  let (bus, _) ← (Tpmi.stoi number).toOption
  return .adapter (String.ofList (peciAdapterName.takeWhile (· ≠ '.')))
    (String.ofList pecidevName) bus

/-! ### Changes of the set -/

/-- The configuration that the loop over the set makes of `config` when an adapter was added. -/
def addedConfig (p : Platform) (peciAdapterName pecidevName : String) (bus : ℤ)
    (config : CPUConfig) : Option CPUConfig :=
  if config.bus ≠ 0 then none
  else if peciAdapterName = "i3c" ∧ config.addr ≠ p.peciI3cChardevToCpu pecidevName + 0x30 then none
  else some ⟨bus, config.addr, config.nameFor peciAdapterName, peciAdapterName, .off⟩

/-- It is `none` where the action throws, or where its loop reads what is no longer there. -/
def udevAction (p : Platform) (action : String) (devpath : List Char) (cpuConfigs : CPUConfigs) :
    Option CPUConfigs :=
  if action = "" then some cpuConfigs
  else match readDevpath devpath with
    | none => none
    | some .client => some cpuConfigs
    | some (.adapter peciAdapterName pecidevName bus) =>
      if action = "add" then
        FlatSet.forEach
          (FlatSet.emplaceNext p.grow (addedConfig p peciAdapterName pecidevName bus)) cpuConfigs
      else if action = "remove" then
        FlatSet.forEach (FlatSet.eraseIf fun config => config.bus = bus) cpuConfigs
      else some cpuConfigs

/-- An adapter found under `/sys/bus/peci/devices`: the path of its name file, the number in it and
the name in the file, as far as they can be read. -/
structure PeciAdapter where
  path : List Char
  peciDeviceNum : Option ℤ
  peciAdapterName : Option String

/-- Unlike `udevAction`, this one leaves out the adapter of the configuration's own bus, and calls
the adapter "bus" of the ASPEED controller "wire". -/
def otherAdapterConfig (p : Platform) (bus addr : ℤ) (name : String) (state : State)
    (adapter : PeciAdapter) : Option CPUConfig := do
  let peciDeviceNum ← adapter.peciDeviceNum
  guard (peciDeviceNum ≠ bus)
  let peciAdapterName ← adapter.peciAdapterName
  let peciAdapterName := if peciAdapterName = "bus" then "wire" else peciAdapterName
  if peciAdapterName = "i3c" then
    let pos ← find "peci-".toList adapter.path
    let pecidev := String.ofList ((adapter.path.drop pos).take 6)
    guard (addr = p.peciI3cChardevToCpu pecidev + 0x30)
  return ⟨peciDeviceNum, addr, name ++ "_" ++ peciAdapterName, peciAdapterName, state⟩

def addConfigsForOtherPeciAdapters (p : Platform) (adapters : List PeciAdapter) (bus addr : ℤ)
    (name : String) (state : State) (cpuConfigs : CPUConfigs) : CPUConfigs :=
  (adapters.filterMap (otherAdapterConfig p bus addr name state)).foldl (FlatSet.emplace p.grow)
    cpuConfigs

/-- What `getCpuConfig` does with the set for one CPU. -/
def getCpuConfig (p : Platform) (adapters : List PeciAdapter) (bus addr : ℤ) (name : String)
    (cpuConfigs : CPUConfigs) : CPUConfigs :=
  addConfigsForOtherPeciAdapters p adapters bus addr name .off
    (cpuConfigs.emplace p.grow ⟨bus, addr, name, "default", .off⟩)

/-! ### Events of adapters -/

inductive UeventAction
  | add
  | remove
deriving DecidableEq

def UeventAction.text : UeventAction → String
  | .add => "add"
  | .remove => "remove"

/-- An adapter comes or goes. Its device lies in the directory of its controller, which is the first
one on the way that is called after PECI: "peci-", the adapter's name and maybe a dot and a
number. -/
structure AdapterEvent where
  action : UeventAction
  parent : List Char
  peciAdapterName : List Char
  unit : List Char
  bus : ℕ
  parent_find : find "peci-".toList (parent ++ "peci-".toList) = some parent.length
  name_clear : '/' ∉ peciAdapterName ∧ '.' ∉ peciAdapterName
  unit_clear : '/' ∉ unit ∧ (unit = [] ∨ unit.head? = some '.')
  bus_lt : bus < 2147483648

namespace AdapterEvent

def pecidevName (e : AdapterEvent) : List Char := "peci-".toList ++ Nat.toDigits 10 e.bus

def devpath (e : AdapterEvent) : List Char :=
  e.parent ++ "peci-".toList ++ e.peciAdapterName ++ e.unit ++ '/' :: e.pecidevName

def adapterName (e : AdapterEvent) : String := String.ofList e.peciAdapterName

/-- What the event's loop makes of a configuration if the adapter was added. -/
def addedConfig (p : Platform) (e : AdapterEvent) : CPUConfig → Option CPUConfig :=
  CpuSensor.addedConfig p e.adapterName (String.ofList e.pecidevName) e.bus

end AdapterEvent

def handle (p : Platform) (cpuConfigs : CPUConfigs) (e : AdapterEvent) : Option CPUConfigs :=
  udevAction p e.action.text e.devpath cpuConfigs

/-! ### Reading the path of an event -/

theorem length_le_of_find {pat s : List Char} {i : ℕ} (h : find pat s = some i) :
    pat.length ≤ s.length := by
  induction s generalizing i with
  | nil =>
    unfold find at h
    split_ifs at h with hpat
    simp [List.isEmpty_iff.mp hpat]
  | cons c s ih =>
    unfold find at h
    split_ifs at h with hpre
    · exact (List.isPrefixOf_iff_prefix.mp hpre).length_le
    · obtain ⟨j, hj, -⟩ := Option.map_eq_some_iff.mp h
      exact (ih hj).trans (Nat.le_succ _)

theorem find_append {pat s : List Char} {i : ℕ} (h : find pat s = some i) (t : List Char) :
    find pat (s ++ t) = some i := by
  induction s generalizing i with
  | nil =>
    unfold find at h
    split_ifs at h with hpat
    obtain rfl := List.isEmpty_iff.mp hpat
    obtain rfl : 0 = i := Option.some.inj h
    cases t <;> simp [find]
  | cons c s ih =>
    have hlen := length_le_of_find h
    rw [List.cons_append]
    unfold find at h ⊢
    by_cases hpre : pat <+: c :: s
    · rw [if_pos (List.isPrefixOf_iff_prefix.mpr hpre)] at h
      have hpre' : pat <+: c :: (s ++ t) := hpre.trans (List.prefix_append (c :: s) t)
      rw [if_pos (List.isPrefixOf_iff_prefix.mpr hpre'), h]
    · rw [if_neg (List.isPrefixOf_iff_prefix.not.mpr hpre)] at h
      obtain ⟨j, hj, rfl⟩ := Option.map_eq_some_iff.mp h
      have hpre' : ¬ pat <+: c :: (s ++ t) := fun hp =>
        hpre (List.prefix_of_prefix_length_le hp (List.prefix_append (c :: s) t) hlen)
      rw [if_neg (List.isPrefixOf_iff_prefix.not.mpr hpre'), ih hj, Option.map_some]

theorem find_char (c : Char) {s : List Char} (hs : c ∉ s) (t : List Char) :
    find [c] (s ++ c :: t) = some s.length := by
  induction s with
  | nil => simp [find]
  | cons d s ih =>
    obtain ⟨hd, hs⟩ := not_or.mp (List.mem_cons.not.mp hs)
    rw [List.cons_append]
    unfold find
    rw [if_neg (by simp [hd]), ih hs]
    rfl

theorem find_char_none {c : Char} {s : List Char} (hs : c ∉ s) : find [c] s = none := by
  induction s with
  | nil => rfl
  | cons d s ih =>
    obtain ⟨hd, hs⟩ := not_or.mp (List.mem_cons.not.mp hs)
    unfold find
    rw [if_neg (by simp [hd]), ih hs]
    rfl

theorem readDevpath_devpath (e : AdapterEvent) :
    readDevpath e.devpath =
      some (.adapter e.adapterName (String.ofList e.pecidevName) e.bus) := by
  have hpos : find "peci-".toList e.devpath = some e.parent.length := by
    unfold AdapterEvent.devpath
    simp only [List.append_assoc]
    rw [← List.append_assoc]
    exact find_append e.parent_find _
  obtain ⟨dir, hdir⟩ : ∃ dir, dir = "peci-".toList ++ e.peciAdapterName ++ e.unit := ⟨_, rfl⟩
  have hpath : e.devpath.drop e.parent.length = dir ++ '/' :: e.pecidevName := by
    simp [AdapterEvent.devpath, hdir]
  have hslash : '/' ∉ dir := by
    simp only [hdir, List.mem_append, not_or]
    exact ⟨⟨by decide, e.name_clear.1⟩, e.unit_clear.1⟩
  have hdrop : dir.drop 5 = e.peciAdapterName ++ e.unit := by rw [hdir]; rfl
  have hdev : '/' ∉ e.pecidevName := by
    unfold AdapterEvent.pecidevName
    rw [List.mem_append, not_or]
    refine ⟨by decide, fun hmem => ?_⟩
    have := Nat.isDigit_of_mem_toDigits (b := 10) (by decide) (by decide) hmem
    exact absurd this (by decide)
  have hdash : find ['-'] e.pecidevName = some 4 := find_char '-' (s := "peci".toList) (by decide) _
  have hname : (e.peciAdapterName ++ e.unit).takeWhile (fun c => !decide (c = '.')) =
      e.peciAdapterName := by
    have hself : e.peciAdapterName.takeWhile (fun c => !decide (c = '.')) = e.peciAdapterName :=
      List.takeWhile_eq_self_iff.mpr fun c hc => by
        simpa using fun h : c = '.' => e.name_clear.2 (h ▸ hc)
    rw [List.takeWhile_append_of_pos (fun c hc => List.takeWhile_eq_self_iff.mp hself c hc)]
    rcases e.unit_clear.2 with hunit | hunit
    · simp [hunit]
    · obtain ⟨rest, hrest⟩ := List.head?_eq_some_iff.mp hunit
      simp [hrest]
  have hnumber : e.pecidevName.drop (4 + 1) = Nat.toDigits 10 e.bus := rfl
  have hstoi := Tpmi.stoi_toDigits e.bus_lt
  unfold readDevpath
  simp only [hpos, Option.bind_eq_bind, Option.bind_some, hpath, find_char '/' hslash,
    List.take_left, hdrop]
  simp [find_char_none hdev, hdash, hnumber, hstoi, Except.toOption, AdapterEvent.adapterName,
    hname]

end MetaCommon.CpuSensor
