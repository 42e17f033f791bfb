import Mathlib.Data.List.Flatten
import MetaCommon.CpuSensor.UdevEvents

/-!
# Adapters found at the start and adapters added later

At the start the number of an adapter is read from the path of its name file and its name from the
file; later both are read from the device path of the event. The first reading takes one digit of
the number, renames the adapter "bus" and leaves out the bus of the CPU; the second does none of
this, and is made for configurations of bus 0 only.
-/

namespace MetaCommon.CpuSensor

/-! ### Reading the adapters that are there -/

/-- The elements of an absolute path, the root first. -/
def pathElements (path : List Char) : List (List Char) :=
  "/".toList :: (path.splitOn '/').filter (· ≠ [])

/-- The element after `/sys/bus/peci/devices` names the device; `std::stoull` gets one character of
it. -/
def getPeciDeviceNum (peciAdapterNamePath : List Char) : Option ℤ :=
  match (pathElements peciAdapterNamePath)[5]? with
  | none => none
  | some peciDeviceName =>
    match find ['-'] peciDeviceName with
    | none => none
    | some pos =>
      match (peciDeviceName.drop (pos + 1)).take 1 with
      | [c] => if c.isDigit then some (c.toNat - '0'.toNat : ℕ) else none
      | _ => none

/-- The first line of the name file, if the file can be read. A line without a dash is taken
whole. -/
def readPeciAdapterNameFromFile (nameFile : Option (List Char)) : Option String :=
  match nameFile with
  | none => none
  | some peciAdapterName =>
    if peciAdapterName = [] then none
    else match find ['-'] peciAdapterName with
      | some pos => some (String.ofList (peciAdapterName.drop (pos + 1)))
      | none => some (String.ofList peciAdapterName)

def peciDevPath : List Char := "/sys/bus/peci/devices/".toList

/-- An adapter that `findFiles` comes upon, with its number and the line in its name file. -/
def readPeciAdapter (number : ℕ) (nameFile : Option (List Char)) : PeciAdapter :=
  let path := peciDevPath ++ "peci-".toList ++ Nat.toDigits 10 number ++ "/name".toList
  ⟨path, getPeciDeviceNum path, readPeciAdapterNameFromFile nameFile⟩

/-- The same adapter as the event adds. The line in its name file ends, after its first dash, with
the name that the directory of its controller has. -/
structure Adapter where
  event : AdapterEvent
  driver : List Char
  driver_clear : '-' ∉ driver

namespace Adapter

variable (p : Platform) (a : Adapter)

def found : PeciAdapter :=
  readPeciAdapter a.event.bus (some (a.driver ++ '-' :: a.event.peciAdapterName))

/-- What discovery makes of a CPU for the adapter. -/
def foundConfig (cpu : CPUConfig) : Option CPUConfig :=
  otherAdapterConfig p cpu.bus cpu.addr cpu.name .off a.found

/-- What the event makes of the CPU's configuration. -/
def addedConfig (cpu : CPUConfig) : Option CPUConfig := a.event.addedConfig p cpu

/-- The first digit of the adapter's number. -/
def firstDigit : ℕ := Nat.ofDigitChars 10 ((Nat.toDigits 10 a.event.bus).take 1) 0

/-- An I3C adapter of that number is not the CPU's. -/
def Skips (number : ℕ) (cpu : CPUConfig) : Prop :=
  a.event.adapterName = "i3c" ∧
    cpu.addr ≠
      p.peciI3cChardevToCpu (String.ofList ("peci-".toList ++ Nat.toDigits 10 number)) + 0x30

instance (number : ℕ) (cpu : CPUConfig) : Decidable (a.Skips p number cpu) :=
  inferInstanceAs (Decidable (_ ∧ _))

/-- The number has one digit, the CPU is on bus 0, and neither the number nor the name is an
exception; or neither reading gives a configuration. -/
def Agrees (cpu : CPUConfig) : Prop :=
  (cpu.bus = 0 ∧ 0 < a.event.bus ∧ a.event.bus < 10 ∧ a.event.adapterName ≠ "bus") ∨
    ((a.firstDigit : ℤ) = cpu.bus ∨ a.Skips p a.firstDigit cpu) ∧
      (cpu.bus ≠ 0 ∨ a.Skips p a.event.bus cpu)

/-! ### The two readings -/

theorem digitChar_eq :
    ∀ d < 10, d.digitChar.isDigit = true ∧ d.digitChar.toNat - '0'.toNat = d := by
  decide

theorem toDigits_eq_cons (n : ℕ) : ∃ d rest, d < 10 ∧
    Nat.toDigits 10 n = d.digitChar :: rest ∧ (d = 0 ↔ n = 0) ∧ (n < 10 → d = n) := by
  induction n using Nat.strong_induction_on with
  | _ n ih =>
    by_cases hn : n < 10
    · exact ⟨n, [], hn, Nat.toDigits_of_lt_base hn, Iff.rfl, fun _ => rfl⟩
    · obtain ⟨d, rest, hd, hdigits, hzero, -⟩ := ih (n / 10) (by omega)
      refine ⟨d, rest ++ [(n % 10).digitChar], hd, ?_, ?_, fun h => absurd h hn⟩
      · rw [Nat.toDigits_of_base_le (by decide) (Nat.le_of_not_lt hn), hdigits, List.cons_append]
      · rw [hzero]
        omega

variable (cpu : CPUConfig)

theorem firstDigit_spec : ∃ rest, a.firstDigit < 10 ∧
    Nat.toDigits 10 a.event.bus = a.firstDigit.digitChar :: rest ∧
    (a.firstDigit = 0 ↔ a.event.bus = 0) ∧ (a.event.bus < 10 → a.firstDigit = a.event.bus) := by
  obtain ⟨d, rest, hd, hdigits, hzero, hlt⟩ := toDigits_eq_cons a.event.bus
  have hfirst : a.firstDigit = d := by
    unfold firstDigit
    rw [hdigits, List.take_succ_cons, List.take_zero,
      Nat.ofDigitChars_cons_digitChar_of_lt_ten hd, Nat.ofDigitChars_nil]
    omega
  rw [hfirst]
  exact ⟨rest, hd, hdigits, hzero, hlt⟩

theorem found_path : a.found.path =
    peciDevPath ++ "peci-".toList ++ Nat.toDigits 10 a.event.bus ++ "/name".toList := rfl

/-- The element of the path that names the device. -/
theorem found_device : (pathElements a.found.path)[5]? =
    some ("peci-".toList ++ Nat.toDigits 10 a.event.bus) := by
  obtain ⟨device, hdev⟩ : ∃ device, "peci-".toList ++ Nat.toDigits 10 a.event.bus = device :=
    ⟨_, rfl⟩
  have hslash : '/' ∉ device := by
    rw [← hdev, List.mem_append, not_or]
    refine ⟨by decide, fun hmem => ?_⟩
    exact absurd (Tpmi.isDigit_of_mem_toDigits hmem) (by decide)
  have hdir : "/sys/bus/peci/devices".toList.splitOn '/' =
      [[], "sys".toList, "bus".toList, "peci".toList, "devices".toList] := by decide
  have hname : "name".toList.splitOn '/' = ["name".toList] := by decide
  have hprefix : peciDevPath = "/sys/bus/peci/devices".toList ++ ['/'] := by decide
  have hsuffix : "/name".toList = '/' :: "name".toList := by decide
  have hsplit : a.found.path.splitOn '/' =
      [[], "sys".toList, "bus".toList, "peci".toList, "devices".toList] ++
        [device] ++ ["name".toList] := by
    rw [found_path, hprefix, hsuffix, List.append_assoc _ "peci-".toList, hdev, List.append_assoc,
      List.append_assoc, List.singleton_append, List.cons_append, List.splitOn_append_cons_self,
      List.splitOn_append_cons_self, List.splitOn_eq_singleton hslash, hdir, hname]
    rfl
  have hne : device ≠ [] := by
    rw [← hdev]
    exact List.cons_ne_nil _ _
  unfold pathElements
  rw [hsplit, hdev]
  simp [hne]

theorem found_peciDeviceNum : a.found.peciDeviceNum = some (a.firstDigit : ℤ) := by
  obtain ⟨rest, hlt, hdigits, -, -⟩ := a.firstDigit_spec
  obtain ⟨hdigit, hvalue⟩ := digitChar_eq _ hlt
  have hdash : find ['-'] ("peci-".toList ++ Nat.toDigits 10 a.event.bus) = some 4 :=
    find_char '-' (s := "peci".toList) (by decide) _
  have hdrop : (("peci-".toList ++ Nat.toDigits 10 a.event.bus).drop (4 + 1)).take 1 =
      [a.firstDigit.digitChar] := by
    rw [hdigits]
    rfl
  have hnum : getPeciDeviceNum a.found.path = some (a.firstDigit : ℤ) := by
    unfold getPeciDeviceNum
    rw [found_device]
    dsimp only
    rw [hdash]
    dsimp only
    rw [hdrop]
    dsimp only
    rw [if_pos hdigit, hvalue]
  exact hnum

theorem found_peciAdapterName : a.found.peciAdapterName = some a.event.adapterName := by
  have hdash : find ['-'] (a.driver ++ '-' :: a.event.peciAdapterName) = some a.driver.length :=
    find_char '-' a.driver_clear _
  have hname : readPeciAdapterNameFromFile (some (a.driver ++ '-' :: a.event.peciAdapterName)) =
      some a.event.adapterName := by
    unfold readPeciAdapterNameFromFile
    dsimp only
    rw [if_neg (List.append_ne_nil_of_right_ne_nil _ (List.cons_ne_nil _ _)), hdash]
    dsimp only
    rw [← List.drop_drop, List.drop_left, List.drop_succ_cons, List.drop_zero]
    rfl
  exact hname

/-- The I3C device that discovery asks for has the first digit only. -/
theorem found_pecidev : ∃ pos, find "peci-".toList a.found.path = some pos ∧
    (a.found.path.drop pos).take 6 = "peci-".toList ++ Nat.toDigits 10 a.firstDigit := by
  obtain ⟨rest, hlt, hdigits, -, -⟩ := a.firstDigit_spec
  have hpos : find "peci-".toList (peciDevPath ++ "peci-".toList) = some peciDevPath.length := by
    decide
  refine ⟨peciDevPath.length, ?_, ?_⟩
  · rw [found_path, List.append_assoc (peciDevPath ++ "peci-".toList)]
    exact find_append hpos _
  · rw [found_path, List.append_assoc, List.append_assoc, List.drop_left, hdigits,
      Nat.toDigits_of_lt_base hlt]
    rfl

/-- The name that discovery gives the adapter. -/
def foundName : String :=
  if a.event.adapterName = "bus" then "wire" else a.event.adapterName

theorem foundName_eq_i3c_iff : a.foundName = "i3c" ↔ a.event.adapterName = "i3c" := by
  unfold foundName
  split_ifs with h
  · rw [h]
    decide
  · rfl

theorem foundName_eq_iff : a.foundName = a.event.adapterName ↔ a.event.adapterName ≠ "bus" := by
  unfold foundName
  split_ifs with h
  · rw [h]
    decide
  · exact iff_of_true rfl h

theorem guard_guard {β : Type*} (A B C : Prop) [Decidable A] [Decidable B] [Decidable C] (x : β) :
    ((guard ¬ A : Option Unit).bind fun _ =>
      if B then (guard C : Option Unit).bind fun _ => pure x else pure x) =
      if A ∨ B ∧ ¬ C then none else some x := by
  by_cases hA : A
  · simp [guard, hA]
  · by_cases hB : B <;> by_cases hC : C <;> simp [guard, hA, hB, hC]

theorem foundConfig_eq : a.foundConfig p cpu =
    if (a.firstDigit : ℤ) = cpu.bus ∨ a.Skips p a.firstDigit cpu then none
    else some ⟨a.firstDigit, cpu.addr, cpu.nameFor a.foundName, a.foundName, .off⟩ := by
  obtain ⟨pos, hpos, hpecidev⟩ := a.found_pecidev
  have hi3c := a.foundName_eq_i3c_iff
  unfold foundConfig otherAdapterConfig
  rw [found_peciDeviceNum, found_peciAdapterName]
  simp only [Option.bind_eq_bind, Option.bind_some, hpos, hpecidev]
  rw [show (if a.event.adapterName = "bus" then "wire" else a.event.adapterName) = a.foundName
    from rfl]
  refine (guard_guard _ _ _ _).trans (if_congr ?_ rfl rfl)
  exact or_congr Iff.rfl (and_congr hi3c Iff.rfl)

theorem addedConfig_eq : a.addedConfig p cpu =
    if cpu.bus ≠ 0 ∨ a.Skips p a.event.bus cpu then none
    else some ⟨a.event.bus, cpu.addr, cpu.nameFor a.event.adapterName, a.event.adapterName,
      .off⟩ := by
  have hadded : a.addedConfig p cpu =
      if cpu.bus ≠ 0 then none else if a.Skips p a.event.bus cpu then none
      else some ⟨a.event.bus, cpu.addr, cpu.nameFor a.event.adapterName, a.event.adapterName,
        .off⟩ := rfl
  rw [hadded, ite_or]

theorem foundConfig_eq_addedConfig_iff (p : Platform) (a : Adapter) (cpu : CPUConfig) :
    a.foundConfig p cpu = a.addedConfig p cpu ↔ a.Agrees p cpu := by
  obtain ⟨rest, hlt, -, hzero, hone⟩ := a.firstDigit_spec
  rw [foundConfig_eq, addedConfig_eq]
  unfold Agrees
  split_ifs with hfound hadded hadded
  · exact iff_of_true rfl (.inr ⟨hfound, hadded⟩)
  · refine iff_of_false nofun ?_
    rintro (⟨hbus, hpos, hten, -⟩ | ⟨-, h⟩)
    · rw [hone hten] at hfound
      obtain ⟨hbus', hskips⟩ := not_or.mp hadded
      rcases hfound with hnum | hnum
      · omega
      · exact hskips hnum
    · exact hadded h
  · refine iff_of_false nofun ?_
    rintro (⟨hbus, hpos, hten, -⟩ | ⟨h, -⟩)
    · rw [hone hten] at hfound
      rcases hadded with hbus' | hskips
      · exact hbus' hbus
      · exact hfound (.inr hskips)
    · exact hfound h
  · obtain ⟨hne, -⟩ := not_or.mp hfound
    obtain ⟨hbus, -⟩ := not_or.mp hadded
    rw [not_not] at hbus
    rw [Option.some_inj, CPUConfig.mk.injEq, or_iff_left fun h => hfound h.1]
    constructor
    · rintro ⟨hnum, -, -, hname, -⟩
      refine ⟨hbus, ?_, ?_, a.foundName_eq_iff.mp hname⟩ <;> omega
    · rintro ⟨-, hpos, hten, hname⟩
      rw [hone hten, a.foundName_eq_iff.mpr hname]
      exact ⟨rfl, rfl, rfl, rfl, rfl⟩

/-! ### The sets of configurations -/

/-- The configuration of a CPU that Entity Manager knows. -/
def configured (cpu : CPUConfig) : CPUConfig := ⟨cpu.bus, cpu.addr, cpu.name, "default", .off⟩

/-- The set after `getCpuConfig` has been through the CPUs. -/
def start (p : Platform) (adapters : List PeciAdapter) (cpus : List CPUConfig) : CPUConfigs :=
  cpus.foldl (fun s cpu => getCpuConfig p adapters cpu.bus cpu.addr cpu.name s)
    ⟨[], 0, List.Pairwise.nil, Nat.le_refl 0⟩

/-- The configurations that are put into it, one after the other. -/
def offers (p : Platform) (adapters : List PeciAdapter) (cpus : List CPUConfig) : List CPUConfig :=
  cpus.flatMap fun cpu => configured cpu ::
    adapters.filterMap (otherAdapterConfig p cpu.bus cpu.addr cpu.name .off)

/-- No two configurations are offered under one name. -/
def Distinct (configs : List CPUConfig) : Prop := configs.Pairwise fun c d => c.name ≠ d.name

theorem mem_start {p : Platform} {adapters : List PeciAdapter} {cpus : List CPUConfig}
    (h : Distinct (offers p adapters cpus)) (c : CPUConfig) :
    c ∈ (start p adapters cpus).entries ↔ c ∈ offers p adapters cpus := by
  have hfold : start p adapters cpus = (offers p adapters cpus).foldl (FlatSet.emplace p.grow)
      ⟨[], 0, List.Pairwise.nil, Nat.le_refl 0⟩ := by
    unfold start offers
    rw [List.foldl_flatMap]
    rfl
  rw [hfold, FlatSet.mem_foldl_emplace h]
  simp [FlatSet.keys]

theorem distinct_of_append {p : Platform} {adapters : List PeciAdapter} {adapter : PeciAdapter}
    {cpus : List CPUConfig} (h : Distinct (offers p (adapters ++ [adapter]) cpus)) :
    Distinct (offers p adapters cpus) :=
  h.sublist (List.Sublist.flatMap_right cpus fun _ _ =>
    ((List.sublist_append_left adapters [adapter]).filterMap _).cons_cons _)

theorem mem_offers_append {p : Platform} {adapters : List PeciAdapter} {adapter : PeciAdapter}
    {cpus : List CPUConfig} {c : CPUConfig} :
    c ∈ offers p (adapters ++ [adapter]) cpus ↔ c ∈ offers p adapters cpus ∨
      ∃ cpu ∈ cpus, otherAdapterConfig p cpu.bus cpu.addr cpu.name .off adapter = some c := by
  unfold offers
  simp only [List.mem_flatMap, List.mem_cons, List.filterMap_append, List.mem_append,
    List.mem_filterMap, List.not_mem_nil, or_false, exists_eq_left]
  grind

theorem bus_ne_of_otherAdapterConfig {p : Platform} {bus addr : ℤ} {name : String} {state : State}
    {adapter : PeciAdapter} {c : CPUConfig}
    (h : otherAdapterConfig p bus addr name state adapter = some c) : c.bus ≠ bus := by
  unfold otherAdapterConfig at h
  simp only [Option.bind_eq_bind, Option.pure_def] at h
  obtain ⟨number, -, h⟩ := Option.bind_eq_some_iff.mp h
  obtain ⟨_, hne, h⟩ := Option.bind_eq_some_iff.mp h
  obtain ⟨peciAdapterName, -, h⟩ := Option.bind_eq_some_iff.mp h
  have hnumber : number ≠ bus := by
    by_contra hno
    simp [guard, hno] at hne
  have hbus : c.bus = number := by
    split_ifs at h
    all_goals
      first
      | exact congrArg CPUConfig.bus (Option.some.inj h).symm
      | simp only [Option.bind_eq_some_iff] at h
        obtain ⟨_, _, _, _, h⟩ := h
        exact congrArg CPUConfig.bus (Option.some.inj h).symm
  exact hbus ▸ hnumber

variable {p : Platform} {a : Adapter} {adapters : List PeciAdapter} {cpus : List CPUConfig}
  {s' : CPUConfigs}

/-- If all CPUs are on bus 0, only their own configurations are served. -/
theorem exists_of_serves (hbus : ∀ cpu ∈ cpus, cpu.bus = 0) {c : CPUConfig}
    (hc : c ∈ offers p adapters cpus) (hs : a.event.Serves p c) :
    ∃ cpu ∈ cpus, c = configured cpu := by
  obtain ⟨cpu, hcpu, hc⟩ := List.mem_flatMap.mp hc
  rcases List.mem_cons.mp hc with hc | hc
  · exact ⟨cpu, hcpu, hc⟩
  · obtain ⟨adapter, -, hother⟩ := List.mem_filterMap.mp hc
    exact absurd (hs.1.trans (hbus cpu hcpu).symm) (bus_ne_of_otherAdapterConfig hother)

theorem addedConfig_eq_some {cpu c : CPUConfig} : a.addedConfig p cpu = some c ↔
    a.event.Serves p (configured cpu) ∧ c = a.event.made (configured cpu) :=
  AdapterEvent.addedConfig_eq_some (c := configured cpu)

/-- Where the two readings agree on every CPU and the loop of the event comes to each, the set is
the same whether the adapter is there at the start or is added after it. -/
theorem added_eq_start (hbus : ∀ cpu ∈ cpus, cpu.bus = 0)
    (hagrees : ∀ cpu ∈ cpus, a.Agrees p cpu)
    (hnames : Distinct (offers p (adapters ++ [a.found]) cpus)) (ha : a.event.action = .add)
    (hcomes : ∀ c ∈ (start p adapters cpus).entries, a.event.Serves p c →
      a.event.Inserts p (start p adapters cpus) c)
    (h : handle p (start p adapters cpus) a.event = some s') :
    s'.entries = (start p (adapters ++ [a.found]) cpus).entries := by
  have hnames' := distinct_of_append hnames
  have hzero : a.event.bus = 0 → ∀ c ∈ (start p adapters cpus).entries,
      ¬ a.event.Serves p c := by
    intro hz c hc hs
    obtain ⟨cpu, hcpu, rfl⟩ := exists_of_serves hbus ((mem_start hnames' c).mp hc) hs
    rcases hagrees cpu hcpu with ⟨-, hpos, -⟩ | ⟨-, hne | hskips⟩
    · exact Nat.ne_of_gt hpos hz
    · exact hne (hbus cpu hcpu)
    · exact hskips.2 (hs.2 hskips.1)
  refine FlatSet.eq_of_mem_of_sorted s'.sorted (start p _ cpus).sorted fun c => ?_
  rw [AdapterEvent.mem_of_handle_add ha h hzero, mem_start hnames, mem_start hnames',
    mem_offers_append]
  refine or_congr_right ⟨?_, ?_⟩
  · rintro ⟨d, hd, hs, -, hc⟩
    obtain ⟨cpu, hcpu, rfl⟩ := exists_of_serves hbus ((mem_start hnames' d).mp hd) hs
    refine ⟨cpu, hcpu, ?_⟩
    have hsame := (foundConfig_eq_addedConfig_iff p a cpu).mpr (hagrees cpu hcpu)
    exact hsame.trans (addedConfig_eq_some.mpr ⟨hs, hc⟩)
  · rintro ⟨cpu, hcpu, hfound⟩
    have hsame := (foundConfig_eq_addedConfig_iff p a cpu).mpr (hagrees cpu hcpu)
    obtain ⟨hs, hc⟩ := addedConfig_eq_some.mp (hsame.symm.trans hfound)
    have hmem : configured cpu ∈ (start p adapters cpus).entries :=
      (mem_start hnames' _).mpr (List.mem_flatMap.mpr ⟨cpu, hcpu, List.mem_cons_self⟩)
    exact ⟨configured cpu, hmem, hs, hcomes _ hmem hs, hc⟩

/-- Discovery and the event make the same configuration of a CPU exactly under these conditions.
Where they hold for every CPU, the daemon has the same set with the adapter there at its start and
with the adapter added later. -/
theorem discovery_agrees_iff (p : Platform) (a : Adapter) :
    (∀ cpu, a.foundConfig p cpu = a.addedConfig p cpu ↔ a.Agrees p cpu) ∧
    ∀ adapters cpus s', (∀ cpu ∈ cpus, cpu.bus = 0 ∧ a.Agrees p cpu) →
      Distinct (offers p (adapters ++ [a.found]) cpus) → a.event.action = .add →
      (∀ c ∈ (start p adapters cpus).entries, a.event.Serves p c →
        a.event.Inserts p (start p adapters cpus) c) →
      handle p (start p adapters cpus) a.event = some s' →
      s'.entries = (start p (adapters ++ [a.found]) cpus).entries :=
  ⟨foundConfig_eq_addedConfig_iff p a, fun _ _ _ hcpus hnames ha hcomes h =>
    added_eq_start (fun cpu hcpu => (hcpus cpu hcpu).1) (fun cpu hcpu => (hcpus cpu hcpu).2)
      hnames ha hcomes h⟩

/-- The ASPEED adapter as number 1: discovery calls it "wire", the event calls it "bus". -/
theorem wire_adapter_differs :
    let a : Adapter := ⟨{ busOneRemoved with action := .add }, "1e78b000.peci".toList, by decide⟩
    a.foundConfig ⟨fun _ => 0, id⟩ ⟨0, 0x30, "CPU_1", "default", .off⟩ ≠
      a.addedConfig ⟨fun _ => 0, id⟩ ⟨0, 0x30, "CPU_1", "default", .off⟩ := by
  decide +kernel

end Adapter

end MetaCommon.CpuSensor
