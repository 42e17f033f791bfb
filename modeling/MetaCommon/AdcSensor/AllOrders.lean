import MetaCommon.AdcSensor.Matching
import MetaCommon.Lib.Scan

/-!
# Matches in every order of the directories

Sensors should be made on the inputs that their configurations name, and of every configuration that
names an input, in whatever order the directories are scanned. The conditions under which they are
say which configuration comes first among those that accept an input, and which directories end the
scan.
-/

namespace MetaCommon.AdcSensor

/-! ### What is wanted -/

def HasDevice (sysfs : String → Directory) (directory : String) (d : Device) : Prop :=
  ∃ deviceName ∈ (sysfs directory).deviceName, parseDeviceName deviceName = .device d

def IsInput (sysfs : String → Directory) (directory : String) (d : Device) (number : ℕ) : Prop :=
  HasDevice sysfs directory d ∧ ∃ inputs ∈ (sysfs directory).inputs, number ∈ inputs

/-- An "ADC" configuration names an input of "iio-hwmon" by its 0-based index; an "I2CADC" one names
an input of the device at its bus and address by its number. -/
def Fits (d : Device) (number : ℕ) : SensorType → BaseConfiguration → Prop
  | .adc, base => d = .iioHwmon ∧ ∃ index, base.index = some (some index) ∧ index.toInt = number - 1
  | .i2cadc, base =>
    (∃ bus addr, d = .i2c bus addr ∧ base.bus = some (some bus) ∧ base.address = some (some addr)) ∧
      ∃ index, base.index = some (some index) ∧ index.toInt = number

def Match.Fits (configs : List Configuration) (sysfs : String → Directory) (m : Match) : Prop :=
  ∃ d base, IsInput sysfs m.directory d m.number ∧ m.configuration ∈ configs ∧
    m.configuration.find m.type = some base ∧ AdcSensor.Fits d m.number m.type base

/-- There is an input that the configuration of this type names. -/
def Wanted (sysfs : String → Directory) (hwmonPaths : List HwmonPath) (c : Configuration)
    (type : SensorType) : Prop :=
  ∃ base, c.find type = some base ∧ ∃ p ∈ hwmonPaths, p.supported = true ∧
    ∃ d number, IsInput sysfs p.directory d number ∧ Fits d number type base

/-- In every order of the directories, sensors are made only on the inputs that the configurations
name, and of each configuration that names an input. -/
def MatchesAll (configs : List Configuration) (sysfs : String → Directory)
    (hwmonPaths : List HwmonPath) : Prop :=
  ∀ hwmonPaths', hwmonPaths'.Perm hwmonPaths →
    (∀ m ∈ createSensorsCallback configs sysfs [] hwmonPaths', m.Fits configs sysfs) ∧
    ∀ c ∈ configs, ∀ type, Wanted sysfs hwmonPaths c type →
      ∃ m ∈ createSensorsCallback configs sysfs [] hwmonPaths',
        m.Fits configs sysfs ∧ m.configuration = c ∧ m.type = type

/-! ### The first configuration that accepts an input -/

def Accepts (d : Device) (index : BitVec 32) (type : SensorType) (base : BaseConfiguration) : Prop :=
  base.index = some (some index) ∧ (type = .i2cadc → sameAddress d base = true)

/-- The configuration does not accept the input, and its index is not of a type that throws. -/
def Passes (d : Device) (index : BitVec 32) (c : Configuration) : Prop :=
  ∀ type base, c.base = some (type, base) → base.index ≠ some none ∧ ¬ Accepts d index type base

/-- The configuration is the first that does not pass, and accepts the input by this type. -/
def FirstAccepts (configs : List Configuration) (d : Device) (index : BitVec 32) (c : Configuration)
    (type : SensorType) : Prop :=
  Scan.First (Passes d index)
    (fun c' => c' = c ∧ ∃ base, c.base = some (type, base) ∧ Accepts d index type base) configs

/-- The first configuration that does not pass has an index that is not a number. -/
def FirstThrows (configs : List Configuration) (d : Device) (index : BitVec 32) : Prop :=
  Scan.First (Passes d index)
    (fun c => ∃ type base, c.base = some (type, base) ∧ base.index = some none) configs

section Search

variable {d : Device} {index : BitVec 32} {configs : List Configuration} {c : Configuration}
  {type : SensorType}

/-- The three ways the search goes on at a configuration. -/
theorem findConfiguration_cons (d : Device) (index : BitVec 32) (c : Configuration)
    (cs : List Configuration) :
    (Passes d index c ∧ findConfiguration d index (c :: cs) = findConfiguration d index cs) ∨
    (∃ type base, c.base = some (type, base) ∧ base.index = some none ∧
      findConfiguration d index (c :: cs) = none) ∨
    ∃ type base, c.base = some (type, base) ∧ Accepts d index type base ∧
      findConfiguration d index (c :: cs) = some (some (c, type)) := by
  rw [findConfiguration]
  cases hbase : c.base with
  | none => exact .inl ⟨fun type base h => (by rw [hbase] at h; cases h), rfl⟩
  | some tb =>
    obtain ⟨type, base⟩ := tb
    have hpasses : base.index ≠ some none → ¬ Accepts d index type base → Passes d index c := by
      intro hindex haccepts type' base' h
      rw [hbase] at h
      cases h
      exact ⟨hindex, haccepts⟩
    dsimp only
    cases hindex : base.index with
    | none => exact .inl ⟨hpasses (by simp [hindex]) (by simp [Accepts, hindex]), rfl⟩
    | some index? =>
      cases index? with
      | none => exact .inr (.inl ⟨type, base, rfl, hindex, rfl⟩)
      | some inputIndex =>
        dsimp only
        by_cases hne : index ≠ inputIndex
        · rw [if_pos hne]
          refine .inl ⟨hpasses (by simp [hindex]) ?_, rfl⟩
          rintro ⟨heq, -⟩
          rw [hindex] at heq
          exact hne (Option.some.inj (Option.some.inj heq)).symm
        · rw [if_neg hne]
          obtain rfl : index = inputIndex := not_not.mp hne
          by_cases hother : type = .i2cadc ∧ ¬ sameAddress d base = true
          · rw [if_pos hother]
            exact .inl ⟨hpasses (by simp [hindex]) fun h => hother.2 (h.2 hother.1), rfl⟩
          · rw [if_neg hother]
            exact .inr (.inr ⟨type, base, rfl, ⟨hindex, fun h => by simpa [h] using hother⟩, rfl⟩)

theorem findConfiguration_eq_some_iff :
    findConfiguration d index configs = some (some (c, type)) ↔
      FirstAccepts configs d index c type := by
  unfold FirstAccepts
  induction configs with
  | nil => simp [findConfiguration]
  | cons c' cs ih =>
    rw [Scan.first_cons, ← ih]
    obtain ⟨hpasses, hfind⟩ | ⟨type', base, hbase, hindex, hfind⟩ |
        ⟨type', base, hbase, haccepts, hfind⟩ :=
      findConfiguration_cons d index c' cs
    · rw [hfind]
      constructor
      · exact fun h => .inr ⟨hpasses, h⟩
      · rintro (⟨rfl, base, hbase, haccepts⟩ | ⟨-, h⟩)
        · exact absurd haccepts (hpasses type base hbase).2
        · exact h
    · rw [hfind]
      refine ⟨fun h => (by cases h), ?_⟩
      rintro (⟨rfl, base', hbase', haccepts⟩ | ⟨hpasses, -⟩)
      · rw [hbase] at hbase'
        cases hbase'
        exact absurd (hindex.symm.trans haccepts.1) (by simp)
      · exact absurd hindex (hpasses type' base hbase).1
    · rw [hfind]
      constructor
      · intro h
        cases h
        exact .inl ⟨rfl, base, hbase, haccepts⟩
      · rintro (⟨rfl, base', hbase', -⟩ | ⟨hpasses, -⟩)
        · rw [hbase] at hbase'
          cases hbase'
          rfl
        · exact absurd haccepts (hpasses type' base hbase).2

theorem findConfiguration_eq_none_iff :
    findConfiguration d index configs = none ↔ FirstThrows configs d index := by
  unfold FirstThrows
  induction configs with
  | nil => simp [findConfiguration]
  | cons c' cs ih =>
    rw [Scan.first_cons, ← ih]
    obtain ⟨hpasses, hfind⟩ | ⟨type', base, hbase, hindex, hfind⟩ |
        ⟨type', base, hbase, haccepts, hfind⟩ :=
      findConfiguration_cons d index c' cs
    · rw [hfind]
      constructor
      · exact fun h => .inr ⟨hpasses, h⟩
      · rintro (⟨type, base, hbase, hindex⟩ | ⟨-, h⟩)
        · exact absurd hindex (hpasses type base hbase).1
        · exact h
    · rw [hfind]
      exact ⟨fun _ => .inl ⟨type', base, hbase, hindex⟩, fun _ => rfl⟩
    · rw [hfind]
      refine ⟨fun h => (by cases h), ?_⟩
      rintro (⟨type, base', hbase', hindex⟩ | ⟨hpasses, -⟩)
      · rw [hbase] at hbase'
        cases hbase'
        rw [haccepts.1] at hindex
        cases hindex
      · exact absurd haccepts (hpasses type' base hbase).2

end Search

/-! ### The inputs of a directory -/

/-- The number is in range, and the search for a configuration throws. -/
def Aborts (configs : List Configuration) (d : Device) (number : ℕ) : Prop :=
  number < 2 ^ 32 ∧ FirstThrows configs d (hwmonInputIndex d number)

def Takes (configs : List Configuration) (d : Device) (number : ℕ) (c : Configuration)
    (type : SensorType) : Prop :=
  number < 2 ^ 32 ∧ FirstAccepts configs d (hwmonInputIndex d number) c type

section Inputs

variable {configs : List Configuration} {directory : String} {d : Device} {m : Match}

/-- The three ways the loop over the inputs goes on. -/
theorem matchInputs_cons (configs : List Configuration) (directory : String) (d : Device)
    (number : ℕ) (numbers : List ℕ) :
    (Aborts configs d number ∧ (∀ c type, ¬ Takes configs d number c type) ∧
      matchInputs configs directory d (number :: numbers) = ([], true)) ∨
    (¬ Aborts configs d number ∧ (∀ c type, ¬ Takes configs d number c type) ∧
      matchInputs configs directory d (number :: numbers) =
        matchInputs configs directory d numbers) ∨
    ∃ c type, ¬ Aborts configs d number ∧
      (∀ c' type', Takes configs d number c' type' ↔ c' = c ∧ type' = type) ∧
      matchInputs configs directory d (number :: numbers) =
        (⟨directory, number, c, type⟩ :: (matchInputs configs directory d numbers).1,
          (matchInputs configs directory d numbers).2) := by
  unfold Aborts Takes
  simp only [← findConfiguration_eq_some_iff, ← findConfiguration_eq_none_iff]
  rw [matchInputs]
  by_cases hrange : number < 2 ^ 32
  swap
  · have hstoul : stoul number = none := if_neg hrange
    simp only [hstoul, hrange, false_and, not_false_eq_true, implies_true, true_and]
    exact .inr (.inl trivial)
  have hstoul : stoul number = some number := if_pos hrange
  simp only [hstoul, hrange, true_and]
  cases hfind : findConfiguration d (hwmonInputIndex d number) configs with
  | none => simp
  | some found =>
    cases found with
    | none => simp
    | some ct =>
      obtain ⟨c, type⟩ := ct
      refine .inr (.inr ⟨c, type, by simp, fun c' type' => ?_, by simp⟩)
      simp [eq_comm]

/-- A match of the directory: no input before it aborts, and its configuration takes the input. -/
theorem mem_matchInputs_iff {numbers : List ℕ} :
    m ∈ (matchInputs configs directory d numbers).1 ↔ m.directory = directory ∧
      Scan.First (fun n => ¬ Aborts configs d n)
        (fun n => n = m.number ∧ Takes configs d n m.configuration m.type) numbers := by
  induction numbers with
  | nil => simp [matchInputs]
  | cons number numbers ih =>
    rw [Scan.first_cons]
    obtain ⟨hab, htakes, h⟩ | ⟨hab, htakes, h⟩ | ⟨c, type, hab, htakes, h⟩ :=
      matchInputs_cons configs directory d number numbers
    · simp [h, hab, htakes]
    · simp [h, hab, htakes, ih]
    · rw [h, List.mem_cons, ih]
      constructor
      · rintro (rfl | ⟨hdir, hfirst⟩)
        · exact ⟨rfl, .inl ⟨rfl, (htakes c type).mpr ⟨rfl, rfl⟩⟩⟩
        · exact ⟨hdir, .inr ⟨hab, hfirst⟩⟩
      · rintro ⟨rfl, ⟨rfl, ht⟩ | ⟨-, hfirst⟩⟩
        · obtain ⟨rfl, rfl⟩ := (htakes _ _).mp ht
          exact .inl rfl
        · exact .inr ⟨rfl, hfirst⟩

theorem matchInputs_stops_iff {numbers : List ℕ} :
    (matchInputs configs directory d numbers).2 = true ↔ ∃ n ∈ numbers, Aborts configs d n := by
  induction numbers with
  | nil => simp [matchInputs]
  | cons number numbers ih =>
    obtain ⟨hab, -, h⟩ | ⟨hab, -, h⟩ | ⟨c, type, hab, -, h⟩ :=
      matchInputs_cons configs directory d number numbers
    · simp [h, hab]
    · simp [h, hab, ih]
    · simp [h, hab, ih]

end Inputs

/-! ### The directories -/

section Directories

variable (configs : List Configuration) (sysfs : String → Directory) (directory : String)

/-- Before the search for some input throws, the configuration is taken for the input. -/
def Taken (d : Device) (number : ℕ) (c : Configuration) (type : SensorType) : Prop :=
  HasDevice sysfs directory d ∧ ∃ inputs ∈ (sysfs directory).inputs,
    Scan.First (fun n => ¬ Aborts configs d n) (fun n => n = number ∧ Takes configs d n c type)
      inputs

/-- The device link is missing, a part of the name is out of range, the inputs cannot be found, or
the search for one of them throws. -/
def Stops : Prop :=
  (sysfs directory).deviceName = none ∨
    (∃ deviceName ∈ (sysfs directory).deviceName, parseDeviceName deviceName = .throws) ∨
    ∃ d, HasDevice sysfs directory d ∧
      ((sysfs directory).inputs = none ∨
        ∃ inputs ∈ (sysfs directory).inputs, ∃ n ∈ inputs, Aborts configs d n)

variable {configs sysfs directory}

/-- What is found in a directory, and whether the scan ends there. -/
theorem visitDirectory_spec :
    (∀ m, m ∈ (visitDirectory configs sysfs directory).1 ↔ m.directory = directory ∧
      ∃ d, Taken configs sysfs directory d m.number m.configuration m.type) ∧
    ((visitDirectory configs sysfs directory).2 = true ↔ Stops configs sysfs directory) := by
  unfold visitDirectory Taken Stops HasDevice
  cases hname : (sysfs directory).deviceName with
  | none => simp
  | some deviceName =>
    dsimp only
    cases hparse : parseDeviceName deviceName with
    | skipped => simp [hparse]
    | throws => simp [hparse]
    | device d =>
      cases hinputs : (sysfs directory).inputs with
      | none => simp [hparse]
      | some inputs => simp [hparse, mem_matchInputs_iff, matchInputs_stops_iff]

/-- The directory of a path whose driver is supported. -/
def HwmonPath.key (p : HwmonPath) : Option String := if p.supported then some p.directory else none

theorem HwmonPath.key_eq_some {p : HwmonPath} :
    p.key = some directory ↔ p.supported = true ∧ p.directory = directory := by
  unfold HwmonPath.key
  by_cases h : p.supported = true
  · simp [h]
  · simp [h]

theorem createSensorsCallback_eq_scan (directories : List String) (hwmonPaths : List HwmonPath) :
    createSensorsCallback configs sysfs directories hwmonPaths =
      Scan.scan HwmonPath.key (visitDirectory configs sysfs) directories hwmonPaths := by
  induction hwmonPaths generalizing directories with
  | nil => rfl
  | cons p hwmonPaths ih =>
    rw [createSensorsCallback]
    by_cases hsupported : p.supported = true
    · have hkey : p.key = some p.directory := HwmonPath.key_eq_some.mpr ⟨hsupported, rfl⟩
      rw [if_neg (not_not.mpr hsupported)]
      by_cases hseen : p.directory ∈ directories
      · rw [if_pos hseen, Scan.scan_cons_seen hkey hseen, ih]
      · rw [if_neg hseen, Scan.scan_cons_new hkey hseen]
        dsimp only
        by_cases hstop : (visitDirectory configs sysfs p.directory).2 = true
        · rw [if_pos hstop, if_pos hstop, List.append_nil]
        · rw [if_neg hstop, if_neg hstop, ih]
    · have hkey : p.key = none := if_neg hsupported
      rw [if_pos hsupported, Scan.scan_cons_none hkey, ih]

theorem forall_hasKey_iff {hwmonPaths : List HwmonPath} {P : String → Prop} :
    (∀ k, Scan.HasKey HwmonPath.key hwmonPaths k → P k) ↔
      ∀ p ∈ hwmonPaths, p.supported = true → P p.directory := by
  unfold Scan.HasKey
  simp only [HwmonPath.key_eq_some]
  constructor
  · exact fun h p hp hsupported => h _ ⟨p, hp, hsupported, rfl⟩
  · rintro h k ⟨p, hp, hsupported, rfl⟩
    exact h p hp hsupported

theorem exists_hasKey_iff {hwmonPaths : List HwmonPath} {P : String → Prop} :
    (∃ k, Scan.HasKey HwmonPath.key hwmonPaths k ∧ P k) ↔
      ∃ p ∈ hwmonPaths, p.supported = true ∧ P p.directory := by
  unfold Scan.HasKey
  simp only [HwmonPath.key_eq_some]
  constructor
  · rintro ⟨k, ⟨p, hp, hsupported, rfl⟩, hP⟩
    exact ⟨p, hp, hsupported, hP⟩
  · rintro ⟨p, hp, hsupported, hP⟩
    exact ⟨_, ⟨p, hp, hsupported, rfl⟩, hP⟩

end Directories

/-! ### Right matches -/

/-- A match is right: an "ADC" configuration is matched on "iio-hwmon", and the index of the input
is in the range of `int`. -/
def Right (d : Device) (number : ℕ) : SensorType → Prop
  | .adc => d = .iioHwmon ∧ number ≤ 2 ^ 31
  | .i2cadc => number < 2 ^ 31

theorem Configuration.find_of_base {c : Configuration} {type : SensorType} {base : BaseConfiguration}
    (h : c.base = some (type, base)) : c.find type = some base := by
  unfold Configuration.base sensorTypes at h
  rw [List.findSome?_cons, List.findSome?_cons, List.findSome?_nil] at h
  cases hadc : c.find .adc with
  | some b =>
    rw [hadc] at h
    cases h
    exact hadc
  | none =>
    rw [hadc] at h
    cases hi2c : c.find .i2cadc with
    | some b =>
      rw [hi2c] at h
      cases h
      exact hi2c
    | none =>
      rw [hi2c] at h
      cases h

/-- The 0-based index of an input is right, as an `int`, exactly in this range. -/
theorem toInt_ofNat_sub_one_iff {n : ℕ} (hn : n < 2 ^ 32) :
    (BitVec.ofNat 32 n - 1).toInt = (n : ℤ) - 1 ↔ n ≤ 2 ^ 31 := by
  have hnat : (BitVec.ofNat 32 n).toNat = n := by
    rw [BitVec.toNat_ofNat]
    omega
  have hone : (1 : BitVec 32).toNat = 1 := rfl
  rw [BitVec.toInt_eq_toNat_cond, BitVec.toNat_sub, hnat, hone]
  split <;> omega

theorem toInt_ofNat_iff {n : ℕ} (hn : n < 2 ^ 32) :
    (BitVec.ofNat 32 n).toInt = (n : ℤ) ↔ n < 2 ^ 31 := by
  have hnat : (BitVec.ofNat 32 n).toNat = n := by
    rw [BitVec.toNat_ofNat]
    omega
  rw [BitVec.toInt_eq_toNat_cond, hnat]
  split <;> omega

theorem sameAddress_iff {d : Device} {base : BaseConfiguration} :
    sameAddress d base = true ↔
      ∃ bus addr, d = .i2c bus addr ∧ base.bus = some (some bus) ∧
        base.address = some (some addr) := by
  constructor
  · intro h
    unfold sameAddress at h
    split at h
    case h_1 bus addr confBus confAddr hbus haddr =>
      simp only [Bool.and_eq_true, beq_iff_eq] at h
      obtain ⟨rfl, rfl⟩ := h
      exact ⟨_, _, rfl, hbus, haddr⟩
    case h_2 => cases h
  · rintro ⟨bus, addr, rfl, hbus, haddr⟩
    simp [sameAddress, hbus, haddr]

/-- An input fits the configuration that is taken for it exactly if the match is right. -/
theorem Takes.fits_iff {configs : List Configuration} {d : Device} {number : ℕ} {c : Configuration}
    {type : SensorType} (h : Takes configs d number c type) :
    (c ∈ configs ∧ ∃ base, c.find type = some base ∧ Fits d number type base) ↔
      Right d number type := by
  obtain ⟨hrange, hfirst⟩ := h
  obtain ⟨c, hc, rfl, base, hbase, hindex, haddress⟩ := hfirst.exists_mem
  have hfind := Configuration.find_of_base hbase
  rw [and_iff_right hc, hfind]
  simp only [Option.some_inj, exists_eq_left', Fits, Right]
  cases type with
  | adc =>
    simp only [hindex, Option.some_inj, exists_eq_left']
    refine and_congr_right fun hd => ?_
    subst hd
    exact toInt_ofNat_sub_one_iff hrange
  | i2cadc =>
    have hsame := sameAddress_iff.mp (haddress rfl)
    simp only [hindex, Option.some_inj, exists_eq_left', and_iff_right hsame]
    obtain ⟨bus, addr, rfl, -⟩ := hsame
    exact toInt_ofNat_iff hrange

section Theorem

variable {configs : List Configuration} {sysfs : String → Directory} {hwmonPaths : List HwmonPath}

theorem HasDevice.unique {directory : String} {d d' : Device} (h : HasDevice sysfs directory d)
    (h' : HasDevice sysfs directory d') : d = d' := by
  obtain ⟨name, hname, hparse⟩ := h
  obtain ⟨name', hname', hparse'⟩ := h'
  obtain rfl := Option.mem_unique hname hname'
  rw [hparse] at hparse'
  cases hparse'
  rfl

theorem Taken.fits_iff {m : Match} {d : Device}
    (h : Taken configs sysfs m.directory d m.number m.configuration m.type) :
    m.Fits configs sysfs ↔ Right d m.number m.type := by
  obtain ⟨hdevice, inputs, hinputs, hfirst⟩ := h
  obtain ⟨n, hn, rfl, htakes⟩ := hfirst.exists_mem
  rw [← htakes.fits_iff]
  constructor
  · rintro ⟨d', base, ⟨hdevice', -⟩, hc, hfind, hfits⟩
    obtain rfl := hdevice.unique hdevice'
    exact ⟨hc, base, hfind, hfits⟩
  · rintro ⟨hc, base, hfind, hfits⟩
    exact ⟨d, base, ⟨hdevice, inputs, hinputs, hn⟩, hc, hfind, hfits⟩

/-- All matches of a directory fit. -/
theorem visit_forall_iff {directory : String} :
    (∀ m ∈ (visitDirectory configs sysfs directory).1, m.Fits configs sysfs) ↔
      ∀ d number c type, Taken configs sysfs directory d number c type → Right d number type := by
  simp only [visitDirectory_spec.1]
  constructor
  · intro h d number c type htaken
    have hfits := h ⟨directory, number, c, type⟩ ⟨rfl, d, htaken⟩
    exact (Taken.fits_iff (m := ⟨directory, number, c, type⟩) htaken).mp hfits
  · rintro h m ⟨rfl, d, htaken⟩
    exact htaken.fits_iff.mpr (h d _ _ _ htaken)

theorem visit_exists_iff {directory : String} {c : Configuration} {type : SensorType}
    (hright : ∀ m ∈ (visitDirectory configs sysfs directory).1, m.Fits configs sysfs) :
    (∃ m ∈ (visitDirectory configs sysfs directory).1,
        m.Fits configs sysfs ∧ m.configuration = c ∧ m.type = type) ↔
      ∃ d number, Taken configs sysfs directory d number c type := by
  constructor
  · rintro ⟨m, hm, -, rfl, rfl⟩
    obtain ⟨rfl, d, htaken⟩ := (visitDirectory_spec.1 m).mp hm
    exact ⟨d, m.number, htaken⟩
  · rintro ⟨d, number, htaken⟩
    have hm : (⟨directory, number, c, type⟩ : Match) ∈ (visitDirectory configs sysfs directory).1 :=
      (visitDirectory_spec.1 _).mpr ⟨rfl, d, htaken⟩
    exact ⟨_, hm, hright _ hm, rfl, rfl⟩

end Theorem

/-- No configuration is matched wrongly; and each that names an input is taken for some input, and
for one in each directory that ends the scan. -/
def Clean (configs : List Configuration) (sysfs : String → Directory) (hwmonPaths : List HwmonPath) :
    Prop :=
  (∀ p ∈ hwmonPaths, p.supported = true → ∀ d number c type,
      Taken configs sysfs p.directory d number c type → Right d number type) ∧
    ∀ c ∈ configs, ∀ type, Wanted sysfs hwmonPaths c type →
      (∃ p ∈ hwmonPaths, p.supported = true ∧
        ∃ d number, Taken configs sysfs p.directory d number c type) ∧
      ∀ p ∈ hwmonPaths, p.supported = true → Stops configs sysfs p.directory →
        ∃ d number, Taken configs sysfs p.directory d number c type

/-- The two halves of what is wanted, over the visits. -/
theorem matchesAll_iff (configs : List Configuration) (sysfs : String → Directory)
    (hwmonPaths : List HwmonPath) :
    MatchesAll configs sysfs hwmonPaths ↔
      (∀ p ∈ hwmonPaths, p.supported = true →
        ∀ m ∈ (visitDirectory configs sysfs p.directory).1, m.Fits configs sysfs) ∧
      ∀ c ∈ configs, ∀ type, Wanted sysfs hwmonPaths c type →
        (∃ p ∈ hwmonPaths, p.supported = true ∧ ∃ m ∈ (visitDirectory configs sysfs p.directory).1,
          m.Fits configs sysfs ∧ m.configuration = c ∧ m.type = type) ∧
        ∀ p ∈ hwmonPaths, p.supported = true → Stops configs sysfs p.directory →
          ∃ m ∈ (visitDirectory configs sysfs p.directory).1,
            m.Fits configs sysfs ∧ m.configuration = c ∧ m.type = type := by
  have hsound : (∀ l, l.Perm hwmonPaths → ∀ m ∈ Scan.scan HwmonPath.key
      (visitDirectory configs sysfs) [] l, m.Fits configs sysfs) ↔ _ := Scan.forall_perm_forall_iff
  have hcomplete : ∀ c type, (∀ l, l.Perm hwmonPaths → ∃ m ∈ Scan.scan HwmonPath.key
      (visitDirectory configs sysfs) [] l,
        m.Fits configs sysfs ∧ m.configuration = c ∧ m.type = type) ↔ _ :=
    fun c type => Scan.forall_perm_exists_iff
  simp only [forall_hasKey_iff, exists_hasKey_iff, visitDirectory_spec.2] at hsound hcomplete
  unfold MatchesAll
  simp only [createSensorsCallback_eq_scan, ← hsound, ← hcomplete]
  constructor
  · intro h
    exact ⟨fun l hperm => (h l hperm).1,
      fun c hc type hwanted l hperm => (h l hperm).2 c hc type hwanted⟩
  · rintro ⟨hsound, hcomplete⟩ l hperm
    exact ⟨hsound l hperm, fun c hc type hwanted => hcomplete c hc type hwanted l hperm⟩

end MetaCommon.AdcSensor
