import Mathlib.Algebra.Group.Int.Defs
import Mathlib.Algebra.Group.Nat.Defs
import Mathlib.Data.List.Basic
import MetaCommon.Tpmi.Cache

/-!
# Matching of ADC inputs and configurations

The hwmon directories of the supported drivers are scanned one after the other. Each input is
matched with the first configuration that accepts it, and a sensor is made of the two. A directory,
or an input, may be skipped, and some failures end the whole scan. What is made of a match is
upstream.
-/

namespace MetaCommon.AdcSensor

inductive SensorType
  | adc
  | i2cadc
deriving DecidableEq

def sensorTypes : List SensorType := [.adc, .i2cadc]

def supportedDrivers : List String := ["iio_hwmon", "ads7828"]

/-- A missing entry is `none`, and so is the value of one that is no number, for "Index", or no
`uint64_t`, for "Bus" and "Address". -/
structure BaseConfiguration where
  index : Option (Option (BitVec 32))
  bus : Option (Option ℕ)
  address : Option (Option ℕ)
deriving DecidableEq

/-- An object of Entity-Manager, with its configuration interfaces. -/
structure Configuration where
  path : String
  adc : Option BaseConfiguration
  i2cadc : Option BaseConfiguration
deriving DecidableEq

/-- `cfgData.find(configInterfaceName(type))`. -/
def Configuration.find (c : Configuration) : SensorType → Option BaseConfiguration
  | .adc => c.adc
  | .i2cadc => c.i2cadc

/-- The first type that is found, and its configuration. -/
def Configuration.base (c : Configuration) : Option (SensorType × BaseConfiguration) :=
  sensorTypes.findSome? fun type => (c.find type).map fun base => (type, base)

/-! ### Devices -/

def isHexDigit (c : Char) : Bool :=
  c.isDigit || ('a' ≤ c && c ≤ 'f') || ('A' ≤ c && c ≤ 'F')

def hexDigit (c : Char) : ℕ :=
  if c.isDigit then c.toNat - '0'.toNat
  else if 'a' ≤ c ∧ c ≤ 'f' then c.toNat - 'a'.toNat + 10
  else c.toNat - 'A'.toNat + 10

/-- `std::stoi(s, nullptr, 16)`. -/
def stoi16 (s : List Char) : Except Tpmi.StoiException ℤ :=
  let body := s.dropWhile Tpmi.isSpace
  let unsigned := match body with
    | '-' :: rest => rest
    | '+' :: rest => rest
    | _ => body
  let number := match unsigned with
    | '0' :: x :: c :: rest => if (x = 'x' ∨ x = 'X') ∧ isHexDigit c then c :: rest else unsigned
    | _ => unsigned
  let digits := number.takeWhile isHexDigit
  let magnitude : ℤ := digits.foldl (fun n c => 16 * n + hexDigit c) 0
  let value := if body.head? = some '-' then -magnitude else magnitude
  if digits = [] then .error .invalidArgument
  else if value < -2147483648 ∨ 2147483647 < value then .error .outOfRange
  else .ok value

/-- An `int` as a `size_t`. -/
def toSize (n : ℤ) : ℕ := (n % 2 ^ 32).toNat

inductive Device
  | iioHwmon
  | i2c (bus addr : ℕ)
deriving DecidableEq

/-- How a device name is read. -/
inductive DeviceName
  | skipped
  | throws
  | device (d : Device)
deriving DecidableEq

def iioHwmonName : List Char := "iio-hwmon".toList

/-- Only `invalid_argument` is caught. -/
def parseDeviceName (deviceName : List Char) : DeviceName :=
  if '-' ∉ deviceName then .skipped
  else if deviceName = iioHwmonName then .device .iioHwmon
  else
    let busStr := deviceName.takeWhile (· ≠ '-')
    let addrStr := (deviceName.dropWhile (· ≠ '-')).drop 1
    match Tpmi.stoi busStr with
    | .error .invalidArgument => .skipped
    | .error .outOfRange => .throws
    | .ok (bus, _) =>
      match stoi16 addrStr with
      | .error .invalidArgument => .skipped
      | .error .outOfRange => .throws
      | .ok addr => .device (.i2c (toSize bus) (toSize addr))

/-! ### The match of an input -/

/-- `std::stoul` of the number of an input; `none` if it is out of range. -/
def stoul (number : ℕ) : Option ℕ := if number < 2 ^ 32 then some number else none

/-- The index by which configurations name the input, an `int`. -/
def hwmonInputIndex (device : Device) (number : ℕ) : BitVec 32 :=
  match device with
  | .iioHwmon => BitVec.ofNat 32 number - 1
  | .i2c _ _ => BitVec.ofNat 32 number

/-- The check of "Bus" and "Address". -/
def sameAddress (device : Device) (base : BaseConfiguration) : Bool :=
  match device, base.bus, base.address with
  | .i2c bus addr, some (some confBus), some (some confAddr) => confBus == bus && confAddr == addr
  | _, _, _ => false

/-- The first configuration that accepts the input, with its type. The visitor of an index that is
not a number throws: `none`. -/
def findConfiguration (device : Device) (index : BitVec 32) :
    List Configuration → Option (Option (Configuration × SensorType))
  | [] => some none
  | c :: cs => match c.base with
    | none => findConfiguration device index cs
    | some (type, base) => match base.index with
      | none => findConfiguration device index cs
      | some none => none
      | some (some inputIndex) =>
        if index ≠ inputIndex then findConfiguration device index cs
        else if type = .i2cadc ∧ ¬ sameAddress device base then findConfiguration device index cs
        else some (some (c, type))

/-- An input, and the configuration that a sensor on it is made from. -/
structure Match where
  directory : String
  number : ℕ
  configuration : Configuration
  type : SensorType
deriving DecidableEq

/-- The matches of the inputs of a directory, and whether the scan ends there. -/
def matchInputs (configs : List Configuration) (directory : String) (device : Device) :
    List ℕ → List Match × Bool
  | [] => ([], false)
  | number :: numbers => match stoul number with
    | none => matchInputs configs directory device numbers
    | some n => match findConfiguration device (hwmonInputIndex device n) configs with
      | none => ([], true)
      | some none => matchInputs configs directory device numbers
      | some (some (c, type)) =>
        let (found, stop) := matchInputs configs directory device numbers
        (⟨directory, number, c, type⟩ :: found, stop)

/-! ### The directories -/

/-- The stem of the canonical path of "device", `none` if that throws, and the numbers of the
inputs, `none` if `findFiles` fails. -/
structure Directory where
  deviceName : Option (List Char)
  inputs : Option (List ℕ)

/-- A file "name" that was found: its directory, and what it reads, `none` if it is not good. -/
structure HwmonPath where
  directory : String
  driverName : Option String

def HwmonPath.supported (p : HwmonPath) : Bool :=
  match p.driverName with
  | none => false
  | some driverName => driverName ∈ supportedDrivers

/-- The work on a directory, and whether the scan ends there. -/
def visitDirectory (configs : List Configuration) (sysfs : String → Directory) (directory : String) :
    List Match × Bool :=
  match (sysfs directory).deviceName with
  | none => ([], true)
  | some deviceName => match parseDeviceName deviceName with
    | .skipped => ([], false)
    | .throws => ([], true)
    | .device device => match (sysfs directory).inputs with
      | none => ([], true)
      | some inputs => matchInputs configs directory device inputs

/-- The loop over the files "name" that were found, with the directories that it has inserted. -/
def createSensorsCallback (configs : List Configuration) (sysfs : String → Directory) :
    List String → List HwmonPath → List Match
  | _, [] => []
  | directories, p :: hwmonPaths =>
    if ¬ p.supported then createSensorsCallback configs sysfs directories hwmonPaths
    else if p.directory ∈ directories then createSensorsCallback configs sysfs directories hwmonPaths
    else
      let (found, stop) := visitDirectory configs sysfs p.directory
      if stop then found
      else found ++ createSensorsCallback configs sysfs (p.directory :: directories) hwmonPaths

end MetaCommon.AdcSensor
