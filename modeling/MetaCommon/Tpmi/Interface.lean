import MetaCommon.Lib.Runs
import MetaCommon.Tpmi.Cache

/-!
# SST interface objects over the cache

An `SSTTPMI` object keeps an `SSTRegisterSet`, which points to the CPU and feature records that the
cache held when the register set was made. The events of the daemon are the D-Bus signals and
answers, and the creation and `ready` calls of interface objects.
-/

namespace MetaCommon.Tpmi

def minClientAddr : ℤ := 0x30

/-- `SSTRegisterSet`: the records that `cpu` and `feature` point to, and the index. -/
structure SSTRegisterSet where
  cpu : ℕ
  feature : ℕ
  cpuIndex : UInt8
deriving DecidableEq

/-- The constructor, undefined where it throws. -/
def SSTRegisterSet.make (c : TPMIDBusCache) (cpuIndex : UInt8) : Option SSTRegisterSet :=
  if c.Contains cpuIndex.toNat then
    some ⟨c.cpus.idFor cpuIndex.toNat, c.features.idFor cpuIndex.toNat, cpuIndex⟩
  else none

/-- The conversion of the index to the `uint8_t` that the register set takes. -/
def toUInt8 (i : ℤ) : UInt8 := UInt8.ofNat (i % 256).toNat

structure SSTTPMI where
  address : ℤ
  intf : Option SSTRegisterSet
deriving DecidableEq

namespace SSTTPMI

variable (c : TPMIDBusCache) (o : SSTTPMI)

def cpuIndex : ℤ := o.address - minClientAddr

/-- The constructor, undefined where that of the register set throws. -/
def make (address : ℤ) : Option SSTTPMI :=
  if c.Contains (address - minClientAddr) then
    (SSTRegisterSet.make c (toUInt8 (address - minClientAddr))).map fun rs => ⟨address, some rs⟩
  else some ⟨address, none⟩

/-- The record is enabled and not accessed through the PCS path. -/
def available (index : ℤ) : Bool :=
  match c.features.entry index with
  | none => false
  | some feature => feature.value.enabled && !feature.value.usePCS

/-- The answer of `ready`, undefined where it throws, and the object afterwards. -/
def ready : Option Bool × SSTTPMI :=
  if c.Contains o.cpuIndex then
    match o.intf with
    | some _ => (some (available c o.cpuIndex), o)
    | none =>
      match SSTRegisterSet.make c (toUInt8 o.cpuIndex) with
      | none => (none, o)
      | some rs => (some (available c o.cpuIndex), { o with intf := some rs })
  else (some false, o)

end SSTTPMI

structure Daemon where
  cache : TPMIDBusCache
  /-- The answer to `GetSubTree` has not come yet. -/
  subTreePending : Bool
  objects : List SSTTPMI

/-- The answers name the pending call they belong to by its position. -/
inductive Event
  | signal (path : ObjectPath) (s : Signal)
  | subTree (reply : Option (List (ObjectPath × List String)))
  | properties (n : ℕ) (reply : Option Properties)
  | propertyWritten (n : ℕ) (ok : Bool)
  | create (address : ℤ)
  | ready (k : ℕ)

namespace Daemon

def init : Daemon where
  cache := .init
  subTreePending := true
  objects := []

/-- Undefined where an exception leaves the handler of a signal or of an answer. -/
def step (s : Daemon) : Event → Option Daemon
  | .signal path signal =>
    (s.cache.handleTPMISignal path signal).map fun c => { s with cache := c }
  | .subTree reply =>
    match s.subTreePending, reply with
    | true, some paths => (s.cache.handleGetTPMISubTree paths).map fun c =>
        { s with cache := c, subTreePending := false }
    | _, _ => some { s with subTreePending := false }
  | .properties n reply =>
    match s.cache.reads[n]? with
    | none => some s
    | some read => some { s with
        cache := { s.cache with reads := s.cache.reads.eraseIdx n }.handleProperties read reply }
  | .propertyWritten n ok =>
    match s.cache.writes[n]? with
    | none => some s
    | some w => ({ s.cache with writes := s.cache.writes.eraseIdx n }.propertyWritten w ok).map
        fun c => { s with cache := c }
  | .create address =>
    match SSTTPMI.make s.cache address with
    | none => some s
    | some o => some { s with objects := s.objects ++ [o] }
  | .ready k => some { s with objects := s.objects.modify k fun o => (o.ready s.cache).2 }

/-- What `ready` answers on the object `k`. -/
def readyAnswer (s : Daemon) (k : ℕ) : Option Bool :=
  s.objects[k]?.bind fun o => (o.ready s.cache).1

end Daemon

end MetaCommon.Tpmi
