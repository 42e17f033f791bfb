import Mathlib.Data.List.FinRange
import Mathlib.Data.Vector.Basic
import Mathlib.Logic.Function.Basic
import Mathlib.Tactic.Common
import MetaCommon.Lib.Leases

/-!
# The directories of MDR version 2

The class `MDRV2` keeps one directory for each of its two agents. An entry of a directory carries
the description of a table, the stage and the lock of its transfer and the storage of the bytes. All
entries share one lock timer, one mapping of the shared memory and one current agent. An agent index
is an index of `mdrv2Dir`, or `lastAgentIndex`, the value -1 of the source, which is `none` here.
-/

namespace MetaCommon.Mdrv2

abbrev maxDirEntries : ℕ := 4
abbrev maxAgentID : ℕ := 2

abbrev AgentIndex := Fin maxAgentID
abbrev DirIndex := Fin maxDirEntries

/-- An entry is named by its agent and its index in the directory of the agent. -/
abbrev EntryIndex := AgentIndex × DirIndex

def smbiosAgentId : UInt16 := 0x0101
def acpiAgentId : UInt16 := 0x0102
def lastAgentId : UInt16 := 0xFFFF
def firstAgentIndex : AgentIndex := 1
def acpiAgentIndex : AgentIndex := 0
def lastAgentIndex : Option AgentIndex := none
def mdrv2DirIndex : DirIndex := 0

def smbiosTableStorageSize : UInt32 := 64 * 1024
def acpiTableStorageSize : UInt32 := 737 * 1024
def smbiosSMMemorySize : UInt32 := 1024 * 1024
def acpiSMMemorySize : UInt32 := 1024 * 1024
def smbiosTableVersion : UInt32 := 15
def acpiTableVersion : UInt32 := 1
def smbiosTableTimestamp : UInt32 := 0x45464748
def acpiTableTimestamp : UInt32 := 0
def mdrType2File : String := "/var/lib/smbios/smbios2"
def acpiType2File : String := "/var/lib/acpi/acpi2"
def smbiosMdrv2Path : String := "/xyz/openbmc_project/Smbios/MDR_V2"
def smbiosMdrv2Interface : String := "xyz.openbmc_project.Smbios.MDR_V2"
def mdr2Version : UInt8 := 2
def mdrTypeII : UInt8 := 2
def uintMax : UInt32 := 0xFFFFFFFF
def invalidChecksum : UInt32 := 0xFFFFFFFF

inductive MDR2SMBIOSStatusEnum
  | mdr2Init
  | mdr2Loaded
  | mdr2Updated
  | mdr2Updating
  deriving DecidableEq, Repr

inductive MDR2DirLockEnum
  | mdr2DirUnlock
  | mdr2DirLock
  deriving DecidableEq, Repr

/-- The array a `dataStorage` pointer points to: its address, its size and its bytes. -/
structure TableStorage where
  addr : UInt32
  cap : ℕ
  bytes : ℕ → UInt8

/-- The null pointer. -/
def TableStorage.null : TableStorage := ⟨0, 0, fun _ => 0⟩

structure Mdr2DirEntry where
  dataInfo : Vector UInt8 16
  size : UInt32
  dataSetSize : UInt32
  dataVersion : UInt32
  timestamp : UInt32

structure Mdr2DirLocalStruct where
  common : Mdr2DirEntry
  stage : MDR2SMBIOSStatusEnum
  lock : MDR2DirLockEnum
  lockHandle : UInt16
  xferBuff : UInt32
  xferSize : UInt32
  maxDataSize : UInt32
  dataStorage : TableStorage

/-- `dirEntries` counts the entries in use. It never exceeds the array. -/
structure Mdr2DirStruct where
  dirEntries : Fin (maxDirEntries + 1)
  sessionHandle : UInt16
  dir : DirIndex → Mdr2DirLocalStruct
  overrideFlag : UInt8
  fileName : String
  mdrv2Interface : Option String
  mdrv2Path : Option String

structure MDRSMBIOSHeader where
  mdrType : UInt8
  dirVer : UInt32
  timestamp : UInt32
  dataSize : UInt32
  deriving DecidableEq, Repr

/-- The contents of a persisted table file. -/
structure TableFile where
  header : MDRSMBIOSHeader
  data : List UInt8
  deriving DecidableEq, Repr

/-- What happened to the locks: a grant of `smbiosTryLock`, the response that hands its session
number to the host, the release by a command, and an expiry of the timer. -/
abbrev LockEvent := Leases.Event EntryIndex UInt16

/-- The object and the files it writes. `area` says that the shared memory is mapped, `timer` that
the timer runs. `history` records the lock events; nothing reads it. -/
structure MDRV2 where
  mdrv2Dir : AgentIndex → Mdr2DirStruct
  area : Bool
  timer : Bool
  lockIndex : DirIndex
  currentAgentIndex : Option AgentIndex
  files : String → Option TableFile
  history : List LockEvent

/-- The id in the first entry of both directories. -/
def firstDataInfo : Vector UInt8 16 :=
  #v[40, 41, 42, 43, 44, 45, 46, 47, 48, 49, 50, 51, 52, 53, 54, 0x42]

/-- The entries behind the first are zero-initialised. -/
def zeroEntry : Mdr2DirLocalStruct where
  common := ⟨Vector.replicate 16 0, 0, 0, 0, 0⟩
  stage := .mdr2Init
  lock := .mdr2DirUnlock
  lockHandle := 0
  xferBuff := 0
  xferSize := 0
  maxDataSize := 0
  dataStorage := .null

def firstEntry (storageSize version timestamp smSize : UInt32) (storage : TableStorage) :
    Mdr2DirLocalStruct where
  common := ⟨firstDataInfo, 0, storageSize, version, timestamp⟩
  stage := .mdr2Init
  lock := .mdr2DirUnlock
  lockHandle := 0
  xferBuff := 0
  xferSize := smSize
  maxDataSize := storageSize
  dataStorage := storage

def acpiDir (storage : TableStorage) : Mdr2DirStruct where
  dirEntries := 1
  sessionHandle := 0
  dir := Function.update (fun _ => zeroEntry) 0 (firstEntry acpiTableStorageSize acpiTableVersion
    acpiTableTimestamp acpiSMMemorySize storage)
  overrideFlag := 1
  fileName := acpiType2File
  mdrv2Interface := none
  mdrv2Path := none

def smbiosDir (storage : TableStorage) : Mdr2DirStruct where
  dirEntries := 1
  sessionHandle := 0
  dir := Function.update (fun _ => zeroEntry) 0 (firstEntry smbiosTableStorageSize
    smbiosTableVersion smbiosTableTimestamp smbiosSMMemorySize storage)
  overrideFlag := 0
  fileName := mdrType2File
  mdrv2Interface := some smbiosMdrv2Interface
  mdrv2Path := some smbiosMdrv2Path

/-- Where the two storage arrays of the object lie and what they hold at first. -/
structure Memory where
  acpiAddr : UInt32
  smbiosAddr : UInt32
  acpiTableStorage : ℕ → UInt8
  smbiosTableStorage : ℕ → UInt8
  acpi_fits : acpiAddr.toNat + acpiTableStorageSize.toNat ≤ uintMax.toNat
  smbios_fits : smbiosAddr.toNat + smbiosTableStorageSize.toNat ≤ uintMax.toNat

def Memory.storage (m : Memory) (a : AgentIndex) : TableStorage :=
  if a = acpiAgentIndex then ⟨m.acpiAddr, acpiTableStorageSize.toNat, m.acpiTableStorage⟩
  else ⟨m.smbiosAddr, smbiosTableStorageSize.toNat, m.smbiosTableStorage⟩

/-- The object as constructed, with the files of earlier runs on flash. -/
def MDRV2.init (m : Memory) (files : String → Option TableFile) : MDRV2 where
  mdrv2Dir a := if a = acpiAgentIndex then acpiDir (m.storage a) else smbiosDir (m.storage a)
  area := false
  timer := false
  lockIndex := 0
  currentAgentIndex := some 0
  files := files
  history := []

namespace MDRV2

variable (s : MDRV2)

def entry (a : AgentIndex) (i : DirIndex) : Mdr2DirLocalStruct := (s.mdrv2Dir a).dir i

def setDir (a : AgentIndex) (d : Mdr2DirStruct) : MDRV2 :=
  { s with mdrv2Dir := Function.update s.mdrv2Dir a d }

def setEntry (a : AgentIndex) (i : DirIndex) (e : Mdr2DirLocalStruct) : MDRV2 :=
  s.setDir a { s.mdrv2Dir a with dir := Function.update (s.mdrv2Dir a).dir i e }

def note (e : LockEvent) : MDRV2 := { s with history := s.history ++ [e] }

/-- `MDRV2::agentLookup`. Unlike every other unknown id, 0xFFFF resets the current agent. -/
def agentLookup (agentId : UInt16) : Option AgentIndex × MDRV2 :=
  if lastAgentId = agentId then
    (lastAgentIndex, { s with currentAgentIndex := lastAgentIndex })
  else if agentId = smbiosAgentId then
    (some firstAgentIndex, { s with currentAgentIndex := some firstAgentIndex })
  else if agentId = acpiAgentId then
    (some acpiAgentIndex, { s with currentAgentIndex := some acpiAgentIndex })
  else (none, s)

/-- `MDRV2::findLockHandle`: the first entry in use that carries the handle. -/
def findLockHandle (a : AgentIndex) (lockHandle : UInt16) : Option DirIndex :=
  (List.finRange maxDirEntries).find? fun i =>
    i.val < (s.mdrv2Dir a).dirEntries.val ∧ lockHandle = (s.entry a i).lockHandle

/-- `MDRV2::smbiosIsUpdating`. -/
def smbiosIsUpdating (a : AgentIndex) (i : DirIndex) : Bool :=
  (s.entry a i).stage = .mdr2Updating

end MDRV2

/-- The test in front of every call of the D-Bus service: the agent keeps its directory itself. -/
def Mdr2DirStruct.noService (d : Mdr2DirStruct) : Bool :=
  d.overrideFlag ≠ 0 || d.mdrv2Interface.isNone || d.mdrv2Path.isNone

/-- The settings of a directory that no command changes. -/
def Mdr2DirStruct.config (d : Mdr2DirStruct) : UInt8 × String × Option String × Option String :=
  (d.overrideFlag, d.fileName, d.mdrv2Interface, d.mdrv2Path)

theorem Mdr2DirStruct.noService_congr {d d' : Mdr2DirStruct} (h : d.config = d'.config) :
    d.noService = d'.noService := by
  simp only [config, Prod.mk.injEq] at h
  simp only [noService, h]

/-- The search of `LockData` and `DataStart` in the agent's own directory. -/
def Mdr2DirStruct.findDataInfo (d : Mdr2DirStruct) (dataInfo : Vector UInt8 16) :
    Option DirIndex :=
  (List.finRange maxDirEntries).find? fun i =>
    i.val < d.dirEntries.val ∧ dataInfo = (d.dir i).common.dataInfo

/-- The range check on the answer of `MDRV2::findDataId`. -/
def checkDataId (idIndex : ℤ) : Option DirIndex :=
  if h : 0 ≤ idIndex ∧ idIndex < maxDirEntries then
    some ⟨idIndex.toNat, by omega⟩
  else none

namespace MDRV2

variable (s : MDRV2)

@[simp] theorem entry_setEntry_self (a : AgentIndex) (i : DirIndex) (e : Mdr2DirLocalStruct) :
    (s.setEntry a i e).entry a i = e := by
  simp [entry, setEntry, setDir]

theorem entry_setEntry_of_ne {a b : AgentIndex} {i j : DirIndex} (e : Mdr2DirLocalStruct)
    (h : (b, j) ≠ (a, i)) : (s.setEntry a i e).entry b j = s.entry b j := by
  by_cases hb : b = a
  · subst hb
    have hj : j ≠ i := fun hj => h (by rw [hj])
    simp [entry, setEntry, setDir, hj]
  · simp [entry, setEntry, setDir, hb]

theorem setEntry_config (a b : AgentIndex) (i : DirIndex) (e : Mdr2DirLocalStruct) :
    ((s.setEntry a i e).mdrv2Dir b).config = (s.mdrv2Dir b).config := by
  by_cases hb : b = a
  · subst hb
    simp [setEntry, setDir, Mdr2DirStruct.config]
  · simp [setEntry, setDir, hb]

theorem findLockHandle_eq_some {a : AgentIndex} {h : UInt16} {i : DirIndex}
    (hf : s.findLockHandle a h = some i) :
    i.val < (s.mdrv2Dir a).dirEntries.val ∧ (s.entry a i).lockHandle = h := by
  have := List.find?_some hf
  simp only [decide_eq_true_eq] at this
  exact ⟨this.1, this.2.symm⟩

end MDRV2

end MetaCommon.Mdrv2
