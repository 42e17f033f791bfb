import MetaCommon.Lib.Buffer
import MetaCommon.Mdrv2.Lock

/-!
# The commands that lock, transfer and release a table

Each handler takes the request and what its environment answers while it runs: the replies of the
D-Bus service, whether the file system and the mapping of the shared memory work, and the bytes the
host has put into that memory. `none` as the result of a handler means undefined behaviour: an
access through a null pointer or outside an array. A failure is named after the check that reports
it.
-/

namespace MetaCommon.Mdrv2

open Buffer

inductive Failure
  | unknownAgentId
  | invalidDataId
  | serviceNotFound
  | fileSystem
  | dataLengthOutOfRange
  | xferOutOfRange
  | cannotLock
  | noSharedMemory
  | syncFailed
  | lockHandleOutOfRange
  | cannotUnlock
  | storeFailed
  | offsetOutOfRange
  | respLengthOutOfRange
  | addressOutOfRange
  | invalidChecksum
  | dataLengthExceeded
  | copyRefused
  | notUpdating
  deriving DecidableEq, Repr

inductive Reply
  | done
  | session (session : UInt16)
  | locked (mdr2Version : UInt8) (session : UInt16) (dataLength xferAddress xferLength : UInt32)
  | block (respXferLength checksum : UInt32) (data : List UInt8)
  deriving DecidableEq, Repr

abbrev Response := Except Failure Reply

/-- What the service says of a data id: `none` when `getService` throws, else the result of
`findDataId`, which is -1 when the call of `FindIdIndex` fails. -/
abbrev IdReply := Option ℤ

structure LockDataReq where
  agentId : UInt16
  dataInfo : Vector UInt8 16
  idReply : IdReply

structure DataStartReq where
  agentId : UInt16
  dataInfo : Vector UInt8 16
  dataLength : UInt32
  xferAddress : UInt32
  xferLength : UInt32
  idReply : IdReply
  /-- `exists` or `remove_all` throws. -/
  fileSystemFails : Bool
  /-- The constructor of `SharedMemoryArea` succeeds. -/
  maps : Bool
  /-- Size, version and timestamp from `SynchronizeDirectoryCommonData`, unless it fails. -/
  syncReply : Option (UInt32 × UInt32 × UInt32)

structure UnlockDataReq where
  agentId : UInt16
  lockHandle : UInt16

structure DataDoneReq where
  agentId : UInt16
  lockHandle : UInt16
  flashWorks : Bool
  /-- The status from `AgentSynchronizeData`, unless `getService` or the call throws. -/
  syncReply : Option Bool

structure GetDataBlockReq where
  agentId : UInt16
  lockHandle : UInt16
  xferOffset : UInt32
  xferLength : UInt32

structure SendDataBlockReq where
  agentId : UInt16
  lockHandle : UInt16
  xferOffset : UInt32
  xferLength : UInt32
  checksum : UInt32
  /-- The bytes in the shared memory. -/
  shared : ℕ → UInt8

/-- The entry a request means: the search in the agent's own directory, or the service's answer. -/
def Mdr2DirStruct.dataIdIndex (d : Mdr2DirStruct) (dataInfo : Vector UInt8 16)
    (idReply : IdReply) : Except Failure DirIndex :=
  if d.noService then
    match d.findDataInfo dataInfo with
    | some i => .ok i
    | none => .error .invalidDataId
  else
    match idReply with
    | none => .error .serviceNotFound
    | some idIndex =>
      match checkDataId idIndex with
      | some i => .ok i
      | none => .error .invalidDataId

/-- The length of a block of `GetDataBlock`, cut at the transfer window. -/
def Mdr2DirLocalStruct.windowSize (e : Mdr2DirLocalStruct) (xferLength : UInt32) : UInt32 :=
  if xferLength > e.xferSize then e.xferSize else xferLength

/-- The length of a block of `GetDataBlock`, cut at the end of the table. -/
def Mdr2DirLocalStruct.outSize (e : Mdr2DirLocalStruct) (xferOffset outSize : UInt32) : UInt32 :=
  if xferOffset + outSize > e.common.size then e.common.size - xferOffset else outSize

/-- `mdr2GetDataBlock` once it has found the entry. `size_t` has 32 bits, as `uint32_t` has. -/
def Mdr2DirLocalStruct.readBlock (P : Platform) (e : Mdr2DirLocalStruct) (r : GetDataBlockReq) :
    Option Response :=
  if r.xferOffset ≥ e.common.size then some (.error .offsetOutOfRange)
  else if e.windowSize r.xferLength > uintMax - r.xferOffset then some (.error .offsetOutOfRange)
  else
    let outSize := e.outSize r.xferOffset (e.windowSize r.xferLength)
    if P.respOutOfRange outSize r.xferLength then some (.error .respLengthOutOfRange)
    else if r.xferOffset + outSize > uintMax - e.dataStorage.addr then
      some (.error .addressOutOfRange)
    else if e.dataStorage.cap < r.xferOffset.toNat + outSize.toNat then none
    else
      let data := load e.dataStorage.bytes r.xferOffset.toNat outSize.toNat
      let u32Checksum := P.calcChecksum32 data
      if u32Checksum = invalidChecksum then some (.error .invalidChecksum)
      else some (.ok (.block outSize u32Checksum data))

namespace MDRV2

variable (P : Platform) (s : MDRV2)

/-- `mdr2LockData`. -/
def lockData (r : LockDataReq) : Response × MDRV2 :=
  match s.agentLookup r.agentId with
  | (none, s) => (.error .unknownAgentId, s)
  | (some a, s) =>
    match (s.mdrv2Dir a).dataIdIndex r.dataInfo r.idReply with
    | .error e => (.error e, s)
    | .ok i =>
      match s.smbiosTryLock P a false i with
      | (none, s) => (.error .cannotLock, s)
      | (some session, s) =>
        let e := s.entry a i
        (.ok (.locked mdr2Version session e.common.size e.xferBuff e.xferSize),
          s.note (.answered (a, i)))

/-- `mdr2UnlockData`. -/
def unlockData (r : UnlockDataReq) : Response × MDRV2 :=
  match s.agentLookup r.agentId with
  | (none, s) => (.error .unknownAgentId, s)
  | (some a, s) =>
    match s.findLockHandle a r.lockHandle with
    | none => (.error .lockHandleOutOfRange, s)
    | some i =>
      match s.smbiosUnlock a i with
      | (false, s) => (.error .cannotUnlock, s)
      | (true, s) => (.ok .done, s.note (.released (a, i)))

/-- The removal of the table file, in front of the search for the data id. -/
def removeFile (name : String) (fails : Bool) : Except Failure Unit × MDRV2 :=
  if fails then (.error .fileSystem, s)
  else (.ok (), { s with files := Function.update s.files name none })

/-- The part of `DataStart` that finds the entry. An agent without a service loses its file here. -/
def dataStartIndex (a : AgentIndex) (r : DataStartReq) : Except Failure DirIndex × MDRV2 :=
  if (s.mdrv2Dir a).noService then
    match s.removeFile (s.mdrv2Dir a).fileName r.fileSystemFails with
    | (.error e, s) => (.error e, s)
    | (.ok (), s) => ((s.mdrv2Dir a).dataIdIndex r.dataInfo r.idReply, s)
  else ((s.mdrv2Dir a).dataIdIndex r.dataInfo r.idReply, s)

/-- `MDRV2::syncDirCommonData`. -/
def syncDirCommonData (a : AgentIndex) (i : DirIndex)
    (reply : Option (UInt32 × UInt32 × UInt32)) : Bool × MDRV2 :=
  match reply with
  | none => (false, s)
  | some (dataSetSize, dataVersion, timestamp) =>
    let e := s.entry a i
    (true, s.setEntry a i { e with common := { e.common with
      dataSetSize := dataSetSize, dataVersion := dataVersion, timestamp := timestamp } })

/-- The assignments of `DataStart` once the shared memory is mapped. -/
def announce (a : AgentIndex) (i : DirIndex) (session : UInt16) (dataLength : UInt32) : MDRV2 :=
  let e := s.entry a i
  { s with area := true }.setEntry a i
    { e with common := { e.common with size := dataLength }, lockHandle := session }

/-- `mdr2DataStart`. The length is compared with the storage of the SMBIOS table for both agents. -/
def dataStart (r : DataStartReq) : Response × MDRV2 :=
  if smbiosTableStorageSize < r.dataLength then (.error .dataLengthOutOfRange, s)
  else if P.xferOutOfRange r.xferAddress r.xferLength then (.error .xferOutOfRange, s)
  else
    match s.agentLookup r.agentId with
    | (none, s) => (.error .unknownAgentId, s)
    | (some a, s) =>
      match s.dataStartIndex a r with
      | (.error e, s) => (.error e, s)
      | (.ok i, s) =>
        match s.smbiosTryLock P a true i with
        | (none, s) => (.error .cannotLock, s)
        | (some session, s) =>
          if r.maps then
            let s := s.announce a i session r.dataLength
            if (s.mdrv2Dir a).noService then (.ok (.session session), s.note (.answered (a, i)))
            else
              match s.syncDirCommonData a i r.syncReply with
              | (false, s) => (.error .syncFailed, s)
              | (true, s) => (.ok (.session session), s.note (.answered (a, i)))
          else (.error .noSharedMemory, (s.smbiosUnlock a i).2.note (.released (a, i)))

/-- `cmd_mdr2_data_done`. Header and bytes are those of the first entry. -/
def dataDone (r : DataDoneReq) : Response × MDRV2 :=
  match s.agentLookup r.agentId with
  | (none, s) => (.error .unknownAgentId, s)
  | (some a, s) =>
    match s.findLockHandle a r.lockHandle with
    | none => (.error .lockHandleOutOfRange, s)
    | some i =>
      match s.smbiosUnlock a i with
      | (false, s) => (.error .cannotUnlock, s)
      | (true, s) =>
        let s := { s.note (.released (a, i)) with area := false }
        let e := s.entry a mdrv2DirIndex
        let mdr2Smbios : MDRSMBIOSHeader :=
          ⟨mdrTypeII, e.common.dataVersion, e.common.timestamp, e.common.size⟩
        let name := (s.mdrv2Dir a).fileName
        let (stored, file) :=
          P.storeDatatoFlash r.flashWorks mdr2Smbios e.dataStorage.bytes (s.files name)
        let s := { s with files := Function.update s.files name file }
        if stored then
          if (s.mdrv2Dir a).noService then (.ok .done, s)
          else if r.syncReply = some true then (.ok .done, s)
          else (.error .syncFailed, s)
        else (.error .storeFailed, s)

/-- `mdr2GetDataBlock`. -/
def getDataBlock (r : GetDataBlockReq) : Option (Response × MDRV2) :=
  match s.agentLookup r.agentId with
  | (none, s) => some (.error .unknownAgentId, s)
  | (some a, s) =>
    match s.findLockHandle a r.lockHandle with
    | none => some (.error .lockHandleOutOfRange, s)
    | some i => ((s.entry a i).readBlock P r).map (·, s)

/-- `mdr2SendDataBlock`. The bounds are the capacity of the entry and its `dataSetSize`. -/
def sendDataBlock (r : SendDataBlockReq) : Option (Response × MDRV2) :=
  match s.agentLookup r.agentId with
  | (none, s) => some (.error .unknownAgentId, s)
  | (some a, s) =>
    match s.findLockHandle a r.lockHandle with
    | none => some (.error .lockHandleOutOfRange, s)
    | some i =>
      let e := s.entry a i
      if s.smbiosIsUpdating a i then
        if r.xferOffset > uintMax - r.xferLength then some (.error .offsetOutOfRange, s)
        else if r.xferOffset + r.xferLength > e.maxDataSize ∨
            r.xferOffset + r.xferLength > e.common.dataSetSize then
          some (.error .dataLengthExceeded, s)
        else if e.dataStorage.addr > uintMax - r.xferOffset then
          some (.error .addressOutOfRange, s)
        else if s.area then
          let block := load r.shared 0 r.xferLength.toNat
          if P.calcChecksum32 block ≠ r.checksum then some (.error .invalidChecksum, s)
          else if e.dataStorage.cap < r.xferOffset.toNat + r.xferLength.toNat then none
          else
            match P.copyBlock block e.dataStorage.bytes r.xferOffset.toNat with
            | none => some (.error .copyRefused, s)
            | some bytes =>
              some (.ok .done, s.setEntry a i
                { e with dataStorage := { e.dataStorage with bytes := bytes } })
        else none
      else some (.error .notUpdating, s)

end MDRV2

/-- A command of the host or an expiry of the timer. `agentLookup` stands for the commands that
look the agent up and work on no lock: agent status, directory and data information. -/
inductive Event
  | agentLookup (agentId : UInt16)
  | lockData (r : LockDataReq)
  | unlockData (r : UnlockDataReq)
  | dataStart (r : DataStartReq)
  | dataDone (r : DataDoneReq)
  | getDataBlock (r : GetDataBlockReq)
  | sendDataBlock (r : SendDataBlockReq)
  | timeout

/-- The response and the next state. A stopped timer does not expire. -/
def MDRV2.respond (P : Platform) (s : MDRV2) : Event → Option (Response × MDRV2)
  | .agentLookup agentId => some (.ok .done, (s.agentLookup agentId).2)
  | .lockData r => some (s.lockData P r)
  | .unlockData r => some (s.unlockData r)
  | .dataStart r => some (s.dataStart P r)
  | .dataDone r => some (s.dataDone P r)
  | .getDataBlock r => s.getDataBlock P r
  | .sendDataBlock r => s.sendDataBlock P r
  | .timeout => if s.timer then s.timeoutHandler.map (.ok .done, ·) else some (.ok .done, s)

def MDRV2.step (P : Platform) (s : MDRV2) (e : Event) : Option MDRV2 :=
  (s.respond P e).map Prod.snd

def byteSum : List UInt8 → UInt32
  | [] => 0
  | b :: bytes => b.toUInt32 + byteSum bytes

/-- A platform that counts sessions, sums bytes, copies every block and writes every table. -/
def Platform.plain : Platform where
  getSessionHandle d := if d.sessionHandle + 1 = 0 then 1 else d.sessionHandle + 1
  calcChecksum32 := byteSum
  xferOutOfRange xferAddress xferLength := 0x00100000 < xferAddress.toNat + xferLength.toNat
  respOutOfRange respXferLength xferLength := respXferLength > xferLength
  copyBlock block dest off := some (store dest off block)
  storeDatatoFlash works mdrHdr data old :=
    if works then (true, some ⟨mdrHdr, load data 0 mdrHdr.dataSize.toNat⟩) else (false, old)

def Memory.plain : Memory where
  acpiAddr := 0x10000
  smbiosAddr := 0x200000
  acpiTableStorage _ := 0
  smbiosTableStorage _ := 0
  acpi_fits := by decide
  smbios_fits := by decide

/-- A request of a host that knows the ids, with a service and a file system that work. -/
def DataStartReq.plain (agentId : UInt16) (dataLength : UInt32) : DataStartReq where
  agentId := agentId
  dataInfo := firstDataInfo
  dataLength := dataLength
  xferAddress := 0
  xferLength := dataLength
  idReply := some 0
  fileSystemFails := false
  maps := true
  syncReply := some (dataLength, smbiosTableVersion, smbiosTableTimestamp)

end MetaCommon.Mdrv2
