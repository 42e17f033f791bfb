import MetaCommon.Lib.Buffer
import MetaCommon.Lib.Runs
import MetaCommon.Kcs.IpmiHandler

/-!
# The KCS driver of U-Boot

The packet and the interrupt handler of `ast-kcs.c`, with the request processing that goes through
the IPMI command handler. One channel is modelled, since the driver keeps one packet for each
channel and shares nothing between them. `hostWrite` is one interrupt: the host writes a byte, the
handler runs to completion.

Two fields of `Channel` are histories the driver does not have: `calls` lists the requests handed
to `ipmi_cmd_handler`, and `served` the places of the response buffer whose byte was put in ODR.
-/

namespace MetaCommon.Kcs

open Buffer

def zeroData : UInt8 := 0x00

def kcsCtrlCodeGetStatusAbort : UInt8 := 0x60
def kcsCtrlCodeWriteStart : UInt8 := 0x61
def kcsCtrlCodeWriteEnd : UInt8 := 0x62
def kcsCtrlCodeRead : UInt8 := 0x68

inductive KcsPhase
  | idle | writeStart | writeData | writeEnd | readWait | read | abort1 | abort2 | error
  deriving DecidableEq, Repr

inductive KcsError
  | noError | abortByCmd | illegalCtrlCmd | lengthError | unspecifiedError
  deriving DecidableEq, Repr

def KcsError.code : KcsError → UInt8
  | .noError => 0x00
  | .abortByCmd => 0x01
  | .illegalCtrlCmd => 0x02
  | .lengthError => 0x06
  | .unspecifiedError => 0xFF

structure KcsPacket where
  phase : KcsPhase
  error : KcsError
  readReqDone : Bool
  dataInIdx : UInt16
  dataIn : ℕ → UInt8
  dataOutLen : UInt16
  dataOutIdx : UInt16
  dataOut : ℕ → UInt8

/-- A byte of the response buffer put in ODR: its index, and the response length and the state
bits of the status register at that moment. -/
structure Served where
  idx : UInt16
  len : UInt16
  stateBits : UInt8
  deriving DecidableEq, Repr

structure Channel (ε : Type*) where
  pkt : KcsPacket
  regs : KcsIoReg
  env : ε
  calls : List IpmiCmdData
  served : List Served

variable {ε : Type*} (tbl : List (IpmiCmdTable ε))

def kcsForceAbort (c : Channel ε) : Channel ε :=
  let regs := c.regs.setKcsState .error
  let regs := regs.readData.2
  let regs := regs.writeData zeroData
  { c with
    regs := regs
    pkt := { c.pkt with phase := .error, readReqDone := false, dataInIdx := 0 } }

def initKcsPacket (p : KcsPacket) : KcsPacket :=
  { p with
    readReqDone := false, phase := .idle, error := .noError
    dataInIdx := 0, dataOutIdx := 0, dataOutLen := 0 }

/-- What `process_kcs_request` puts in the response buffer: the response bytes, the request it
hands to `ipmi_cmd_handler` if it gets that far, and the handler's state afterwards. -/
structure KcsResponse (ε : Type*) where
  bytes : List UInt8
  call : Option IpmiCmdData
  env : ε

/-- `process_kcs_request` up to the label `done`. -/
def fillResponse (p : KcsPacket) (env : ε) : KcsResponse ε :=
  let reqLun := p.dataIn 0 &&& 0x03
  let netFun := p.dataIn 0 >>> 2
  let cmd := p.dataIn 1
  if reqLun ≠ lunBmc then
    ⟨[getRespNetfnLun reqLun netFun, cmd, ipmiCcInvalidCmdLun], none, env⟩
  -- `data_in_idx - 2` is compared as an unsigned number: a request of one byte is refused here
  else if UInt32.ofNat maxIpmiReqDataSize < p.dataInIdx.toUInt32 - 2 then
    ⟨[getRespNetfnLun reqLun netFun, cmd, ipmiCcOutOfSpace], none, env⟩
  else
    let ipmiData : IpmiCmdData := ⟨netFun, cmd, load p.dataIn 2 (p.dataInIdx.toNat - 2)⟩
    let (res, env) := ipmiCmdHandler tbl ipmiData env
    if maxKcsPktSize < res.bytes.length + 2 then
      ⟨[getRespNetfnLun reqLun netFun, cmd, ipmiCcUnspecified], some ipmiData, env⟩
    else
      ⟨getRespNetfnLun reqLun netFun :: cmd :: res.bytes, some ipmiData, env⟩

/-- `write_data(channel_num, kcs_pkt->data_out[kcs_pkt->data_out_idx++])`. -/
def writeDataOut (c : Channel ε) : Channel ε :=
  { c with
    regs := c.regs.writeData (c.pkt.dataOut c.pkt.dataOutIdx.toNat)
    pkt := { c.pkt with dataOutIdx := c.pkt.dataOutIdx + 1 }
    served := c.served ++ [⟨c.pkt.dataOutIdx, c.pkt.dataOutLen, c.regs.stateBits⟩] }

def processKcsRequest (c : Channel ε) : Channel ε :=
  if !c.pkt.readReqDone then c
  else
    let r := fillResponse tbl c.pkt c.env
    let pkt := { c.pkt with
      dataOut := store c.pkt.dataOut 0 r.bytes
      dataOutLen := UInt16.ofNat r.bytes.length
      phase := .read }
    let c := writeDataOut { c with pkt := pkt, env := r.env, calls := c.calls ++ r.call.toList }
    { c with pkt := { c.pkt with readReqDone := false } }

/-- Read IDR into `data_in[data_in_idx++]`. -/
def acceptData (c : Channel ε) : Channel ε :=
  { c with
    regs := c.regs.readData.2
    pkt := { c.pkt with
      dataIn := Function.update c.pkt.dataIn c.pkt.dataInIdx.toNat c.regs.readData.1
      dataInIdx := c.pkt.dataInIdx + 1 } }

/-- The length check made before a byte is accepted. -/
def withLengthCheck (c : Channel ε) (accept : Channel ε) : Channel ε :=
  if maxKcsPktSize ≤ c.pkt.dataInIdx.toNat then
    kcsForceAbort { c with pkt := { c.pkt with error := .lengthError } }
  else accept

/-- The case `KCS_PHASE_WRITE_DATA`, into which `KCS_PHASE_WRITE_START` falls through. -/
def readKcsDataWrite (c : Channel ε) : Channel ε :=
  withLengthCheck c <|
    acceptData { c with regs := (c.regs.setKcsState .write).writeData zeroData }

def readKcsDataWriteEnd (c : Channel ε) : Channel ε :=
  withLengthCheck c <|
    let c := acceptData { c with regs := c.regs.setKcsState .read }
    processKcsRequest tbl { c with pkt := { c.pkt with phase := .readWait, readReqDone := true } }

def readKcsDataRead (c : Channel ε) : Channel ε :=
  let regs := if c.pkt.dataOutIdx = c.pkt.dataOutLen then c.regs.setKcsState .idle else c.regs
  let data := regs.readData.1
  let c := { c with regs := regs.readData.2 }
  if data ≠ kcsCtrlCodeRead then
    { c with regs := (c.regs.setKcsState .error).writeData zeroData }
  else if c.pkt.dataOutIdx = c.pkt.dataOutLen then
    { c with regs := c.regs.writeData zeroData, pkt := { c.pkt with phase := .idle } }
  else writeDataOut c

def readKcsData (c : Channel ε) : Channel ε :=
  match c.pkt.phase with
  | .writeStart => readKcsDataWrite { c with pkt := { c.pkt with phase := .writeData } }
  | .writeData => readKcsDataWrite c
  | .writeEnd => readKcsDataWriteEnd tbl c
  | .read => readKcsDataRead c
  | .abort1 =>
    { c with
      regs := ((c.regs.setKcsState .read).readData.2).writeData c.pkt.error.code
      pkt := { c.pkt with phase := .abort2 } }
  | .abort2 =>
    { c with
      regs := ((c.regs.setKcsState .idle).readData.2).writeData zeroData
      pkt := { c.pkt with phase := .idle } }
  | _ => kcsForceAbort c

def readKcsCmd (c : Channel ε) : Channel ε :=
  let regs := (c.regs.setKcsState .write).writeData zeroData
  let cmd := regs.readData.1
  let c := { c with regs := regs.readData.2 }
  if cmd = kcsCtrlCodeWriteStart then
    { c with pkt := { initKcsPacket c.pkt with phase := .writeStart } }
  else if cmd = kcsCtrlCodeWriteEnd then
    if c.pkt.error ≠ .noError then kcsForceAbort c
    else { c with pkt := { c.pkt with phase := .writeEnd } }
  else if cmd = kcsCtrlCodeGetStatusAbort then
    { c with pkt := { c.pkt with phase := .abort1, error := .abortByCmd } }
  else kcsForceAbort { c with pkt := { c.pkt with error := .illegalCtrlCmd } }

def kcsIrqHandler (c : Channel ε) : Channel ε :=
  let status := c.regs.readStatus
  if status &&& bitStatusIbf ≠ 0 then
    if status &&& bitStatusCod ≠ 0 then readKcsCmd c else readKcsData tbl c
  else c

/-- The host writes one byte and the interrupt is served. -/
def hostWrite (c : Channel ε) (b : HostByte) : Channel ε :=
  kcsIrqHandler tbl { c with regs := c.regs.hostWrite b }

/-- The channel after `kcs_init`: the packet is static storage, hence zero. -/
def kcsInit (regs : KcsIoReg) (env : ε) : Channel ε where
  pkt :=
    { phase := .idle, error := .noError, readReqDone := false
      dataInIdx := 0, dataIn := fun _ => 0
      dataOutLen := 0, dataOutIdx := 0, dataOut := fun _ => 0 }
  regs := regs.setKcsState .idle
  env := env
  calls := []
  served := []

abbrev run (c : Channel ε) (bs : List HostByte) : Channel ε := Runs.run (hostWrite tbl) c bs

/-- A state that some sequence of host writes leads to. -/
def Reachable (c : Channel ε) : Prop :=
  ∃ (regs : KcsIoReg) (env : ε) (bs : List HostByte), c = run tbl (kcsInit regs env) bs

@[simp] theorem hostWrite_cmd (c : Channel ε) (b : UInt8) :
    hostWrite tbl c (.cmd b) = readKcsCmd { c with regs := c.regs.hostWrite (.cmd b) } := by
  have hi : bitStatusIbf ≠ 0 := by decide
  have hc : bitStatusCod ≠ 0 := by decide
  simp only [hostWrite, kcsIrqHandler, KcsIoReg.hostWrite_ibf, KcsIoReg.hostWrite_cmd_cod,
    ne_eq, hi, hc, not_false_eq_true, if_true]

@[simp] theorem hostWrite_data (c : Channel ε) (b : UInt8) :
    hostWrite tbl c (.data b) =
      readKcsData tbl { c with regs := c.regs.hostWrite (.data b) } := by
  have hi : bitStatusIbf ≠ 0 := by decide
  simp only [hostWrite, kcsIrqHandler, KcsIoReg.hostWrite_ibf, KcsIoReg.hostWrite_data_cod,
    ne_eq, hi, not_true_eq_false, not_false_eq_true, if_true, if_false]

end MetaCommon.Kcs
