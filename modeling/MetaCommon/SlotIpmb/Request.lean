import Mathlib.Logic.Function.Basic
import MetaCommon.Lib.Statements

/-!
# The slot IPMB request

The D-Bus method `SlotIpmbRequest` takes a free sequence number and sends the command to the add-in
card of a PCIe slot through the I2C mux of the slot, which it holds for the time of the response.
The file system, the I2C driver and the card answer as they like.
-/

namespace MetaCommon.SlotIpmb

open Statements

def ipmbMaxOutstandingRequestsCount : ℕ := 64

def ipmbNumberOfTries : ℕ := 6

def ipmbRequestRetryTimeout : UInt16 := 250

/-- Sequence numbers, which are the slots of the table of outstanding requests. -/
abbrev SeqNum := Fin ipmbMaxOutstandingRequestsCount

/-- `outstandingRequests`, with a number for each request. -/
abbrev Table := SeqNum → Option ℕ

inductive IpmbResponseStatus
  | error
  | busy
  | timeout
deriving DecidableEq

inductive Result (ρ : Type)
  | status (s : IpmbResponseStatus)
  | response (r : ρ)
deriving DecidableEq

structure IpmbRequest where
  address : UInt8
  netFn : UInt8
  rsLun : UInt8
  rqSA : UInt8
  seq : SeqNum
  rqLun : UInt8
  cmd : UInt8
  data : List UInt8
deriving DecidableEq

/-- The bytes that `ipmbToi2cConstruct` lays out: at least the two before the I2C payload. -/
structure I2cBuffer where
  length : UInt8
  targetAddr : UInt8
  payload : List UInt8
deriving DecidableEq

def I2cBuffer.size (buffer : I2cBuffer) : UInt8 := UInt8.ofNat (buffer.payload.length + 2)

/-- What the patches take from the daemon they change: `ipmbI2cNumberOfRetries`, `ipmbRsLun`,
`getBmcSlaveAddress`, `ipmbToi2cConstruct` and `seqNumGet`, which finds a free slot of the table if
there is one; which one depends on where its last search has ended. -/
structure Config where
  ipmbI2cNumberOfRetries : ℕ
  ipmbRsLun : UInt8
  bmcSlaveAddress : UInt8
  ipmbToi2cConstruct : IpmbRequest → Option I2cBuffer
  seqNumGet : ℕ → Table → Option SeqNum
  seqNumGet_free : ∀ last t, ∀ seq ∈ seqNumGet last t, t seq = none
  seqNumGet_full : ∀ last t, seqNumGet last t = none → ∀ seq, t seq ≠ none

/-- How one call is answered: whether the channel and the timer are there, what the file system says
about a path, the return value of each transfer of each try, and for the wait of each try whether it
fails, whether the matching response comes in time and what the other requests do to the table. -/
structure World (ρ : Type) where
  channel : Bool
  timer : Bool
  pathExists : String → Bool
  isSymlink : String → Bool
  opens : String → Bool
  transfers : ℕ → ℕ → Bool
  waitFails : ℕ → Bool
  reply : ℕ → Option ρ
  meanwhile : ℕ → Table → Table

/-- An `I2C_RDWR` call on the mux. -/
inductive Ioctl
  | transferAndHold (addr : UInt8) (payload : List UInt8) (timeout : UInt16)
  | unhold
deriving DecidableEq

structure Mux where
  fdOpen : Bool
  heldMux : Bool
deriving DecidableEq

/-- The state of a call: the table, its mux and the `I2C_RDWR` calls made so far. `awaited` has the
table of each moment at which the command has been sent and its response is waited for. -/
structure CallState where
  table : Table
  mux : Mux
  ioctls : List Ioctl
  awaited : List Table

namespace CallState

variable (s : CallState)

/-- `makeRequestInvalid`. -/
def makeRequestInvalid (request : IpmbRequest) : CallState :=
  { s with table := Function.update s.table request.seq none }

/-- `transferAndHoldMux`, where `ok` is whether the driver takes the transfer. -/
def transferAndHoldMux (buffer : I2cBuffer) (ok : Bool) : Bool × CallState :=
  if s.mux.fdOpen then
    let len := buffer.size - 2
    let msg := Ioctl.transferAndHold (buffer.targetAddr >>> 1) (buffer.payload.take len.toNat)
      ipmbRequestRetryTimeout
    if ok then
      (true, { s with
        mux := { s.mux with heldMux := true }
        ioctls := s.ioctls ++ [msg]
        awaited := s.awaited ++ [s.table] })
    else (false, { s with ioctls := s.ioctls ++ [msg] })
  else (false, s)

/-- `~Mux`. -/
def destroyMux : CallState :=
  if s.mux.heldMux && s.mux.fdOpen then { s with ioctls := s.ioctls ++ [.unhold] } else s

end CallState

variable {ρ : Type} (c : Config) (w : World ρ)

/-- The rounds `cnt`, `cnt + 1`, ... of the `do` loop, `n` of them at most. -/
def sendLoop (buffer : I2cBuffer) (i : ℕ) : ℕ → ℕ → CallState → CallState
  | _, 0, s => s
  | cnt, n + 1, s =>
    let r := s.transferAndHoldMux buffer (w.transfers i cnt)
    if r.1 then r.2 else sendLoop buffer i (cnt + 1) n r.2

/-- The rounds of the `do` loop: the first one is not under the condition. -/
def Config.sendRounds : ℕ := max 1 c.ipmbI2cNumberOfRetries

/-- Round `i` of the loop over the tries. -/
def slotTry (request : IpmbRequest) (buffer : I2cBuffer) (i : ℕ) : Stmt CallState (Result ρ) :=
  (Stmt.effect (sendLoop w buffer i 0 c.sendRounds)).andThen <|
  -- The block that logs the failure stands under no condition: it also ends a try whose transfer
  -- has succeeded, and nothing below is reached.
  (Stmt.effect (·.makeRequestInvalid request)).andThen <|
  (Stmt.ret (.status .error)).andThen <|
  (Stmt.effect fun s => { s with table := w.meanwhile i s.table }).andThen <|
  if w.waitFails i then
    (Stmt.effect (·.makeRequestInvalid request)).andThen (Stmt.ret (.status .error))
  else
    match w.reply i with
    | some r => (Stmt.effect (·.makeRequestInvalid request)).andThen (Stmt.ret (.response r))
    | none => Stmt.skip

def slotPath (pcieSlot : UInt8) : String :=
  "/dev/i2c-mux/PCIE_Mux/Pcie_Slot_" ++ toString pcieSlot.toNat

/-- `slotRequestAdd` after the patch that takes `makeRequestValid` out of it. -/
def slotRequestAdd (request : IpmbRequest) (pcieSlot : UInt8) (t : Table) :
    CallState × Result ρ :=
  let p := slotPath pcieSlot
  if !w.pathExists p || !w.isSymlink p then (⟨t, ⟨false, false⟩, [], []⟩, .status .error)
  else
    let s : CallState := ⟨t, ⟨w.opens p, false⟩, [], []⟩
    let r : CallState × Result ρ :=
      if !s.mux.fdOpen then (s, .status .error)
      else
        match c.ipmbToi2cConstruct request with
        | none => (s, .status .error)
        | some buffer =>
          ((Stmt.forLoop (slotTry c w request buffer) 0 ipmbNumberOfTries).andThen
            (Stmt.effect (·.makeRequestInvalid request))).run (.status .timeout) s
    (r.1.destroyMux, r.2)

/-- The arguments of `SlotIpmbRequest`; the address type is not used. -/
structure SlotCall where
  slotNumber : UInt8
  targetAddr : UInt8
  netfn : UInt8
  cmd : UInt8
  dataReceived : List UInt8
deriving DecidableEq

def slotRequest (a : SlotCall) (seqNum : SeqNum) : IpmbRequest where
  address := a.targetAddr
  netFn := a.netfn
  rsLun := c.ipmbRsLun
  rqSA := c.bmcSlaveAddress
  seq := seqNum
  rqLun := 0
  cmd := a.cmd
  data := a.dataReceived

def slotIpmbHandleRequest (a : SlotCall) (last : ℕ) (t : Table) : CallState × Result ρ :=
  if !w.channel then (⟨t, ⟨false, false⟩, [], []⟩, .status .error)
  else
    match c.seqNumGet last t with
    | none => (⟨t, ⟨false, false⟩, [], []⟩, .status .busy)
    | some seqNum =>
      if !w.timer then (⟨t, ⟨false, false⟩, [], []⟩, .status .error)
      else slotRequestAdd c w (slotRequest c a seqNum) a.slotNumber t

end MetaCommon.SlotIpmb
