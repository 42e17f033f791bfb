import MetaCommon.Lib.Runs

/-!
# The eSPI interrupt handler of U-Boot

The host drives three warnings on virtual wires. An edge of one sets its bit in the status of its
bank and the bank's bit in the interrupt status; the handler answers with the acknowledge bit of the
warning. It makes one register access at a time, and an edge or a reset may come between any two.
-/

namespace MetaCommon.Espi

def BIT (n : ℕ) : BitVec 32 := BitVec.twoPow 32 n

/-- The system events with their status in ESPI11C, and the system events 1 with theirs in
ESPI12C. -/
inductive Bank
  | sys
  | sys1
deriving DecidableEq

inductive Warn
  | hostRst
  | oobRst
  | sus
deriving DecidableEq

namespace Warn

def bank : Warn → Bank
  | hostRst | oobRst => .sys
  | sus => .sys1

/-- The bit of the wire in the event register, and of its edges in the status. -/
def warn : Warn → ℕ
  | hostRst => 8
  | oobRst => 6
  | sus => 0

def ack : Warn → ℕ
  | hostRst => 27
  | oobRst => 16
  | sus => 20

end Warn

namespace Bank

/-- The bit of the bank in ESPI008. -/
def summary : Bank → ℕ
  | sys => 8
  | sys1 => 22

def warns : Bank → List Warn
  | sys => [.hostRst, .oobRst]
  | sys1 => [.sus]

/-- The bits that the host drives. -/
def wires : Bank → BitVec 32
  | sys => BIT 8 ||| BIT 6
  | sys1 => BIT 0

end Bank

def hwRst : ℕ := 31

def slBtDone : ℕ := 20

def slBtStatus : ℕ := 23

/-! ### Registers -/

/-- ESPI000, ESPI008, ESPI098 with ESPI104, and ESPI11C with ESPI12C. -/
structure Regs where
  control : BitVec 32
  irqStatus : BitVec 32
  event : Bank → BitVec 32
  status : Bank → BitVec 32

namespace Regs

variable (r : Regs)

/-- The wires keep the level that the host has put on them. -/
def writeEvent (b : Bank) (v : BitVec 32) : Regs :=
  { r with
    event := Function.update r.event b ((v &&& ~~~b.wires) ||| (r.event b &&& b.wires)) }

/-- A status bit is cleared by writing 1. -/
def writeStatus (b : Bank) (v : BitVec 32) : Regs :=
  { r with status := Function.update r.status b (r.status b &&& ~~~v) }

def writeIrqStatus (v : BitVec 32) : Regs := { r with irqStatus := r.irqStatus &&& ~~~v }

/-- The host changes the level of a wire. -/
def edge (w : Warn) : Regs :=
  { r with
    irqStatus := r.irqStatus ||| BIT w.bank.summary
    event := Function.update r.event w.bank (r.event w.bank ^^^ BIT w.warn)
    status := Function.update r.status w.bank (r.status w.bank ||| BIT w.warn) }

def hwReset : Regs := { r with irqStatus := r.irqStatus ||| BIT hwRst }

def level (w : Warn) : Bool := (r.event w.bank).getLsbD w.warn

def ack (w : Warn) : Bool := (r.event w.bank).getLsbD w.ack

/-- The event status of the wire. -/
def pending (w : Warn) : Bool := (r.status w.bank).getLsbD w.warn

end Regs

/-! ### The handler -/

/-- The next access of the handler, with the values of its variables. -/
inductive Point
  | idle
  | readIrqStatus
  | readStatus (b : Bank) (irq : BitVec 32)
  | readEvent (b : Bank) (irq status : BitVec 32)
  | readAck (b : Bank) (irq status event : BitVec 32) (w : Warn) (ws : List Warn)
  | writeAck (b : Bank) (irq status event : BitVec 32) (w : Warn) (ws : List Warn) (v : BitVec 32)
  | clearStatus (b : Bank) (irq status event : BitVec 32)
  | readControl (irq : BitVec 32)
  | resetControl (irq v : BitVec 32)
  | setControl (irq v : BitVec 32)
  | readBootStatus (irq : BitVec 32)
  | readBoot (irq : BitVec 32)
  | writeBoot (irq v : BitVec 32)
  | readSus (irq : BitVec 32)
  | writeSus (irq event : BitVec 32)
  | clearIrqStatus (irq : BitVec 32)
deriving DecidableEq

namespace Point

/-- After the second bank: the reset if there has been one. -/
def reset (irq : BitVec 32) : Point :=
  if irq.getLsbD hwRst then readControl irq else clearIrqStatus irq

/-- From a bank on: the accesses of a bank are made if it is in the interrupt status. -/
def fromBank (irq : BitVec 32) : Bank → Point
  | .sys =>
    if irq.getLsbD Bank.sys.summary then readStatus .sys irq
    else if irq.getLsbD Bank.sys1.summary then readStatus .sys1 irq
    else reset irq
  | .sys1 => if irq.getLsbD Bank.sys1.summary then readStatus .sys1 irq else reset irq

def afterBank (irq : BitVec 32) : Bank → Point
  | .sys => fromBank irq .sys1
  | .sys1 => reset irq

/-- The warnings of the status are answered one after the other, then the status is cleared. -/
def answers (b : Bank) (irq status event : BitVec 32) : List Warn → Point
  | [] => clearStatus b irq status event
  | w :: ws =>
    if status.getLsbD w.warn then readAck b irq status event w ws
    else answers b irq status event ws

end Point

structure Machine where
  regs : Regs
  point : Point

namespace Machine

variable (m : Machine)

/-- The acknowledge bit takes the level that the handler has read. -/
def ackValue (event : BitVec 32) (w : Warn) (v : BitVec 32) : BitVec 32 :=
  if event.getLsbD w.warn then v ||| BIT w.ack else v &&& ~~~BIT w.ack

/-- The next access of `espi_irq_handler`. -/
def access : Machine :=
  match m.point with
  | .idle => m
  | .readIrqStatus => { m with point := .fromBank m.regs.irqStatus .sys }
  | .readStatus b irq => { m with point := .readEvent b irq (m.regs.status b) }
  | .readEvent b irq status =>
    { m with point := .answers b irq status (m.regs.event b) b.warns }
  | .readAck b irq status event w ws =>
    { m with point := .writeAck b irq status event w ws (m.regs.event b) }
  | .writeAck b irq status event w ws v =>
    ⟨m.regs.writeEvent b (ackValue event w v), .answers b irq status event ws⟩
  | .clearStatus b irq status _ => ⟨m.regs.writeStatus b status, .afterBank irq b⟩
  -- The mask has all 32 bits.
  | .readControl irq => { m with point := .resetControl irq (m.regs.control &&& 0xffffffff) }
  | .resetControl irq v => ⟨{ m.regs with control := v }, .setControl irq v⟩
  | .setControl irq v => ⟨{ m.regs with control := v ||| 0xff000000 }, .readBootStatus irq⟩
  -- From here on `espi_handshake_ack`.
  | .readBootStatus irq =>
    { m with
      point := if !(m.regs.event .sys).getLsbD slBtStatus then .readBoot irq else .readSus irq }
  | .readBoot irq =>
    { m with point := .writeBoot irq (m.regs.event .sys ||| BIT slBtStatus ||| BIT slBtDone) }
  | .writeBoot irq v => ⟨m.regs.writeEvent .sys v, .readSus irq⟩
  | .readSus irq =>
    let event := m.regs.event .sys1
    { m with
      point := if event.getLsbD Warn.sus.warn && !event.getLsbD Warn.sus.ack then
          .writeSus irq event
        else .clearIrqStatus irq }
  | .writeSus irq event =>
    ⟨m.regs.writeEvent .sys1 (event ||| BIT Warn.sus.ack), .clearIrqStatus irq⟩
  | .clearIrqStatus irq => ⟨m.regs.writeIrqStatus irq, .idle⟩

end Machine

inductive Event
  | edge (w : Warn)
  | hwReset
  | interrupt
  | access
deriving DecidableEq

namespace Machine

/-- The handler is not entered again while it is running. -/
def step (m : Machine) : Event → Machine
  | .edge w => { m with regs := m.regs.edge w }
  | .hwReset => { m with regs := m.regs.hwReset }
  | .interrupt => if m.point = .idle then { m with point := .readIrqStatus } else m
  | .access => m.access

end Machine

end MetaCommon.Espi
