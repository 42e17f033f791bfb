import Mathlib.Tactic.Common

/-!
# Registers of one KCS channel

The input, output and status registers of an LPC KCS channel (`ast-kcs.h`). Each carries one byte;
the driver's `u16` accessors never see more. The host's write of a byte fills IDR, raises IBF and
records in COD whether the byte went to the command or to the data port. The driver owns the two
state bits, which it changes by read-modify-write. OBF is left out: the driver never looks at it.
-/

namespace MetaCommon.Kcs

def bitStatusIbf : UInt8 := 0x02
def bitStatusCod : UInt8 := 0x08

def kcsStateMask : UInt8 := 0xC0

/-- `KCS_STATE_IDLE` to `KCS_STATE_ERROR`. -/
inductive KcsState
  | idle | read | write | error
  deriving DecidableEq, Repr

def KcsState.code : KcsState → UInt8
  | .idle => 0x00
  | .read => 0x01
  | .write => 0x02
  | .error => 0x03

/-- The macro `KCS_STATE(state)`. -/
def KcsState.bits (state : KcsState) : UInt8 := state.code <<< (6 : UInt8)

structure KcsIoReg where
  idr : UInt8
  odr : UInt8
  str : UInt8
  deriving DecidableEq, Repr

namespace KcsIoReg

def readStatus (r : KcsIoReg) : UInt8 := r.str

def writeStatus (r : KcsIoReg) (value : UInt8) : KcsIoReg := { r with str := value }

/-- Reading IDR empties it. -/
def readData (r : KcsIoReg) : UInt8 × KcsIoReg := (r.idr, { r with str := r.str &&& ~~~bitStatusIbf })

def writeData (r : KcsIoReg) (value : UInt8) : KcsIoReg := { r with odr := value }

def setKcsState (r : KcsIoReg) (state : KcsState) : KcsIoReg :=
  let status := r.readStatus
  let status := status &&& ~~~kcsStateMask
  let status := status ||| (state.bits &&& kcsStateMask)
  r.writeStatus status

/-- The state field as the host reads it. -/
def stateBits (r : KcsIoReg) : UInt8 := r.str &&& kcsStateMask

/-- The host shows the channel in `state`. -/
def Shows (r : KcsIoReg) (state : KcsState) : Prop := r.stateBits = state.bits

instance (r : KcsIoReg) (state : KcsState) : Decidable (r.Shows state) :=
  inferInstanceAs (Decidable (_ = _))

end KcsIoReg

/-- One byte written by the host, to the command or to the data port. -/
inductive HostByte
  | cmd (b : UInt8)
  | data (b : UInt8)
  deriving DecidableEq, Repr

/-- What the host's write does to the registers. -/
def KcsIoReg.hostWrite (r : KcsIoReg) : HostByte → KcsIoReg
  | .cmd b => { r with idr := b, str := r.str ||| bitStatusIbf ||| bitStatusCod }
  | .data b => { r with idr := b, str := (r.str ||| bitStatusIbf) &&& ~~~bitStatusCod }

namespace KcsIoReg

variable (r : KcsIoReg)

@[simp] theorem readData_fst : r.readData.1 = r.idr := rfl
@[simp] theorem readData_snd_odr : r.readData.2.odr = r.odr := rfl
@[simp] theorem writeData_odr (v : UInt8) : (r.writeData v).odr = v := rfl
@[simp] theorem writeData_idr (v : UInt8) : (r.writeData v).idr = r.idr := rfl
@[simp] theorem setKcsState_idr (st : KcsState) : (r.setKcsState st).idr = r.idr := rfl
@[simp] theorem setKcsState_odr (st : KcsState) : (r.setKcsState st).odr = r.odr := rfl
@[simp] theorem writeData_stateBits (v : UInt8) : (r.writeData v).stateBits = r.stateBits := rfl

@[simp] theorem hostWrite_cmd_idr (b : UInt8) : (r.hostWrite (.cmd b)).idr = b := rfl
@[simp] theorem hostWrite_data_idr (b : UInt8) : (r.hostWrite (.data b)).idr = b := rfl

/-- Masking distributes over a join of bits. -/
theorem or_and_mask (s t m : UInt8) : (s ||| t) &&& m = (s &&& m) ||| (t &&& m) := by
  apply UInt8.eq_of_toBitVec_eq
  ext i hi
  simp [Bool.and_or_distrib_right]

theorem or_and_absorb (s m : UInt8) : (s ||| m) &&& m = m := by
  apply UInt8.eq_of_toBitVec_eq
  ext i hi
  simp +contextual

@[simp] theorem readData_stateBits : r.readData.2.stateBits = r.stateBits := by
  have hmask : ~~~bitStatusIbf &&& kcsStateMask = kcsStateMask := rfl
  simp only [readData, stateBits, UInt8.and_assoc, hmask]

@[simp] theorem hostWrite_stateBits (b : HostByte) : (r.hostWrite b).stateBits = r.stateBits := by
  have hi : bitStatusIbf &&& kcsStateMask = 0 := rfl
  have hc : bitStatusCod &&& kcsStateMask = 0 := rfl
  have hn : ~~~bitStatusCod &&& kcsStateMask = kcsStateMask := rfl
  cases b <;> simp only [hostWrite, stateBits, UInt8.and_assoc, or_and_mask, hi, hc, hn,
    UInt8.or_zero]

/-- The read-modify-write of the status register shows the state it was given. -/
@[simp] theorem setKcsState_stateBits (st : KcsState) : (r.setKcsState st).stateBits = st.bits := by
  have hz : r.str &&& ~~~kcsStateMask &&& kcsStateMask = 0 := by
    rw [UInt8.and_assoc, UInt8.not_and_self, UInt8.and_zero]
  have hb : st.bits &&& kcsStateMask &&& kcsStateMask = st.bits := by cases st <;> rfl
  simp only [setKcsState, writeStatus, readStatus, stateBits, or_and_mask, hz, hb, UInt8.zero_or]

theorem shows_congr {r r' : KcsIoReg} (h : r.stateBits = r'.stateBits) (st : KcsState) :
    r.Shows st ↔ r'.Shows st := by simp only [Shows, h]

theorem bits_injective {st st' : KcsState} (h : st.bits = st'.bits) : st = st' := by
  cases st <;> cases st' <;> first | rfl | exact absurd h (by decide)

@[simp] theorem shows_setKcsState (st st' : KcsState) : (r.setKcsState st).Shows st' ↔ st = st' := by
  simp only [Shows, setKcsState_stateBits]
  exact ⟨bits_injective, fun h => by rw [h]⟩

@[simp] theorem hostWrite_ibf (b : HostByte) :
    (r.hostWrite b).readStatus &&& bitStatusIbf = bitStatusIbf := by
  have hc : bitStatusCod &&& bitStatusIbf = 0 := rfl
  have hn : ~~~bitStatusCod &&& bitStatusIbf = bitStatusIbf := rfl
  cases b with
  | cmd b => simp only [hostWrite, readStatus, or_and_mask _ bitStatusCod, or_and_absorb, hc,
      UInt8.or_zero]
  | data b => simp only [hostWrite, readStatus, UInt8.and_assoc, hn, or_and_absorb]

@[simp] theorem hostWrite_cmd_cod (b : UInt8) :
    (r.hostWrite (.cmd b)).readStatus &&& bitStatusCod = bitStatusCod := or_and_absorb _ _

@[simp] theorem hostWrite_data_cod (b : UInt8) :
    (r.hostWrite (.data b)).readStatus &&& bitStatusCod = 0 := by
  simp only [hostWrite, readStatus, UInt8.and_assoc, UInt8.not_and_self, UInt8.and_zero]

end KcsIoReg

end MetaCommon.Kcs
