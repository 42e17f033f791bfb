import Mathlib.Algebra.Group.Nat.Defs
import MetaCommon.Lib.Buffer

/-!
# The commands `md` and `mw` of io-app

`md` shows words of a mapped region and `mw` writes them. Both take the first mapping that passes a
test in 32-bit arithmetic, and then use the words from the address on, whether or not the mapping
reaches that far. An address stands for the physical one, as long as it lies in its mapping.
-/

namespace MetaCommon.IoApp

/-- A mapping without the place where it is mapped. -/
structure Mapping where
  phys : UInt32
  len : UInt32
deriving DecidableEq

/-- A mapped configuration file has no physical address. -/
def noPhys : UInt32 := 0xffffffff

abbrev Mem := ℕ → UInt8

/-! ### Words in memory -/

def bytesOf (v : UInt32) : List UInt8 :=
  [UInt8.ofNat (v.toNat % 256), UInt8.ofNat (v.toNat / 256 % 256),
    UInt8.ofNat (v.toNat / 65536 % 256), UInt8.ofNat (v.toNat / 16777216 % 256)]

def ofBytes : List UInt8 → UInt32
  | [] => 0
  | b :: bs => UInt32.ofNat (b.toNat + 256 * (ofBytes bs).toNat)

def readWord (mem : Mem) (a : ℕ) : UInt32 := ofBytes (Buffer.load mem a 4)

def writeWord (mem : Mem) (a : ℕ) (v : UInt32) : Mem := Buffer.store mem a (bytesOf v)

/-! ### The commands -/

/-- The lines of `dump`, an address and up to four words each. -/
def dump (phys wd : UInt32) (buf : List UInt32) : List (UInt32 × List UInt32) :=
  if buf = [] then []
  else
    let words := buf.take 4
    (phys + wd * 4, words) :: dump phys (wd + UInt32.ofNat words.length) (buf.drop 4)
termination_by buf.length
decreasing_by
  have hpos : 0 < buf.length := List.length_pos_iff.mpr ‹_›
  rw [List.length_drop]
  omega

/-- What a command does: its return value, the words that it has used, by their mapping and their
offset in it, the memory afterwards and the lines on the output. A run that has used a word outside
its mapping is undefined. -/
structure Run where
  ret : Int
  touched : List (Mapping × ℕ)
  mem : Mem
  output : List (UInt32 × List UInt32)

namespace Mapping

variable (m : Mapping)

def Passes (addr len : UInt32) : Prop :=
  m.phys ≠ noPhys ∧ m.phys ≤ addr ∧ addr + len * 4 < m.phys + m.len

instance (addr len : UInt32) : Decidable (m.Passes addr len) :=
  inferInstanceAs (Decidable (_ ∧ _ ∧ _))

/-- The loop of `md` with the pointer `pv`. -/
def readLoop (mem : Mem) : ℕ → ℕ → List (ℕ × UInt32)
  | _, 0 => []
  | pv, n + 1 => (pv, readWord mem (m.phys.toNat + pv)) :: readLoop mem (pv + 4) n

/-- The loop of `mw`, which has no pointer that goes on. -/
def writeLoop (val : UInt32) (offset : ℕ) : ℕ → Mem → List ℕ × Mem
  | 0, mem => ([], mem)
  | n + 1, mem =>
    let r := writeLoop val offset n (writeWord mem (m.phys.toNat + offset) val)
    (offset :: r.1, r.2)

end Mapping

def findMap (maps : List Mapping) (addr len : UInt32) : Option Mapping :=
  maps.find? (·.Passes addr len)

/-- `malloc` tells for a number of bytes whether there is memory. -/
def md (malloc : UInt32 → Bool) (maps : List Mapping) (mem : Mem) (addr len : UInt32) : Run :=
  match findMap maps addr len with
  | none => ⟨1, [], mem, []⟩
  | some m =>
    if malloc (len * 4) = false then ⟨1, [], mem, []⟩
    else
      let r := m.readLoop mem (addr - m.phys).toNat len.toNat
      ⟨0, r.map fun p => (m, p.1), mem, dump addr 0 (r.map Prod.snd)⟩

def mw (maps : List Mapping) (mem : Mem) (addr val len : UInt32) : Run :=
  match findMap maps addr len with
  | none => ⟨1, [], mem, []⟩
  | some m =>
    let r := m.writeLoop val (addr - m.phys).toNat len.toNat mem
    ⟨0, r.1.map fun offset => (m, offset), r.2, []⟩

end MetaCommon.IoApp
