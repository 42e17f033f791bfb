import Mathlib.Algebra.Group.Int.Defs
import Mathlib.Algebra.Group.Nat.Defs
import MetaCommon.PeciI3c.Slots

/-!
# From character devices to commands

The CPU number of a device node comes from its PID, and `HW_peci_issue_cmd` takes the number of a CPU
from the target address. Both index the array of a handle. `Devices` records the node each descriptor
has been opened for, which the library does not.
-/

namespace MetaCommon.PeciI3c

/-! ### Commands -/

def minClientAddr : ℤ := 0x30

def InHandleRange (peciFd : ℤ) : Prop := (handleMin : ℤ) ≤ peciFd ∧ peciFd ≤ handleMax

instance : DecidablePred InHandleRange := fun _ => inferInstanceAs (Decidable (_ ∧ _))

/-- Where a command ends: refused, or handed to `ioctl` on a descriptor, which may be `-1`. -/
inductive Issued
  | invalidReq
  | ioctl (fd : Option ℕ)
deriving DecidableEq

namespace PeciState

variable (c : Config) (s : PeciState)

/-- The entry `arr[i]`, undefined outside the array. -/
def index (arr : List (Option ℕ)) (i : ℤ) : Option (Option ℕ) :=
  if 0 ≤ i then arr[i.toNat]? else none

/-- `HW_peci_issue_cmd` with the first byte of the command, which is the target address, or `none`
for a null pointer. Undefined where the slot is `NULL` or the array is accessed outside its
bounds. -/
def hwPeciIssueCmd (peciFd : ℤ) (cmdPtr : Option UInt8) : Option Issued :=
  match cmdPtr with
  | none => some .invalidReq
  | some addr =>
    if InHandleRange peciFd then
      (s.fds (handleMax - peciFd.toNat)).bind fun arr =>
        (index arr (addr.toNat - minClientAddr)).map .ioctl
    else some (.ioctl (if 0 ≤ peciFd then some peciFd.toNat else none))

/-- The nodes for which the loop of `peci_device_i3c_open` opens the descriptors. -/
def openedFor (c : Config) (idx : ℕ) : PeciState → List DevEntry → ℕ → Option DevEntry
  | _, [], _ => none
  | s, entry :: entries, fd =>
    match s.peciI3cOpen c idx entry with
    | none => none
    | some r =>
      if fd ∈ r.2.opened \ s.opened then some entry else openedFor c idx r.2 entries fd

/-- The nodes the loop goes over in a call of `peci_device_i3c_open`, with its slot. -/
def visited (a : OpenAnswer) : Option (ℕ × List DevEntry) :=
  s.freeSlot.bind fun idx =>
    if a.mallocs then a.scandir.map fun namelist => (idx, namelist.reverse) else none

/-- The state in which the loop starts. -/
def allocated (idx : ℕ) : PeciState := s.setSlot idx (some (List.replicate c.maxCpus none))

end PeciState

/-- The library, and the node each open descriptor has been opened for. -/
structure Devices where
  lib : PeciState
  node : ℕ → Option DevEntry

/-- An attempt of `peci_Lock` to open a device, an unlock, or a command. -/
inductive DeviceEvent
  | deviceOpen (name : List Char) (a : OpenAnswer)
  | unlock (peciFd : ℤ)
  | issueCmd (peciFd : ℤ) (cmdPtr : Option UInt8)
deriving DecidableEq

namespace Devices

def init (opened : Finset ℕ) : Devices := ⟨⟨fun _ => none, opened⟩, fun _ => none⟩

/-- The nodes after an attempt that has led to `lib`. -/
def nodes (c : Config) (s : Devices) (name : List Char) (a : OpenAnswer) (lib : PeciState) (fd : ℕ) :
    Option DevEntry :=
  if fd ∈ lib.opened \ s.lib.opened then
    if PeciState.isI3c c name then
      (s.lib.visited a).bind fun v => PeciState.openedFor c v.1 (s.lib.allocated c v.1) v.2 fd
    else none
  else s.node fd

def step (c : Config) (s : Devices) : DeviceEvent → Option Devices
  | .deviceOpen name a => (s.lib.peciDeviceOpen c name a).map fun r => ⟨r.2, s.nodes c name a r.2⟩
  | .unlock peciFd => (s.lib.peciUnlock peciFd).map fun r => ⟨r.2, s.node⟩
  | .issueCmd peciFd cmdPtr => (s.lib.hwPeciIssueCmd peciFd cmdPtr).map fun _ => s

/-- The call stays inside the arrays; a handle it answers has an open descriptor; and a command on a
handle goes to a descriptor that was opened for a node of the addressed CPU. -/
def DeviceSound (c : Config) (s : Devices) : DeviceEvent → Prop
  | .deviceOpen name a => ∃ r lib, s.lib.peciDeviceOpen c name a = some (r, lib) ∧
      (PeciState.isI3c c name → ∀ h ∈ r,
        ∃ arr ∈ lib.fds (handleMax - h), ∃ fd ∈ fdsOf arr, fd ∈ lib.opened)
  | .unlock _ => True
  | .issueCmd peciFd cmdPtr => ∃ res, s.lib.hwPeciIssueCmd peciFd cmdPtr = some res ∧
      ∀ fd, InHandleRange peciFd → res = .ioctl (some fd) → ∃ entry ∈ s.node fd,
        ∃ cpu ∈ entry.cpu, ∀ addr ∈ cmdPtr, (cpu : ℤ) = addr.toNat - minClientAddr

end Devices

/-- If the CPU number of any node is read, a node whose number is read can be opened. -/
def Usable (c : Config) (o : Finset ℕ) (entries : List DevEntry) : Prop :=
  (∃ entry ∈ entries, entry.Resolves c o) → ∃ entry ∈ entries, entry.Opens c o

instance (c : Config) (o : Finset ℕ) : DecidablePred (Usable c o) := fun _ =>
  inferInstanceAs (Decidable (_ → _))

namespace Devices

/-- Device nodes have CPU numbers below `MAX_CPUS`, and one that can be opened if any; a handle is
unlocked and used while it has a slot, with target addresses of `MAX_CPUS` CPUs; and no descriptor
that is in an array is closed by its number. -/
def Fitting (c : Config) (s : Devices) : DeviceEvent → Prop
  | .deviceOpen name a => PeciState.isI3c c name → ∀ v ∈ s.lib.visited a,
      (∀ entry ∈ v.2, entry.Fits c) ∧ Usable c s.lib.opened v.2
  | .unlock peciFd => (InHandleRange peciFd → (s.lib.fds (handleMax - peciFd.toNat)).isSome) ∧
      (¬ InHandleRange peciFd → ∀ i < handleCnt, ∀ arr ∈ s.lib.fds i,
        ∀ fd ∈ fdsOf arr, (fd : ℤ) ≠ peciFd)
  | .issueCmd peciFd cmdPtr => InHandleRange peciFd → ∀ addr ∈ cmdPtr,
      (s.lib.fds (handleMax - peciFd.toNat)).isSome ∧
        minClientAddr ≤ addr.toNat ∧ addr.toNat < minClientAddr + c.maxCpus

instance (c : Config) : DecidableRel (Fitting c)
  | s, .deviceOpen _ a => inferInstanceAs (Decidable (_ → ∀ v ∈ s.lib.visited a, _))
  | _, .unlock _ => inferInstanceAs (Decidable ((_ → _) ∧ (_ → ∀ i < handleCnt, _)))
  | _, .issueCmd _ cmdPtr => inferInstanceAs (Decidable (_ → ∀ addr ∈ cmdPtr, _))

end Devices

end MetaCommon.PeciI3c
