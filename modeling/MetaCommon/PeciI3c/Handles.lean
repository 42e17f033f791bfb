import Mathlib.Data.Finset.Basic
import Mathlib.Data.Finset.Dedup
import Mathlib.Logic.Function.Basic
import MetaCommon.Lib.Runs

/-!
# PECI handles over I3C

`peci_Lock` on "/dev/peci-i3c" opens one device for each CPU and answers a handle, the number of a
slot counted down from `INT_MAX`; on another device name it answers the descriptor of that device.
`peci_Unlock` closes what stands behind its argument. The file system and the sysfs data behind the
device nodes answer each call as they like.
-/

namespace MetaCommon.PeciI3c

def handleCnt : ℕ := 64

/-- `PECI_I3C_HANDLE_MAX`, which is `INT_MAX`. -/
def handleMax : ℕ := 2147483647

def handleMin : ℕ := handleMax - handleCnt + 1

/-- How the kernel numbers descriptors: an unused number, and none if there are too many. -/
structure Kernel where
  allocate : Finset ℕ → Option ℕ
  allocate_fresh : ∀ o, ∀ fd ∈ allocate o, fd ∉ o
  allocate_lt : ∀ o, ∀ fd ∈ allocate o, fd < handleMin

/-- An `open` that the file system lets succeed or fail. -/
def Kernel.openFd (k : Kernel) (ok : Bool) (o : Finset ℕ) : Option ℕ :=
  if ok then k.allocate o else none

/-- Numbers of the build and of the kernel: `MAX_CPUS` and `DEV_NAME_SIZE` are libpeci's. -/
structure Config where
  kernel : Kernel
  maxCpus : ℕ
  devNameSize : ℕ

/-- What `peci_i3c_open` finds for a node of "/dev": whether "/dev" opens, the PID that sysfs has
for the node, if nothing fails on the way to it, and whether the node opens. -/
structure DevEntry where
  devOpens : Bool
  pid : Option UInt64
  opens : Bool
deriving DecidableEq

/-- `I3C_PID_TO_CPU`. -/
def i3cPidToCpu (pid : UInt64) : ℕ := ((pid >>> 12) &&& 0xf).toNat

def DevEntry.cpu (entry : DevEntry) : Option ℕ := entry.pid.map i3cPidToCpu

/-- How one attempt to open a device is answered. -/
structure OpenAnswer where
  opens : Bool
  enoent : Bool
  mallocs : Bool
  scandir : Option (List DevEntry)
deriving DecidableEq

/-- `peci_i3c_fds`, with `none` for `-1`, and the open descriptors of the process. -/
structure PeciState where
  fds : ℕ → Option (List (Option ℕ))
  opened : Finset ℕ

def fdsOf (arr : List (Option ℕ)) : List ℕ := arr.filterMap id

/-- `strncmp` of two C strings. -/
def strncmpEq (a b : List Char) (n : ℕ) : Bool :=
  (a ++ ['\x00']).take n == (b ++ ['\x00']).take n

namespace PeciState

variable (c : Config) (s : PeciState)

def setSlot (idx : ℕ) (arr : Option (List (Option ℕ))) : PeciState :=
  { s with fds := Function.update s.fds idx arr }

/-- `peci_i3c_open`: whether it answers 0. Undefined where the array is accessed outside its
bounds. -/
def peciI3cOpen (idx : ℕ) (entry : DevEntry) : Option (Bool × PeciState) :=
  match c.kernel.openFd entry.devOpens s.opened, entry.cpu with
  | some dirfd, some cpu =>
    match (s.fds idx).bind fun arr => arr[cpu]? with
    | none => none
    | some (some _) => some (true, s)
    | some none =>
      match c.kernel.openFd entry.opens (insert dirfd s.opened) with
      | none => some (true, s)
      | some fd => some (true, {
          fds := Function.update s.fds idx ((s.fds idx).map fun arr => arr.set cpu (some fd))
          opened := insert fd s.opened })
  | _, _ => some (false, s)

/-- The loop of `peci_device_i3c_open` over the nodes, with `if_any`. -/
def openAll (c : Config) (idx : ℕ) : PeciState → Bool → List DevEntry → Option (Bool × PeciState)
  | s, ifAny, [] => some (ifAny, s)
  | s, ifAny, entry :: entries =>
    (s.peciI3cOpen c idx entry).bind fun r => openAll c idx r.2 (ifAny || r.1) entries

def freeSlot : Option ℕ := (List.range handleCnt).find? fun i => (s.fds i).isNone

/-- `peci_device_i3c_open`; the first component is `none` where it answers `-1`. -/
def peciDeviceI3cOpen (a : OpenAnswer) : Option (Option ℕ × PeciState) :=
  match s.freeSlot with
  | none => some (none, s)
  | some idx =>
    if a.mallocs then
      match a.scandir with
      | none => some (none,
          (s.setSlot idx (some (List.replicate c.maxCpus none))).setSlot idx none)
      | some namelist =>
        (openAll c idx (s.setSlot idx (some (List.replicate c.maxCpus none))) false
          namelist.reverse).map fun r =>
            if r.1 then (some (handleMax - idx), r.2) else (none, r.2.setSlot idx none)
    else some (none, s)

def isI3c (name : List Char) : Bool := strncmpEq name "/dev/peci-i3c".toList c.devNameSize

def peciDeviceOpen (name : List Char) (a : OpenAnswer) : Option (Option ℕ × PeciState) :=
  if isI3c c name then s.peciDeviceI3cOpen c a
  else
    match c.kernel.openFd a.opens s.opened with
    | none => some (none, s)
    | some fd => some (some fd, { s with opened := insert fd s.opened })

end PeciState

/-- A call of `peci_Lock`: the two names of `peci_device_list`, the answers to the first attempt and
to the one with the second name, and those to the attempts that the timeout leaves time for. A call
that waits forever has not returned where these are used up. -/
structure LockCall where
  device : List Char
  device2 : Option (List Char)
  first : OpenAnswer
  second : OpenAnswer
  retries : List OpenAnswer
deriving DecidableEq

/-- The attempts of a call as long as all fail. -/
def LockCall.attempts (l : LockCall) : List (List Char × OpenAnswer) :=
  match l.first.enoent, l.device2 with
  | true, some device2 =>
    (l.device, l.first) :: (device2, l.second) :: l.retries.map fun a => (device2, a)
  | _, _ => (l.device, l.first) :: l.retries.map fun a => (l.device, a)

namespace PeciState

variable (c : Config)

/-- One attempt after the other until one succeeds. -/
def tryOpen (c : Config) : PeciState → List (List Char × OpenAnswer) →
    Option (Option ℕ × PeciState)
  | s, [] => some (none, s)
  | s, (name, a) :: attempts => (s.peciDeviceOpen c name a).bind fun r =>
    match r.1 with
    | some fd => some (some fd, r.2)
    | none => tryOpen c r.2 attempts

/-- `peci_Lock`: the handle, or `none` for `PECI_CC_DRIVER_ERR`. -/
def peciLock (s : PeciState) (l : LockCall) : Option (Option ℕ × PeciState) :=
  s.tryOpen c l.attempts

/-- `close`: whether it succeeds, and the descriptors that are open afterwards. -/
def closeFd (o : Finset ℕ) (fd : ℤ) : Bool × Finset ℕ :=
  if 0 ≤ fd ∧ fd.toNat ∈ o then (true, o.erase fd.toNat) else (false, o)

def closeAll : Finset ℕ → List ℕ → List Bool × Finset ℕ
  | o, [] => ([], o)
  | o, fd :: fds =>
    let r := closeFd o fd
    let rs := closeAll r.2 fds
    (r.1 :: rs.1, rs.2)

/-- `peci_Unlock`: whether each of its `close` calls succeeds; a failing one is logged. Undefined
where the slot of a handle is `NULL`. -/
def peciUnlock (s : PeciState) (peciFd : ℤ) : Option (List Bool × PeciState) :=
  if (handleMin : ℤ) ≤ peciFd ∧ peciFd ≤ handleMax then
    match s.fds (handleMax - peciFd.toNat) with
    | none => none
    | some arr =>
      let r := closeAll s.opened (fdsOf arr)
      some (r.1, { fds := Function.update s.fds (handleMax - peciFd.toNat) none, opened := r.2 })
  else
    let r := closeFd s.opened peciFd
    some ([r.1], { s with opened := r.2 })

end PeciState

inductive Event
  | lock (l : LockCall)
  | unlock (peciFd : ℤ)
deriving DecidableEq

/-- What a call has answered. -/
inductive Reply
  | locked (handle : Option ℕ)
  | unlocked (closes : List Bool)
deriving DecidableEq

/-- The library, with the handles it has given out that have not been unlocked, each with the
descriptors its lock has opened, and the last answer. -/
structure Client where
  lib : PeciState
  live : List (ℕ × Finset ℕ)
  reply : Option Reply

namespace Client

def init (opened : Finset ℕ) : Client := ⟨⟨fun _ => none, opened⟩, [], none⟩

def step (c : Config) (s : Client) : Event → Option Client
  | .lock l => (s.lib.peciLock c l).map fun r => {
      lib := r.2
      live := match r.1 with
        | some h => (h, r.2.opened \ s.lib.opened) :: s.live
        | none => s.live
      reply := some (.locked r.1) }
  | .unlock peciFd => (s.lib.peciUnlock peciFd).map fun r => {
      lib := r.2
      live := s.live.filter fun h => (h.1 : ℤ) ≠ peciFd
      reply := some (.unlocked r.1) }

end Client

end MetaCommon.PeciI3c
