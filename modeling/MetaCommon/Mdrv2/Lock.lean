import MetaCommon.Mdrv2.Directory

/-!
# The lock of a directory entry

An entry is locked by its stage, its lock flag and its handle together. `smbiosTryLock` grants it
for reading or for an update and starts the timer; `smbiosUnlock` releases it and stops the timer;
`timeoutHandler` releases the entry that `currentAgentIndex` and `lockIndex` point at.
-/

namespace MetaCommon.Mdrv2

/-- What the commands call but the source does not show: the body of `getSessionHandle` up to its
result, which is the new `sessionHandle`; `calcChecksum32`; the checks of `DataStart` on the
transfer window and of `GetDataBlock` on the length of its response; the copy at the end of
`SendDataBlock`, which may refuse; and `storeDatatoFlash`, told whether the file system works. -/
structure Platform where
  getSessionHandle : Mdr2DirStruct → UInt16
  calcChecksum32 : List UInt8 → UInt32
  xferOutOfRange : (xferAddress xferLength : UInt32) → Bool
  respOutOfRange : (respXferLength xferLength : UInt32) → Bool
  copyBlock : (block : List UInt8) → (dest : ℕ → UInt8) → (off : ℕ) → Option (ℕ → UInt8)
  storeDatatoFlash : (works : Bool) → (mdrHdr : MDRSMBIOSHeader) → (data : ℕ → UInt8) →
    (old : Option TableFile) → Bool × Option TableFile

namespace MDRV2

variable (P : Platform) (s : MDRV2)

/-- `MDRV2::smbiosUnlock`. -/
def smbiosUnlock (a : AgentIndex) (i : DirIndex) : Bool × MDRV2 :=
  let e := s.entry a i
  match e.stage with
  | .mdr2Updating =>
    (true, { s.setEntry a i { e with
      stage := .mdr2Updated, lock := .mdr2DirUnlock, lockHandle := 0 } with timer := false })
  | .mdr2Updated | .mdr2Loaded =>
    (true, { s.setEntry a i { e with
      lock := .mdr2DirUnlock, lockHandle := 0 } with timer := false })
  | .mdr2Init => (false, s)

/-- A granting branch of `smbiosTryLock`: the new stage and lock flag, and the lines that all these
branches end with. -/
def startSession (a : AgentIndex) (i : DirIndex) (stage : MDR2SMBIOSStatusEnum)
    (lock : MDR2DirLockEnum) : Option UInt16 × MDRV2 :=
  let e := { s.entry a i with stage := stage, lock := lock }
  let s₁ := { s.setEntry a i e with timer := true, lockIndex := i }
  let session := P.getSessionHandle (s₁.mdrv2Dir a)
  let s₂ := s₁.setDir a { s₁.mdrv2Dir a with sessionHandle := session }
  (some session, (s₂.setEntry a i { e with lockHandle := session }).note (.granted (a, i) session))

/-- `MDRV2::smbiosTryLock`: the new session number, if the lock is granted. -/
def smbiosTryLock (a : AgentIndex) (flag : Bool) (i : DirIndex) : Option UInt16 × MDRV2 :=
  let e := s.entry a i
  match e.stage with
  | .mdr2Updating =>
    if e.lock ≠ .mdr2DirLock then s.startSession P a i .mdr2Updating .mdr2DirLock else (none, s)
  | .mdr2Init =>
    if flag then s.startSession P a i .mdr2Updating .mdr2DirUnlock else (none, s)
  | .mdr2Updated =>
    if e.lock ≠ .mdr2DirLock then
      if flag then s.startSession P a i .mdr2Updating .mdr2DirUnlock
      else s.startSession P a i .mdr2Updated .mdr2DirLock
    else (none, s)
  | .mdr2Loaded =>
    if e.lock ≠ .mdr2DirLock then
      if flag then s.startSession P a i .mdr2Updating .mdr2DirUnlock
      else s.startSession P a i .mdr2Loaded .mdr2DirLock
    else (none, s)

/-- `MDRV2::timeoutHandler`, run when the one-shot timer has fired. With the current agent -1 it
indexes in front of the array: the behaviour is undefined. -/
def timeoutHandler : Option MDRV2 :=
  match s.currentAgentIndex with
  | none => none
  | some a =>
    let s := { s with timer := false }.note .expired
    some { (s.smbiosUnlock a s.lockIndex).2 with area := false }

end MDRV2

end MetaCommon.Mdrv2
