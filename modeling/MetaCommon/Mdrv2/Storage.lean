import MetaCommon.Lib.Runs
import MetaCommon.Mdrv2.LockStep

/-!
# The sizes of an entry

Each directory has one entry in use. Its announced length, its capacity and the array behind it
stay in proportion in every run, so no command reads or writes outside of the array.
-/

namespace MetaCommon.Mdrv2

open Buffer MDRV2

/-- What the commands rely on in the parts they call: the checksum of a table is not the error
value, a response that is not longer than what was asked for passes, a copy that is not refused
copies the block, and a file system that works writes header and table. -/
structure Platform.Lawful (P : Platform) : Prop where
  checksum : ∀ bytes : List UInt8, bytes.length ≤ smbiosTableStorageSize.toNat →
    P.calcChecksum32 bytes ≠ invalidChecksum
  resp : ∀ n m, n ≤ m → P.respOutOfRange n m = false
  copy : ∀ block dest off b, P.copyBlock block dest off = some b → b = store dest off block
  flash : ∀ mdrHdr data old, P.storeDatatoFlash true mdrHdr data old =
    (true, some ⟨mdrHdr, load data 0 mdrHdr.dataSize.toNat⟩)

theorem byteSum_toNat_le (bytes : List UInt8) (h : 255 * bytes.length < 2 ^ 32) :
    (byteSum bytes).toNat ≤ 255 * bytes.length := by
  induction bytes with
  | nil => exact Nat.le_refl 0
  | cons x xs ih =>
    rw [List.length_cons] at h ⊢
    have hx : x.toUInt32.toNat < 256 := by
      rw [UInt8.toNat_toUInt32]
      exact x.toNat_lt
    have hxs := ih (by omega)
    rw [byteSum, UInt32.toNat_add]
    omega

theorem Platform.plain_lawful : Platform.plain.Lawful where
  checksum bytes hlen heq := by
    change bytes.length ≤ 65536 at hlen
    have hle := byteSum_toNat_le bytes (by omega)
    change byteSum bytes = _ at heq
    rw [heq] at hle
    change 4294967295 ≤ _ at hle
    omega
  resp n m hle := by
    change decide (n > m) = false
    rw [decide_eq_false_iff_not]
    exact UInt32.not_lt.mpr hle
  copy block dest off b h := (Option.some.inj h).symm
  flash _ _ _ := rfl

structure Mdr2DirLocalStruct.Sized (e : Mdr2DirLocalStruct) : Prop where
  announced : e.common.size ≤ smbiosTableStorageSize
  storage : smbiosTableStorageSize.toNat ≤ e.dataStorage.cap
  capacity : e.maxDataSize.toNat ≤ e.dataStorage.cap
  fits : e.dataStorage.addr.toNat + e.dataStorage.cap ≤ uintMax.toNat
  window : e.xferSize = smbiosSMMemorySize

theorem firstEntry_sized {storageSize version timestamp smSize : UInt32} {storage : TableStorage}
    (hs : smbiosTableStorageSize ≤ storageSize) (hc : storage.cap = storageSize.toNat)
    (hf : storage.addr.toNat + storageSize.toNat ≤ uintMax.toNat)
    (hw : smSize = smbiosSMMemorySize) :
    (firstEntry storageSize version timestamp smSize storage).Sized where
  announced := UInt32.zero_le
  storage := by
    rw [UInt32.le_iff_toNat_le] at hs
    exact Nat.le_trans hs (Nat.le_of_eq hc.symm)
  capacity := Nat.le_of_eq hc.symm
  fits := by
    rw [← hc] at hf
    exact hf
  window := hw

theorem Mdr2DirLocalStruct.Sized.setLock {e : Mdr2DirLocalStruct} (h : e.Sized) (l : EntryLock) :
    (e.setLock l).Sized :=
  ⟨h.announced, h.storage, h.capacity, h.fits, h.window⟩

def Mdr2DirLocalStruct.setBytes (e : Mdr2DirLocalStruct) (bytes : ℕ → UInt8) :
    Mdr2DirLocalStruct :=
  { e with dataStorage := { e.dataStorage with bytes := bytes } }

theorem Mdr2DirLocalStruct.Sized.setBytes {e : Mdr2DirLocalStruct} (h : e.Sized)
    (bytes : ℕ → UInt8) : (e.setBytes bytes).Sized :=
  ⟨h.announced, h.storage, h.capacity, h.fits, h.window⟩

namespace Mdr2DirLocalStruct.Sized

variable {e : Mdr2DirLocalStruct} {off : UInt32}

theorem windowSize_toNat (h : e.Sized) (len : UInt32) :
    (e.windowSize len).toNat = min len.toNat 1048576 := by
  have hwin : e.xferSize.toNat = 1048576 := congrArg UInt32.toNat h.window
  unfold windowSize
  split_ifs with hlen
  · rw [gt_iff_lt, UInt32.lt_iff_toNat_lt] at hlen
    omega
  · rw [gt_iff_lt, UInt32.not_lt, UInt32.le_iff_toNat_le] at hlen
    omega

/-- The offset is so small that it leaves room for a window. -/
theorem windowSize_le (h : e.Sized) (hoff : off < e.common.size) (len : UInt32) :
    ¬ e.windowSize len > uintMax - off := by
  have hsize := h.announced
  rw [UInt32.lt_iff_toNat_lt] at hoff
  rw [UInt32.le_iff_toNat_le] at hsize
  change _ ≤ 65536 at hsize
  have hmax : uintMax.toNat = 4294967295 := rfl
  have hle : off ≤ uintMax := by
    rw [UInt32.le_iff_toNat_le]
    omega
  rw [gt_iff_lt, UInt32.not_lt, UInt32.le_iff_toNat_le, UInt32.toNat_sub_of_le _ _ hle,
    h.windowSize_toNat]
  omega

theorem outSize_toNat (h : e.Sized) (hoff : off < e.common.size) (len : UInt32) :
    (e.outSize off (e.windowSize len)).toNat = min len.toNat (e.common.size.toNat - off.toNat) := by
  have hsize := h.announced
  have hwin := h.windowSize_toNat len
  rw [UInt32.lt_iff_toNat_lt] at hoff
  rw [UInt32.le_iff_toNat_le] at hsize
  change _ ≤ 65536 at hsize
  have hadd : (off + e.windowSize len).toNat = off.toNat + (e.windowSize len).toNat := by
    rw [UInt32.toNat_add]
    omega
  unfold outSize
  split_ifs with hgt
  · rw [gt_iff_lt, UInt32.lt_iff_toNat_lt, hadd] at hgt
    rw [UInt32.toNat_sub_of_le _ _ (UInt32.le_iff_toNat_le.mpr (by omega))]
    omega
  · rw [gt_iff_lt, UInt32.not_lt, UInt32.le_iff_toNat_le, hadd] at hgt
    omega

/-- A block ends in the table, and the table in the array. -/
theorem outSize_fits (h : e.Sized) (hoff : off < e.common.size) (len : UInt32) :
    off.toNat + (e.outSize off (e.windowSize len)).toNat ≤ e.dataStorage.cap := by
  have hsize := h.announced
  have hcap := h.storage
  rw [h.outSize_toNat hoff]
  rw [UInt32.lt_iff_toNat_lt] at hoff
  rw [UInt32.le_iff_toNat_le] at hsize
  omega

theorem readBlock_isSome (P : Platform) (h : e.Sized) (r : GetDataBlockReq) :
    (e.readBlock P r).isSome := by
  unfold readBlock
  split_ifs with hoff hwin
  · rfl
  · rfl
  · rw [ge_iff_le, UInt32.not_le] at hoff
    simp only
    split_ifs with hresp haddr hcap hsum
    · rfl
    · rfl
    · exact absurd (h.outSize_fits hoff _) (Nat.not_le.mpr hcap)
    · rfl
    · rfl

/-- A block holds the bytes at its offset, up to the end of the table. -/
theorem readBlock_eq {P : Platform} (hP : P.Lawful) (h : e.Sized) {r : GetDataBlockReq}
    (hoff : r.xferOffset < e.common.size) :
    ∃ n sum, e.readBlock P r = some (.ok (.block n sum (load e.dataStorage.bytes
      r.xferOffset.toNat (min r.xferLength.toNat (e.common.size.toNat - r.xferOffset.toNat))))) := by
  have hout := h.outSize_toNat hoff r.xferLength
  have hfits := h.outSize_fits hoff r.xferLength
  have hsize := h.announced
  have hbase := h.fits
  rw [UInt32.le_iff_toNat_le] at hsize
  have hresp : P.respOutOfRange (e.outSize r.xferOffset (e.windowSize r.xferLength)) r.xferLength =
      false := by
    apply hP.resp
    rw [UInt32.le_iff_toNat_le, hout]
    exact Nat.min_le_left _ _
  have haddr : ¬ r.xferOffset + e.outSize r.xferOffset (e.windowSize r.xferLength) >
      uintMax - e.dataStorage.addr := by
    have hmax : uintMax.toNat = 4294967295 := rfl
    have hle : e.dataStorage.addr ≤ uintMax := by
      rw [UInt32.le_iff_toNat_le]
      omega
    rw [gt_iff_lt, UInt32.not_lt, UInt32.le_iff_toNat_le, UInt32.toNat_sub_of_le _ _ hle,
      UInt32.toNat_add]
    omega
  have hsum : P.calcChecksum32 (load e.dataStorage.bytes r.xferOffset.toNat
      (e.outSize r.xferOffset (e.windowSize r.xferLength)).toNat) ≠ invalidChecksum := by
    apply hP.checksum
    rw [load_length, hout]
    omega
  unfold readBlock
  rw [if_neg (by rwa [ge_iff_le, UInt32.not_le]), if_neg (h.windowSize_le hoff _)]
  simp only [hresp, Bool.false_eq_true, if_false]
  rw [if_neg haddr, if_neg (Nat.not_lt.mpr hfits), if_neg hsum, hout]
  exact ⟨_, _, rfl⟩

end Mdr2DirLocalStruct.Sized

namespace MDRV2

/-- One entry of each directory is in use, and its sizes are in proportion. -/
structure Sized (s : MDRV2) : Prop where
  entries : ∀ a, (s.mdrv2Dir a).dirEntries = 1
  first : ∀ a, (s.entry a 0).Sized

theorem sized_init (m : Memory) (files : String → Option TableFile) :
    (MDRV2.init m files).Sized := by
  constructor
  · intro a
    by_cases ha : a = acpiAgentIndex <;> simp [MDRV2.init, acpiDir, smbiosDir, ha]
  · intro a
    by_cases ha : a = acpiAgentIndex
    · subst ha
      have he : (MDRV2.init m files).entry acpiAgentIndex 0 = firstEntry acpiTableStorageSize
          acpiTableVersion acpiTableTimestamp acpiSMMemorySize (m.storage acpiAgentIndex) := by
        simp [MDRV2.init, entry, acpiDir]
      rw [he]
      exact firstEntry_sized (by decide) rfl m.acpi_fits rfl
    · have he : (MDRV2.init m files).entry a 0 = firstEntry smbiosTableStorageSize
          smbiosTableVersion smbiosTableTimestamp smbiosSMMemorySize (m.storage a) := by
        simp [MDRV2.init, entry, smbiosDir, ha]
      have hm : m.storage a =
          ⟨m.smbiosAddr, smbiosTableStorageSize.toNat, m.smbiosTableStorage⟩ := by
        simp [Memory.storage, ha]
      rw [he, hm]
      exact firstEntry_sized (by decide) rfl m.smbios_fits rfl

namespace Sized

variable {s : MDRV2}

theorem findLockHandle_eq_zero (h : s.Sized) {a : AgentIndex} {lockHandle : UInt16} {i : DirIndex}
    (hf : s.findLockHandle a lockHandle = some i) : i = 0 := by
  have hlt := (s.findLockHandle_eq_some hf).1
  rw [h.entries a] at hlt
  have hi : i.val < 1 := hlt
  exact Fin.ext (by simpa using hi)

theorem findLockHandle_of_lockHandle (h : s.Sized) {a : AgentIndex} {lockHandle : UInt16}
    (he : (s.entry a 0).lockHandle = lockHandle) : s.findLockHandle a lockHandle = some 0 := by
  simp [MDRV2.findLockHandle, List.finRange_succ, h.entries a, he]

theorem setEntry (h : s.Sized) {a : AgentIndex} {i : DirIndex} {e : Mdr2DirLocalStruct}
    (he : (s.entry a i).Sized → e.Sized) : (s.setEntry a i e).Sized := by
  constructor
  · intro b
    by_cases hb : b = a
    · subst hb
      simpa [MDRV2.setEntry, setDir] using h.entries b
    · simpa [MDRV2.setEntry, setDir, hb] using h.entries b
  · intro b
    by_cases hk : (b, (0 : DirIndex)) = (a, i)
    · obtain ⟨rfl, rfl⟩ := Prod.mk.inj hk
      rw [entry_setEntry_self]
      exact he (h.first b)
    · rw [entry_setEntry_of_ne _ _ hk]
      exact h.first b

theorem of_dirs {s' : MDRV2} (h : s.Sized) (hd : s'.mdrv2Dir = s.mdrv2Dir) : s'.Sized := by
  constructor
  · rw [hd]
    exact h.entries
  · unfold entry
    rw [hd]
    exact h.first

theorem released (h : s.Sized) (a : AgentIndex) (i : DirIndex) : (s.released a i).Sized := by
  have hs : (s.setEntry a i ((s.entry a i).setLock (s.entry a i).lockState.release)).Sized :=
    h.setEntry fun he => he.setLock _
  exact ⟨hs.entries, hs.first⟩

theorem granted (h : s.Sized) (a : AgentIndex) (i : DirIndex) (l : EntryLock) :
    (s.granted a i l).Sized := by
  have hs : (s.setEntry a i ((s.entry a i).setLock l)).Sized := h.setEntry fun he => he.setLock l
  constructor
  · intro b
    by_cases hb : b = a
    · subst hb
      simpa [MDRV2.granted, setDir, note] using h.entries b
    · simpa [MDRV2.granted, setDir, note, hb] using h.entries b
  · intro b
    rw [entry_granted]
    exact hs.first b

theorem announce (h : s.Sized) {a : AgentIndex} {i : DirIndex} {session : UInt16}
    {dataLength : UInt32} (hl : dataLength ≤ smbiosTableStorageSize) :
    (s.announce a i session dataLength).Sized := by
  have h' : ({ s with area := true } : MDRV2).Sized := ⟨h.entries, h.first⟩
  exact h'.setEntry fun he => ⟨hl, he.storage, he.capacity, he.fits, he.window⟩

theorem announced (h : s.Sized) {a : AgentIndex} {i : DirIndex} {session : UInt16}
    {dataLength : UInt32} (hl : dataLength ≤ smbiosTableStorageSize) :
    (s.announced a i session dataLength).Sized :=
  Sized.announce (Sized.granted (s := s.started a) ⟨h.entries, h.first⟩ a i _) hl

theorem syncDirCommonData (h : s.Sized) (a : AgentIndex) (i : DirIndex)
    (reply : Option (UInt32 × UInt32 × UInt32)) : (s.syncDirCommonData a i reply).2.Sized := by
  unfold MDRV2.syncDirCommonData
  split
  · exact h
  · apply h.setEntry
    intro he
    exact ⟨he.announced, he.storage, he.capacity, he.fits, he.window⟩

theorem smbiosUnlock (h : s.Sized) (a : AgentIndex) (i : DirIndex) :
    (s.smbiosUnlock a i).2.Sized := by
  by_cases hs : (s.entry a i).stage = .mdr2Init
  · rw [smbiosUnlock_of_init _ hs]
    exact h
  · rw [smbiosUnlock_of_ne_init _ hs]
    exact h.released a i

theorem smbiosTryLock (P : Platform) (h : s.Sized) (a : AgentIndex) (flag : Bool) (i : DirIndex) :
    (s.smbiosTryLock P a flag i).2.Sized := by
  by_cases hc : (s.entry a i).lockState.CanLock flag
  · obtain ⟨session, hlock⟩ := s.smbiosTryLock_of_canLock P hc
    rw [hlock]
    exact h.granted a i _
  · rw [smbiosTryLock_of_not_canLock P s hc]
    exact h

theorem dataStart (P : Platform) (h : s.Sized) (r : DataStartReq) : (s.dataStart P r).2.Sized := by
  have hw := s.dataStart_dataStarts P r
  generalize (s.dataStart P r).1 = resp, (s.dataStart P r).2 = s' at hw ⊢
  cases hw with
  | outOfRange | unknownAgent | removalFails | noEntry | cannotLock => exact ⟨h.entries, h.first⟩
  | noSharedMemory a i session hr hc hm =>
    have hg := Sized.granted (s := s.started a) ⟨h.entries, h.first⟩ a i
      ((s.entry a i).lockState.grant true session)
    exact ⟨(hg.released a i).entries, (hg.released a i).first⟩
  | syncFailed a i session hr hc hm hn hy => exact h.announced hr.inRange.1
  | acceptedLocal a i session hr hc hm hn =>
    have ha : (s.announced a i session r.dataLength).Sized := h.announced hr.inRange.1
    exact ⟨ha.entries, ha.first⟩
  | acceptedSynced a i session hr hc hm hn hy =>
    have ha : (s.announced a i session r.dataLength).Sized := h.announced hr.inRange.1
    have hsync := ha.syncDirCommonData a i r.syncReply
    exact ⟨hsync.entries, hsync.first⟩

end Sized

/-- The check in front of a sum of two sizes rules the overflow out. -/
theorem toNat_add_of_not_gt {x y : UInt32} (h : ¬ x > uintMax - y) :
    (x + y).toNat = x.toNat + y.toNat := by
  have hy : y ≤ uintMax := by
    rw [UInt32.le_iff_toNat_le]
    exact Nat.le_of_lt_succ y.toNat_lt
  have hle : x.toNat ≤ (uintMax - y).toNat := by
    rw [← UInt32.le_iff_toNat_le]
    exact UInt32.not_lt.mp h
  rw [UInt32.toNat_sub_of_le _ _ hy] at hle
  have hmax : uintMax.toNat = 2 ^ 32 - 1 := rfl
  have hlt := y.toNat_lt
  rw [UInt32.toNat_add]
  omega

/-- The two ways through `SendDataBlock`. -/
inductive SendsBlock (P : Platform) (s : MDRV2) (r : SendDataBlockReq) : Response → MDRV2 → Prop
  | rejected (f : Failure) :
    SendsBlock P s r (.error f) (s.focus (currentAfter r.agentId s.currentAgentIndex))
  | accepted (a : AgentIndex) (bytes : ℕ → UInt8) (ha : agentOf r.agentId = some a)
    (hh : (s.entry a 0).lockHandle = r.lockHandle)
    (hmax : r.xferOffset.toNat + r.xferLength.toNat ≤ (s.entry a 0).maxDataSize.toNat)
    (hset : r.xferOffset.toNat + r.xferLength.toNat ≤ (s.entry a 0).common.dataSetSize.toNat)
    (hb : P.copyBlock (load r.shared 0 r.xferLength.toNat) (s.entry a 0).dataStorage.bytes
      r.xferOffset.toNat = some bytes) :
    SendsBlock P s r (.ok .done)
      ((s.focus (some a)).setEntry a 0 ((s.entry a 0).setBytes bytes))

theorem sendDataBlock_sendsBlock {P : Platform} {s s' : MDRV2} {r : SendDataBlockReq}
    {resp : Response} (hs : s.Sized) (h : s.sendDataBlock P r = some (resp, s')) :
    SendsBlock P s r resp s' := by
  have hrej {f : Failure} {c : Option AgentIndex} (hc : currentAfter r.agentId s.currentAgentIndex = c)
      (hr : some (Except.error f, s.focus c) = some (resp, s')) : SendsBlock P s r resp s' := by
    obtain ⟨rfl, rfl⟩ := Prod.mk.inj (Option.some.inj hr)
    rw [← hc]
    exact .rejected f
  unfold sendDataBlock at h
  rw [agentLookup_eq] at h
  cases ha : agentOf r.agentId with
  | none =>
    simp only [ha] at h
    exact hrej rfl h
  | some a =>
    have hcur := currentAfter_of_agentOf ha s.currentAgentIndex
    simp only [ha, hcur, focus_findLockHandle] at h
    cases hf : s.findLockHandle a r.lockHandle with
    | none =>
      simp only [hf] at h
      exact hrej hcur h
    | some i =>
      obtain rfl := hs.findLockHandle_eq_zero hf
      simp only [hf] at h
      split_ifs at h with hu hoff hlen haddr harea hsum hcap
      · exact hrej hcur h
      · exact hrej hcur h
      · exact hrej hcur h
      · exact hrej hcur h
      · split at h
        · exact hrej hcur h
        · next bytes hb =>
          obtain ⟨rfl, rfl⟩ := Prod.mk.inj (Option.some.inj h)
          rw [not_or, gt_iff_lt, gt_iff_lt, UInt32.not_lt, UInt32.not_lt,
            UInt32.le_iff_toNat_le, UInt32.le_iff_toNat_le, toNat_add_of_not_gt hoff] at hlen
          exact .accepted a bytes ha (s.findLockHandle_eq_some hf).2 hlen.1 hlen.2 hb
      · exact hrej hcur h

/-- With the shared memory mapped, `SendDataBlock` stays inside of its arrays. -/
theorem sendDataBlock_isSome (P : Platform) {s : MDRV2} (hs : s.Sized) (ha : s.area = true)
    (r : SendDataBlockReq) : (s.sendDataBlock P r).isSome := by
  unfold sendDataBlock
  rw [agentLookup_eq]
  cases hag : agentOf r.agentId with
  | none => rfl
  | some a =>
    rw [currentAfter_of_agentOf hag]
    simp only [focus_findLockHandle]
    cases hf : s.findLockHandle a r.lockHandle with
    | none => rfl
    | some i =>
      obtain rfl := hs.findLockHandle_eq_zero hf
      have harea : (s.focus (some a)).area = true := ha
      simp only [harea, if_true]
      split_ifs with hu hoff hlen haddr hsum hcap
      · rfl
      · rfl
      · rfl
      · rfl
      · rw [not_or, gt_iff_lt, UInt32.not_lt, UInt32.le_iff_toNat_le,
          toNat_add_of_not_gt hoff] at hlen
        exact absurd (Nat.le_trans hlen.1 (hs.first a).capacity) (Nat.not_le.mpr hcap)
      · split <;> rfl
      · rfl

/-- What a command without data does to the directories: nothing, or what `smbiosTryLock` or
`smbiosUnlock` does from a state with the same directories. -/
inductive Relocked (P : Platform) (s s' : MDRV2) : Prop
  | stays (hd : s'.mdrv2Dir = s.mdrv2Dir)
  | tries (t : MDRV2) (ht : t.mdrv2Dir = s.mdrv2Dir) (a : AgentIndex) (i : DirIndex)
    (hd : s'.mdrv2Dir = (t.smbiosTryLock P a false i).2.mdrv2Dir)
  | unlocks (t : MDRV2) (ht : t.mdrv2Dir = s.mdrv2Dir) (a : AgentIndex) (i : DirIndex)
    (hd : s'.mdrv2Dir = (t.smbiosUnlock a i).2.mdrv2Dir)

theorem lockData_relocked (P : Platform) (s : MDRV2) (r : LockDataReq) :
    s.Relocked P (s.lockData P r).2 := by
  unfold lockData
  rw [agentLookup_eq]
  have ht : (s.focus (currentAfter r.agentId s.currentAgentIndex)).mdrv2Dir = s.mdrv2Dir := rfl
  generalize s.focus (currentAfter r.agentId s.currentAgentIndex) = t at ht ⊢
  cases agentOf r.agentId with
  | none => exact .stays ht
  | some a =>
    simp only
    split
    · exact .stays ht
    · next i _ =>
      split <;> next hs =>
        exact .tries t ht a i (congrArg (fun p => p.2.mdrv2Dir) hs).symm

theorem unlockData_relocked (P : Platform) (s : MDRV2) (r : UnlockDataReq) :
    s.Relocked P (s.unlockData r).2 := by
  unfold unlockData
  rw [agentLookup_eq]
  have ht : (s.focus (currentAfter r.agentId s.currentAgentIndex)).mdrv2Dir = s.mdrv2Dir := rfl
  generalize s.focus (currentAfter r.agentId s.currentAgentIndex) = t at ht ⊢
  cases agentOf r.agentId with
  | none => exact .stays ht
  | some a =>
    simp only
    split
    · exact .stays ht
    · next i _ =>
      split <;> next hs =>
        exact .unlocks t ht a i (congrArg (fun p => p.2.mdrv2Dir) hs).symm

theorem Relocked.congr {P : Platform} {s s' s'' : MDRV2} (h : s.Relocked P s')
    (hd : s''.mdrv2Dir = s'.mdrv2Dir) : s.Relocked P s'' := by
  cases h with
  | stays h => exact .stays (hd.trans h)
  | tries t ht a i h => exact .tries t ht a i (hd.trans h)
  | unlocks t ht a i h => exact .unlocks t ht a i (hd.trans h)

theorem dataDone_relocked (P : Platform) (s : MDRV2) (r : DataDoneReq) :
    s.Relocked P (s.dataDone P r).2 :=
  (s.unlockData_relocked P ⟨r.agentId, r.lockHandle⟩).congr (s.dataDone_unlocks P r).2

theorem timeoutHandler_relocked (P : Platform) {s s' : MDRV2} (h : s.timeoutHandler = some s') :
    s.Relocked P s' := by
  unfold timeoutHandler at h
  split at h
  · cases h
  · next a _ =>
    obtain rfl := Option.some.inj h
    exact .unlocks ({ s with timer := false }.note .expired) rfl a s.lockIndex rfl

theorem respond_relocked {P : Platform} {s s' : MDRV2} {e : Event} {resp : Response}
    (hstart : ∀ r, e ≠ .dataStart r) (hsend : ∀ r, e ≠ .sendDataBlock r)
    (hr : s.respond P e = some (resp, s')) : s.Relocked P s' := by
  cases e with
  | agentLookup agentId =>
    rw [← (Prod.mk.inj (Option.some.inj hr)).2, agentLookup_eq]
    exact .stays rfl
  | lockData r =>
    have hs : (s.lockData P r).2 = s' := congrArg Prod.snd (Option.some.inj hr)
    rw [← hs]
    exact s.lockData_relocked P r
  | unlockData r =>
    have hs : (s.unlockData r).2 = s' := congrArg Prod.snd (Option.some.inj hr)
    rw [← hs]
    exact s.unlockData_relocked P r
  | dataStart r => exact (hstart r rfl).elim
  | dataDone r =>
    have hs : (s.dataDone P r).2 = s' := congrArg Prod.snd (Option.some.inj hr)
    rw [← hs]
    exact s.dataDone_relocked P r
  | getDataBlock r =>
    rw [s.getDataBlock_eq_focus P hr]
    exact .stays rfl
  | sendDataBlock r => exact (hsend r rfl).elim
  | timeout =>
    simp only [MDRV2.respond] at hr
    split_ifs at hr
    · obtain ⟨t, ht, hpair⟩ := Option.map_eq_some_iff.mp hr
      rw [← (Prod.mk.inj hpair).2]
      exact timeoutHandler_relocked P ht
    · rw [← (Prod.mk.inj (Option.some.inj hr)).2]
      exact .stays rfl

theorem Relocked.sized {P : Platform} {s s' : MDRV2} (hr : s.Relocked P s') (h : s.Sized) :
    s'.Sized := by
  cases hr with
  | stays hd => exact h.of_dirs hd
  | tries t ht a i hd => exact ((h.of_dirs ht).smbiosTryLock P a false i).of_dirs hd
  | unlocks t ht a i hd => exact ((h.of_dirs ht).smbiosUnlock a i).of_dirs hd

theorem Sized.respond {P : Platform} {s s' : MDRV2} {e : Event} {resp : Response} (h : s.Sized)
    (hr : s.respond P e = some (resp, s')) : s'.Sized := by
  cases e with
  | dataStart r =>
    have hs : (s.dataStart P r).2 = s' := congrArg Prod.snd (Option.some.inj hr)
    rw [← hs]
    exact h.dataStart P r
  | sendDataBlock r =>
    cases sendDataBlock_sendsBlock h hr with
    | rejected f => exact ⟨h.entries, h.first⟩
    | accepted a bytes _ _ _ _ _ =>
      have hf : (s.focus (some a)).Sized := ⟨h.entries, h.first⟩
      exact hf.setEntry fun he => he.setBytes bytes
  | _ => exact (respond_relocked (by simp) (by simp) hr).sized h

/-- The sizes are in proportion in every run. -/
theorem run_sized (P : Platform) (m : Memory) (files : String → Option TableFile) (es : List Event)
    {s : MDRV2} (hs : Runs.exec (MDRV2.step P) (MDRV2.init m files) es = some s) : s.Sized := by
  refine Runs.exec_invariant (fun s e s' h he => ?_) (sized_init m files) hs
  obtain ⟨⟨resp, _⟩, hr, rfl⟩ := Option.map_eq_some_iff.mp he
  exact h.respond hr

end MDRV2

end MetaCommon.Mdrv2
