import MetaCommon.Mdrv2.Storage

/-!
# What a host sends and gets back

After an accepted `DataStart` the host sends blocks and then ends the transfer. `TransferSound`
says what becomes of the blocks, and that the host reads an entry back block by block.
-/

namespace MetaCommon.Mdrv2

open Buffer MDRV2

/-- The bytes of the host, with their offset. -/
def SendDataBlockReq.block (r : SendDataBlockReq) : ℕ × List UInt8 :=
  (r.xferOffset.toNat, load r.shared 0 r.xferLength.toNat)

/-- The blocks leave no byte of a table of length `n` out. -/
def Covers (blocks : List (ℕ × List UInt8)) (n : ℕ) : Prop :=
  ∀ k < n, ∃ x ∈ blocks, x.1 ≤ k ∧ k < x.1 + x.2.length

namespace MDRV2

variable (P : Platform) (s : MDRV2)

/-- A run of `SendDataBlock` requests, with the blocks it accepts for agent `a`. -/
def sendAll (a : AgentIndex) : MDRV2 → List SendDataBlockReq →
    Option (List (ℕ × List UInt8) × MDRV2)
  | s, [] => some ([], s)
  | s, r :: rs =>
    match s.sendDataBlock P r with
    | none => none
    | some (.error _, s) => sendAll a s rs
    | some (.ok _, s) =>
      (sendAll a s rs).map fun (blocks, s) =>
        (if agentOf r.agentId = some a then r.block :: blocks else blocks, s)

/-- The bytes a host gets that asks for one block after the other, unless a request fails. -/
def getDataBlocks : MDRV2 → List GetDataBlockReq → Option (List UInt8)
  | _, [] => some []
  | s, r :: rs =>
    match s.getDataBlock P r with
    | some (.ok (.block _ _ data), s) => (getDataBlocks s rs).map (data ++ ·)
    | _ => none

/-- The requests for a table of length `size`, in steps of `step`. -/
def tableReqs (agentId lockHandle : UInt16) (size : ℕ) (step : UInt32) : List GetDataBlockReq :=
  (List.range' 0 ((size + step.toNat - 1) / step.toNat) step.toNat).map fun off =>
    ⟨agentId, lockHandle, UInt32.ofNat off, step⟩

/-- If the service is asked for the entry, its answer is an entry in use. -/
def ServiceNamesEntry (r : DataStartReq) : Prop :=
  ∀ a i, Requests P s r a i → (s.mdrv2Dir a).noService = false →
    i.val < (s.mdrv2Dir a).dirEntries.val

end MDRV2

/-- An accepted block lies below `bound` and replaces the bytes at its offset, nothing else. -/
structure BlockSound (bound : Mdr2DirLocalStruct → ℕ) (a : AgentIndex) (r : SendDataBlockReq)
    (s s' : MDRV2) : Prop where
  inside : r.xferOffset.toNat + r.xferLength.toNat ≤ bound (s.entry a 0)
  entry : s'.entry a 0 = (s.entry a 0).setBytes (s'.entry a 0).dataStorage.bytes
  bytes : ∀ k, (s'.entry a 0).dataStorage.bytes k =
    if r.xferOffset.toNat ≤ k ∧ k < r.xferOffset.toNat + r.xferLength.toNat then
      r.shared (k - r.xferOffset.toNat)
    else (s.entry a 0).dataStorage.bytes k
  others : ∀ b i, (b, i) ≠ (a, 0) → s'.entry b i = s.entry b i
  files : s'.files = s.files

/-- The file of agent `a` holds what the last blocks have written of a table of length `n`. -/
def TableStored (a : AgentIndex) (n : ℕ) (blocks : List (ℕ × List UInt8)) (s s' : MDRV2) : Prop :=
  ∃ file, s'.files = Function.update s.files (s.mdrv2Dir a).fileName (some file) ∧
    file.header.dataSize.toNat = n ∧ file.data.length = n ∧
    ∀ k < n, file.data[k]? = lastWrite blocks k

/-- Agent `a` has announced a table of length `n` and got the session number, and the blocks have
been accepted since. -/
structure UploadSound (P : Platform) (bound : Mdr2DirLocalStruct → ℕ) (a : AgentIndex) (n : ℕ)
    (session : UInt16) (blocks : List (ℕ × List UInt8)) (s : MDRV2) : Prop where
  size : (s.entry a 0).common.size.toNat = n
  accepts : ∀ r reply s', s.sendDataBlock P r = some (.ok reply, s') →
    ∃ b, agentOf r.agentId = some b ∧ BlockSound bound b r s s'
  done : Covers blocks n → ∀ r : DataDoneReq, agentOf r.agentId = some a →
    r.lockHandle = session → r.flashWorks = true →
    TableStored a n blocks s (s.dataDone P r).2 ∧
      ((s.mdrv2Dir a).noService = true ∨ r.syncReply = some true → (s.dataDone P r).1 = .ok .done)

/-- What the transfer commands promise in a state, where `bound` limits the blocks of an entry. -/
structure TransferSound (P : Platform) (bound : Mdr2DirLocalStruct → ℕ) (s : MDRV2) : Prop where
  update : ∀ r session s₁, s.dataStart P r = (.ok (.session session), s₁) →
    s.ServiceNamesEntry P r → ∃ a, agentOf r.agentId = some a ∧
      ∀ reqs, ∃ blocks s₂, sendAll P a s₁ reqs = some (blocks, s₂) ∧
        UploadSound P bound a r.dataLength.toNat session blocks s₂
  read : ∀ agentId a lockHandle i step, agentOf agentId = some a →
    s.findLockHandle a lockHandle = some i → 0 < step →
    s.getDataBlocks P (tableReqs agentId lockHandle (s.entry a i).common.size.toNat step) =
      some (load (s.entry a i).dataStorage.bytes 0 (s.entry a i).common.size.toNat)
  inRange : ∀ r, (s.getDataBlock P r).isSome

/-- The entry is locked under `session` for a table of length `n`. -/
structure Mdr2DirLocalStruct.Announces (e : Mdr2DirLocalStruct) (n : UInt32) (session : UInt16) :
    Prop where
  stage : e.stage ≠ .mdr2Init
  size : e.common.size = n
  handle : e.lockHandle = session

/-- The table as `DataDone` writes it. -/
def Mdr2DirLocalStruct.tableFile (e : Mdr2DirLocalStruct) : TableFile where
  header := ⟨mdrTypeII, e.common.dataVersion, e.common.timestamp, e.common.size⟩
  data := load e.dataStorage.bytes 0 e.common.size.toNat

/-- The code's limit for the blocks of an entry: its capacity and its `dataSetSize`. -/
def Mdr2DirLocalStruct.blockBound (e : Mdr2DirLocalStruct) : ℕ :=
  min e.maxDataSize.toNat e.common.dataSetSize.toNat

namespace MDRV2

variable {P : Platform} {s : MDRV2}

theorem blockSound_of_accepted (hP : P.Lawful) (hs : s.Sized) {r : SendDataBlockReq} {reply : Reply}
    {s' : MDRV2} (h : s.sendDataBlock P r = some (.ok reply, s')) :
    ∃ a, agentOf r.agentId = some a ∧ BlockSound Mdr2DirLocalStruct.blockBound a r s s' := by
  cases sendDataBlock_sendsBlock hs h with
  | accepted a bytes ha hh hmax hset hb =>
    refine ⟨a, ha, Nat.le_min.mpr ⟨hmax, hset⟩, ?_, fun k => ?_, fun b i hk => ?_, rfl⟩
    · rw [entry_setEntry_self]
      rfl
    · rw [entry_setEntry_self, hP.copy _ _ _ _ hb]
      change store _ _ _ k = _
      rw [store_apply, load_getElem?]
      by_cases hlo : r.xferOffset.toNat ≤ k
      · rw [if_pos hlo]
        by_cases hhi : k - r.xferOffset.toNat < r.xferLength.toNat
        · rw [if_pos hhi, if_pos ⟨hlo, by omega⟩, Option.getD_some, Nat.zero_add]
        · rw [if_neg hhi, if_neg (by omega), Option.getD_none]
      · rw [if_neg hlo, if_neg (by omega)]
    · rw [entry_setEntry_of_ne _ _ hk, focus_entry]

/-- The state after some blocks of a transfer for agent `a` that began with the entry `e`. -/
structure Transferring (a : AgentIndex) (e : Mdr2DirLocalStruct) (blocks : List (ℕ × List UInt8))
    (s : MDRV2) : Prop where
  sized : s.Sized
  area : s.area = true
  entry : s.entry a 0 = e.setBytes (storeAll e.dataStorage.bytes blocks)

theorem Transferring.rejected {a : AgentIndex} {e : Mdr2DirLocalStruct}
    {blocks : List (ℕ × List UInt8)} (h : Transferring a e blocks s) (c : Option AgentIndex) :
    Transferring a e blocks (s.focus c) :=
  ⟨⟨h.sized.entries, h.sized.first⟩, h.area, h.entry⟩

theorem Transferring.accepted {a : AgentIndex} {e : Mdr2DirLocalStruct}
    {blocks : List (ℕ × List UInt8)} (h : Transferring a e blocks s) (b : AgentIndex)
    (x : ℕ × List UInt8) :
    Transferring a e (if b = a then blocks ++ [x] else blocks) ((s.focus (some b)).setEntry b 0
      ((s.entry b 0).setBytes (store (s.entry b 0).dataStorage.bytes x.1 x.2))) := by
  have hf : (s.focus (some b)).Sized := ⟨h.sized.entries, h.sized.first⟩
  refine ⟨hf.setEntry fun he => he.setBytes _, h.area, ?_⟩
  by_cases hb : b = a
  · subst hb
    rw [if_pos rfl, entry_setEntry_self, h.entry, storeAll_concat]
    rfl
  · have hk : (a, (0 : DirIndex)) ≠ (b, 0) := fun hk => hb (Prod.mk.inj hk).1.symm
    rw [if_neg hb, entry_setEntry_of_ne _ _ hk]
    exact h.entry

/-- With the shared memory mapped, every list of requests runs through. -/
theorem Transferring.sendAll (hP : P.Lawful) {a : AgentIndex} {e : Mdr2DirLocalStruct}
    (reqs : List SendDataBlockReq) {blocks : List (ℕ × List UInt8)} (h : Transferring a e blocks s) :
    ∃ more s', MDRV2.sendAll P a s reqs = some (more, s') ∧
      Transferring a e (blocks ++ more) s' := by
  induction reqs generalizing s blocks with
  | nil => exact ⟨[], s, rfl, by rwa [List.append_nil]⟩
  | cons r rs ih =>
    obtain ⟨⟨resp, t⟩, ht⟩ := Option.isSome_iff_exists.mp (sendDataBlock_isSome P h.sized h.area r)
    have hw := sendDataBlock_sendsBlock h.sized ht
    cases hw with
    | rejected f =>
      obtain ⟨more, s', hrun, htr⟩ := ih (h.rejected _)
      refine ⟨more, s', ?_, htr⟩
      rw [MDRV2.sendAll, ht]
      exact hrun
    | accepted b bytes hb hh hmax hset hcopy =>
      obtain rfl := hP.copy _ _ _ _ hcopy
      obtain ⟨more, s', hrun, htr⟩ := ih (h.accepted b r.block)
      refine ⟨if b = a then r.block :: more else more, s', ?_, ?_⟩
      · rw [MDRV2.sendAll, ht, hb]
        simp only [Option.some.injEq]
        exact congrArg _ hrun
      · by_cases hba : b = a
        · rw [if_pos hba] at htr ⊢
          rwa [List.append_assoc] at htr
        · rwa [if_neg hba] at htr ⊢

/-- The state in which `DataDone` has written the table of agent `a`. -/
def tableDone (s : MDRV2) (a : AgentIndex) : MDRV2 :=
  let u := ((s.focus (some a)).released a mdrv2DirIndex).note (.released (a, mdrv2DirIndex))
  { u with
    area := false
    files := Function.update u.files (u.mdrv2Dir a).fileName
      (some (u.entry a mdrv2DirIndex).tableFile) }

/-- `DataDone` with the handle of an entry that has been locked stores its table. -/
theorem dataDone_of_handle (hP : P.Lawful) (hs : s.Sized) {a : AgentIndex}
    (hst : (s.entry a 0).stage ≠ .mdr2Init) {r : DataDoneReq} (ha : agentOf r.agentId = some a)
    (hh : (s.entry a 0).lockHandle = r.lockHandle) (hw : r.flashWorks = true) :
    s.dataDone P r =
      (if ((s.tableDone a).mdrv2Dir a).noService then .ok .done
        else if r.syncReply = some true then .ok .done else .error .syncFailed,
        s.tableDone a) := by
  have hunlock : (s.focus (some a)).smbiosUnlock a 0 =
      (true, (s.focus (some a)).released a 0) := smbiosUnlock_of_ne_init _ hst
  unfold dataDone
  rw [agentLookup_of_agentOf _ ha]
  simp only [focus_findLockHandle, hs.findLockHandle_of_lockHandle hh, hunlock, hw, hP.flash,
    if_true]
  change (if ((s.tableDone a).mdrv2Dir a).noService then (Except.ok Reply.done, s.tableDone a)
    else if r.syncReply = some true then (.ok .done, s.tableDone a)
    else (.error Failure.syncFailed, s.tableDone a)) = _
  split_ifs <;> rfl

theorem tableDone_config (s : MDRV2) (a b : AgentIndex) :
    ((s.tableDone a).mdrv2Dir b).config = (s.mdrv2Dir b).config :=
  (s.focus (some a)).setEntry_config a b 0 _

theorem tableDone_files (s : MDRV2) (a : AgentIndex) :
    (s.tableDone a).files =
      Function.update s.files (s.mdrv2Dir a).fileName (some (s.entry a 0).tableFile) := by
  have hname : ((s.tableDone a).mdrv2Dir a).fileName = (s.mdrv2Dir a).fileName :=
    congrArg (fun c => c.2.1) (s.tableDone_config a a)
  have hself : ((s.focus (some a)).released a 0).entry a 0 =
      (s.entry a 0).setLock (s.entry a 0).lockState.release :=
    (s.focus (some a)).entry_setEntry_self a 0 _
  have hfile : (((s.focus (some a)).released a 0).entry a 0).tableFile =
      (s.entry a 0).tableFile := by
    rw [hself]
    rfl
  rw [← hname, ← hfile]
  rfl

theorem Transferring.tableStored {a : AgentIndex} {e : Mdr2DirLocalStruct}
    {blocks : List (ℕ × List UInt8)} (h : Transferring a e blocks s)
    (hc : Covers blocks e.common.size.toNat) :
    TableStored a e.common.size.toNat blocks s (s.tableDone a) := by
  refine ⟨(s.entry a 0).tableFile, s.tableDone_files a, ?_, ?_, fun k hk => ?_⟩
  · rw [h.entry]
    rfl
  · rw [h.entry]
    exact load_length _ _ _
  · obtain ⟨x, hx⟩ := Option.isSome_iff_exists.mp (lastWrite_isSome (hc k hk))
    rw [h.entry]
    change (load (storeAll e.dataStorage.bytes blocks) 0 e.common.size.toNat)[k]? = _
    rw [load_getElem?, if_pos hk, Nat.zero_add, storeAll_apply, hx, Option.getD_some]

theorem Transferring.uploadSound (hP : P.Lawful) {a : AgentIndex} {e : Mdr2DirLocalStruct}
    {blocks : List (ℕ × List UInt8)} (h : Transferring a e blocks s) {n : UInt32}
    {session : UInt16} (he : e.Announces n session) :
    UploadSound P Mdr2DirLocalStruct.blockBound a n.toNat session blocks s where
  size := by
    rw [h.entry, ← he.size]
    rfl
  accepts r reply s' hr := blockSound_of_accepted hP h.sized hr
  done hc r ha hh hw := by
    have hstage : (s.entry a 0).stage ≠ .mdr2Init := by
      rw [h.entry]
      exact he.stage
    have hhandle : (s.entry a 0).lockHandle = r.lockHandle := by
      rw [h.entry, hh]
      exact he.handle
    have hserv : ((s.tableDone a).mdrv2Dir a).noService = (s.mdrv2Dir a).noService :=
      Mdr2DirStruct.noService_congr (s.tableDone_config a a)
    rw [dataDone_of_handle hP h.sized hstage ha hhandle hw, hserv]
    rw [← he.size] at hc ⊢
    refine ⟨h.tableStored hc, fun hok => ?_⟩
    by_cases hn : (s.mdrv2Dir a).noService = true
    · rw [if_pos hn]
    · rw [if_neg hn, if_pos (hok.resolve_left hn)]

theorem announces_announced (s : MDRV2) (a : AgentIndex) (i : DirIndex) (session : UInt16)
    (dataLength : UInt32) :
    ((s.announced a i session dataLength).entry a i).Announces dataLength session := by
  unfold announced announce
  rw [entry_setEntry_self, granted_entry_self]
  exact ⟨EntryLock.grant_stage_ne_init _ _ _, rfl, rfl⟩

theorem announces_syncDirCommonData {a : AgentIndex} {i : DirIndex} {n : UInt32} {session : UInt16}
    (h : (s.entry a i).Announces n session) (reply : Option (UInt32 × UInt32 × UInt32)) :
    ((s.syncDirCommonData a i reply).2.entry a i).Announces n session := by
  cases reply with
  | none => exact h
  | some reply =>
    unfold MDRV2.syncDirCommonData
    rw [entry_setEntry_self]
    exact ⟨h.stage, h.size, h.handle⟩

/-- The search in the directory finds entries in use only. -/
theorem Requests.lt_dirEntries {r : DataStartReq} {a : AgentIndex} {i : DirIndex}
    (hr : Requests P s r a i) (hn : (s.mdrv2Dir a).noService = true) :
    i.val < (s.mdrv2Dir a).dirEntries.val := by
  have hindex := hr.index
  unfold Mdr2DirStruct.dataIdIndex at hindex
  rw [if_pos hn] at hindex
  split at hindex
  · next j hj =>
    obtain rfl := Except.ok.inj hindex
    have hfound := List.find?_some hj
    rw [decide_eq_true_eq] at hfound
    exact hfound.1
  · cases hindex

/-- An accepted `DataStart` begins a transfer. -/
theorem dataStart_accepted (hs : s.Sized) {r : DataStartReq} {session : UInt16} {s₁ : MDRV2}
    (h : s.dataStart P r = (.ok (.session session), s₁)) (hu : s.ServiceNamesEntry P r) :
    ∃ a e, agentOf r.agentId = some a ∧ Transferring a e [] s₁ ∧
      e.Announces r.dataLength session := by
  have hsized := Sized.dataStart P hs r
  have hw := s.dataStart_dataStarts P r
  have hzero {a : AgentIndex} {i : DirIndex} (hlt : i.val < (s.mdrv2Dir a).dirEntries.val) :
      i = 0 := by
    rw [hs.entries a] at hlt
    have hi : i.val < 1 := hlt
    exact Fin.ext (by simpa using hi)
  rw [h] at hsized hw
  cases hw with
  | acceptedLocal a i _ hr hc hm hn =>
    obtain rfl := hzero (hr.lt_dirEntries hn)
    exact ⟨a, _, hr.agent, ⟨hsized, rfl, rfl⟩, s.announces_announced a 0 session r.dataLength⟩
  | acceptedSynced a i _ hr hc hm hn hy =>
    obtain rfl := hzero (hu a i hr hn)
    refine ⟨a, _, hr.agent, ⟨hsized, ?_, rfl⟩,
      announces_syncDirCommonData (s.announces_announced a 0 session r.dataLength) r.syncReply⟩
    obtain ⟨reply, hreply⟩ := Option.isSome_iff_exists.mp hy
    rw [hreply]
    rfl

/-- A block of a table is read without a failure. -/
theorem getDataBlock_of_handle (hP : P.Lawful) (hs : s.Sized) {r : GetDataBlockReq}
    {a : AgentIndex} {i : DirIndex} (ha : agentOf r.agentId = some a)
    (hf : s.findLockHandle a r.lockHandle = some i)
    (hoff : r.xferOffset < (s.entry a i).common.size) :
    ∃ n sum, s.getDataBlock P r = some (.ok (.block n sum (load (s.entry a i).dataStorage.bytes
      r.xferOffset.toNat (min r.xferLength.toNat
        ((s.entry a i).common.size.toNat - r.xferOffset.toNat)))), s.focus (some a)) := by
  obtain rfl := hs.findLockHandle_eq_zero hf
  obtain ⟨n, sum, hread⟩ := (hs.first a).readBlock_eq hP hoff
  refine ⟨n, sum, ?_⟩
  unfold getDataBlock
  rw [agentLookup_of_agentOf _ ha]
  simp only [focus_findLockHandle, hf, focus_entry, hread, Option.map_some]

theorem getDataBlocks_eq (hP : P.Lawful) (hs : s.Sized) {agentId lockHandle : UInt16}
    {a : AgentIndex} {i : DirIndex} (ha : agentOf agentId = some a)
    (hf : s.findLockHandle a lockHandle = some i) (step : UInt32) {offs : List ℕ}
    (hoffs : ∀ off ∈ offs, off < (s.entry a i).common.size.toNat) :
    s.getDataBlocks P (offs.map fun off => ⟨agentId, lockHandle, UInt32.ofNat off, step⟩) =
      some (offs.flatMap fun off => load (s.entry a i).dataStorage.bytes off
        (min step.toNat ((s.entry a i).common.size.toNat - off))) := by
  induction offs generalizing s with
  | nil => rfl
  | cons off offs ih =>
    have hlt := hoffs off List.mem_cons_self
    have htoNat : (UInt32.ofNat off).toNat = off := by
      rw [UInt32.toNat_ofNat']
      exact Nat.mod_eq_of_lt (Nat.lt_trans hlt (UInt32.toNat_lt _))
    obtain ⟨n, sum, hget⟩ := getDataBlock_of_handle hP hs
      (r := ⟨agentId, lockHandle, UInt32.ofNat off, step⟩) ha hf (by
        rw [UInt32.lt_iff_toNat_lt, htoNat]
        exact hlt)
    have hrest := ih (s := s.focus (some a)) ⟨hs.entries, hs.first⟩ hf
      fun o ho => hoffs o (List.mem_cons_of_mem _ ho)
    rw [List.map_cons, getDataBlocks, hget, List.flatMap_cons]
    simp only [htoNat]
    rw [hrest]
    rfl

/-- A table is read back block by block. -/
theorem getDataBlocks_tableReqs (hP : P.Lawful) (hs : s.Sized) {agentId lockHandle : UInt16}
    {a : AgentIndex} {i : DirIndex} (ha : agentOf agentId = some a)
    (hf : s.findLockHandle a lockHandle = some i) {step : UInt32} (hstep : 0 < step) :
    s.getDataBlocks P (tableReqs agentId lockHandle (s.entry a i).common.size.toNat step) =
      some (load (s.entry a i).dataStorage.bytes 0 (s.entry a i).common.size.toNat) := by
  have hpos : 0 < step.toNat := UInt32.lt_iff_toNat_lt.mp hstep
  generalize hsize : (s.entry a i).common.size.toNat = size
  generalize hcount : (size + step.toNat - 1) / step.toNat = count
  have hdiv := Nat.div_add_mod (size + step.toNat - 1) step.toNat
  have hmod := Nat.mod_lt (size + step.toNat - 1) hpos
  rw [hcount, Nat.mul_comm] at hdiv
  have hlast : ∀ k < count, 0 + k * step.toNat < size := fun k hk => by
    have hle := Nat.mul_le_mul_right step.toNat (Nat.succ_le_of_lt hk)
    rw [Nat.succ_mul] at hle
    omega
  have hcover : size ≤ 0 + count * step.toNat := by omega
  have hoffs : ∀ off ∈ List.range' 0 count step.toNat, off < (s.entry a i).common.size.toNat := by
    intro off hoff
    obtain ⟨k, hk, rfl⟩ := List.mem_range'.mp hoff
    rw [hsize, Nat.mul_comm]
    exact hlast k hk
  have hread := getDataBlocks_eq hP hs ha hf step hoffs
  rw [hsize, load_blocks _ hlast hcover] at hread
  rw [tableReqs, hcount]
  exact hread

theorem getDataBlock_isSome (P : Platform) (hs : s.Sized) (r : GetDataBlockReq) :
    (s.getDataBlock P r).isSome := by
  unfold getDataBlock
  rw [agentLookup_eq]
  cases agentOf r.agentId with
  | none => rfl
  | some a =>
    simp only [focus_findLockHandle, focus_entry]
    cases hf : s.findLockHandle a r.lockHandle with
    | none => rfl
    | some i =>
      obtain rfl := hs.findLockHandle_eq_zero hf
      rw [Option.isSome_map]
      exact (hs.first a).readBlock_isSome P r

end MDRV2

/-- In every run the host's blocks arrive in the entry and in the file, and it reads an entry back
as it is stored. -/
theorem run_transferSound {P : Platform} (hP : P.Lawful) (m : Memory)
    (files : String → Option TableFile) (es : List Event) {s : MDRV2}
    (hs : Runs.exec (MDRV2.step P) (MDRV2.init m files) es = some s) :
    TransferSound P Mdr2DirLocalStruct.blockBound s where
  update r session s₁ h hu := by
    obtain ⟨a, e, ha, htr, he⟩ := dataStart_accepted (run_sized P m files es hs) h hu
    refine ⟨a, ha, fun reqs => ?_⟩
    obtain ⟨blocks, s₂, hsend, htr₂⟩ := htr.sendAll hP reqs
    exact ⟨blocks, s₂, hsend, htr₂.uploadSound hP he⟩
  read agentId a lockHandle i step ha hf hstep :=
    getDataBlocks_tableReqs hP (run_sized P m files es hs) ha hf hstep
  inRange r := getDataBlock_isSome P (run_sized P m files es hs) r

/-- The ACPI agent has sent the first half of a table and is about to send the rest. -/
def halfSent : MDRV2 :=
  (Runs.exec (MDRV2.step .plain) (MDRV2.init .plain fun _ => none)
    [.dataStart (.plain acpiAgentId 4), .sendDataBlock ⟨acpiAgentId, 1, 0, 2, 14, fun _ => 7⟩]).get
    (by decide +kernel)

theorem run_transferSound_half :
    TransferSound .plain Mdr2DirLocalStruct.blockBound halfSent :=
  run_transferSound Platform.plain_lawful .plain (fun _ => none)
    [.dataStart (.plain acpiAgentId 4), .sendDataBlock ⟨acpiAgentId, 1, 0, 2, 14, fun _ => 7⟩]
    (Option.some_get _).symm

/-- The ACPI agent has announced a table of four bytes. -/
def fourAnnounced : MDRV2 :=
  ((MDRV2.init .plain fun _ => none).dataStart .plain (.plain acpiAgentId 4)).2

/-- A block behind the end of the announced table is accepted. -/
theorem not_transferSound :
    ¬ ∀ es s, Runs.exec (MDRV2.step .plain) (MDRV2.init .plain fun _ => none) es = some s →
      TransferSound .plain (fun e => e.common.size.toNat) s := by
  intro h
  have hsound := h [] _ rfl
  have hstart : (MDRV2.init .plain fun _ => none).dataStart .plain (.plain acpiAgentId 4) =
      (.ok (.session 1), fourAnnounced) := Prod.ext (by decide +kernel) rfl
  have huse : (MDRV2.init .plain fun _ => none).ServiceNamesEntry .plain (.plain acpiAgentId 4) := by
    intro a i hr hn
    obtain rfl : acpiAgentIndex = a := Option.some.inj hr.agent
    cases hn
  obtain ⟨a, ha, hrun⟩ := hsound.update _ _ _ hstart huse
  obtain ⟨blocks, s₂, hsend, hup⟩ := hrun []
  obtain rfl := (Prod.mk.inj (Option.some.inj hsend)).2
  have hok : (fourAnnounced.sendDataBlock .plain ⟨acpiAgentId, 1, 4, 4, 28, fun _ => 7⟩).map
      Prod.fst = some (.ok .done) := by decide +kernel
  obtain ⟨⟨resp, s'⟩, hblock, rfl⟩ := Option.map_eq_some_iff.mp hok
  obtain ⟨b, hb, hin⟩ := hup.accepts _ _ _ hblock
  obtain rfl : acpiAgentIndex = b := Option.some.inj hb
  have hsize : (fourAnnounced.entry acpiAgentIndex 0).common.size = 4 := by decide +kernel
  have hle := hin.inside
  simp only [hsize] at hle
  exact absurd hle (by decide)

end MetaCommon.Mdrv2
