import MetaCommon.LanOem.Hostname

/-!
# Sending a hostname and reading it back

The buffer after the blocks `1`, ..., `i` of a name holds the first `16 * i` bytes of the name and
zeros, whatever it held before: the first block clears it. So the block that is marked complete
finds the name, with a NUL after it.
-/

namespace MetaCommon.LanOem

open Buffer CString

/-! ### The check of the name -/

theorem zero_notMem_validHostnameChars : 0 ∉ validHostnameChars := by decide +kernel

/-- The first character that is not valid is the first NUL exactly if all before the NUL are
valid. -/
theorem findIdx?_eq_iff (xs : List UInt8) :
    xs.findIdx? (· ∉ validHostnameChars) = xs.findIdx? (· == 0) ↔
      ∀ ch ∈ upToNul xs, ch ∈ validHostnameChars := by
  induction xs with
  | nil => simp [upToNul]
  | cons x xs ih =>
    rw [List.findIdx?_cons, List.findIdx?_cons]
    by_cases hx : x = 0
    · subst hx
      simp [zero_notMem_validHostnameChars]
    · rw [upToNul_cons hx, List.forall_mem_cons, ← ih]
      by_cases hv : x ∈ validHostnameChars
      · simp only [hx, hv, beq_iff_eq, not_true_eq_false, decide_false, Bool.false_eq_true, if_false,
          true_and]
        exact Option.map_inj_right (fun _ _ => Nat.succ.inj)
      · cases xs.findIdx? (· == 0) <;> simp [hx, hv]

theorem upToNul_of_valid {name : List UInt8} (hvalid : ∀ ch ∈ name, ch ∈ validHostnameChars) :
    upToNul name = name :=
  (upToNul_eq_self_iff name).mpr fun h => zero_notMem_validHostnameChars (hvalid 0 h)

/-! ### One block -/

namespace Transport

variable (s : Transport)

/-- The name in the buffer, once the last byte is cleared. -/
def assembled : List UInt8 :=
  upToNul (load (Function.update s.blockData (lanOemHostnameLength - 1) 0) 0 lanOemHostnameLength)

theorem complete_of_valid (hvalid : ∀ ch ∈ s.assembled, ch ∈ validHostnameChars) :
    s.complete.1 = ccSuccess ∧ s.complete.2.hostName = s.assembled := by
  unfold complete
  dsimp only
  rw [if_neg (not_not.mpr ((findIdx?_eq_iff _).mpr hvalid))]
  exact ⟨rfl, rfl⟩

theorem complete_of_not_valid (hch : ∃ ch ∈ s.assembled, ch ∉ validHostnameChars) :
    s.complete.1 = ccUnprintable ∧ s.complete.2.hostName = s.hostName ∧
      s.complete.2.dbusWrites = s.dbusWrites := by
  obtain ⟨ch, hmem, hnot⟩ := hch
  unfold complete
  dsimp only
  rw [if_pos fun h => hnot ((findIdx?_eq_iff _).mp h ch hmem)]
  exact ⟨rfl, rfl, rfl⟩

/-- The message with a block that passes the checks of length and fields. -/
structure Accepts (block complete : UInt8) (dataBytes : List UInt8) : Prop where
  block_pos : 0 < block.toNat
  block_le : block.toNat ≤ 4
  flag : complete = 0 ∨ complete = 1
  length_le : dataBytes.length ≤ ipmiHostnameLen
  full : complete = 0 → dataBytes.length = ipmiHostnameLen

theorem setLanOem_of_accepts {block complete : UInt8} {dataBytes : List UInt8}
    (h : Accepts block complete dataBytes) :
    s.setLanOem intelHostnameConfig (block :: complete :: dataBytes) =
      if complete = 0 then (ccSuccess, (s.fill block).copyBlock block dataBytes)
      else ((s.fill block).copyBlock block dataBytes).complete := by
  have hlen : (block :: complete :: dataBytes).length + 2 - 4 = dataBytes.length := by
    simp only [List.length_cons]
    omega
  have hfits : ¬ (dataBytes.length > ipmiHostnameLen ∨
      complete = 0 ∧ dataBytes.length < ipmiHostnameLen) := by
    rintro (hgt | ⟨h0, hlt⟩)
    · exact Nat.not_lt_of_le h.length_le hgt
    · exact Nat.ne_of_lt hlt (h.full h0)
  have hblock : block > 0 ∧ block < 5 :=
    ⟨UInt8.lt_iff_toNat_lt.mpr h.block_pos, UInt8.lt_iff_toNat_lt.mpr (Nat.lt_succ_of_le h.block_le)⟩
  have hfields : ¬ (¬ (block > 0 ∧ block < 5) ∨ complete ≠ 0 ∧ complete ≠ 1) := by
    rintro (hno | ⟨h0, h1⟩)
    · exact hno hblock
    · exact h.flag.elim h0 h1
  unfold setLanOem
  dsimp only
  rw [if_pos rfl, hlen, if_neg hfits, if_neg hfields]

end Transport

/-! ### All the blocks of a name -/

/-- Block `i` of a name, counted from 0. -/
def blockOf (name : List UInt8) (i : ℕ) : List UInt8 :=
  (name.drop (i * ipmiHostnameLen)).take ipmiHostnameLen

def lastBlock (name : List UInt8) : ℕ := (name.length - 1) / ipmiHostnameLen

/-- The messages with the blocks of a name; the last one is marked complete and may be filled up
with zero bytes. -/
def messages (name : List UInt8) (pad : ℕ) : List (List UInt8) :=
  (List.range (lastBlock name)).map (fun i => UInt8.ofNat (i + 1) :: 0 :: blockOf name i) ++
    [UInt8.ofNat (lastBlock name + 1) :: 1 ::
      (blockOf name (lastBlock name) ++ List.replicate pad 0)]

theorem take_append_blockOf (name : List UInt8) (i : ℕ) :
    name.take (i * ipmiHostnameLen) ++ blockOf name i = name.take ((i + 1) * ipmiHostnameLen) := by
  rw [Nat.succ_mul, List.take_add, blockOf]

theorem blockOf_length (name : List UInt8) (i : ℕ) :
    (blockOf name i).length = min ipmiHostnameLen (name.length - i * ipmiHostnameLen) := by
  rw [blockOf, List.length_take, List.length_drop]

theorem toNat_block {i : ℕ} (hi : i < 4) : (UInt8.ofNat (i + 1)).toNat = i + 1 :=
  UInt8.toNat_ofNat_of_lt' (Nat.lt_trans (Nat.succ_lt_succ hi) (by decide))

namespace Transport

/-- The messages one after the other, with the completion codes. -/
def send : Transport → List (List UInt8) → List Cc × Transport
  | s, [] => ([], s)
  | s, req :: reqs =>
    let r := s.setLanOem intelHostnameConfig req
    let rs := send r.2 reqs
    (r.1 :: rs.1, rs.2)

theorem send_concat (s : Transport) (reqs : List (List UInt8)) (req : List UInt8) :
    s.send (reqs ++ [req]) =
      ((s.send reqs).1 ++ [((s.send reqs).2.setLanOem intelHostnameConfig req).1],
        ((s.send reqs).2.setLanOem intelHostnameConfig req).2) := by
  induction reqs generalizing s with
  | nil => rfl
  | cons r reqs ih => simp only [List.cons_append, send, ih]

/-- Since `s₀`, `i` blocks of the name have been taken and none has been marked complete. -/
structure Taken (name : List UInt8) (i : ℕ) (s₀ s : Transport) : Prop where
  blocks : i = 0 ∨ s.blockData = ofList 0 (name.take (i * ipmiHostnameLen))
  hostName : s.hostName = s₀.hostName
  dbusWrites : s.dbusWrites = s₀.dbusWrites

variable {name : List UInt8} {i : ℕ} {s₀ s : Transport}

theorem Taken.copyBlock (h : Taken name i s₀ s) {block : UInt8} (hblock : block.toNat = i + 1)
    (hi : i * ipmiHostnameLen ≤ name.length) (dataBytes : List UInt8) :
    ((s.fill block).copyBlock block dataBytes).blockData =
      ofList 0 (name.take (i * ipmiHostnameLen) ++ dataBytes) := by
  have hoff : (block.toNat - 1) * ipmiHostnameLen = (name.take (i * ipmiHostnameLen)).length := by
    rw [hblock, Nat.add_sub_cancel, List.length_take, Nat.min_eq_left hi]
  have hfill : (s.fill block).blockData = ofList 0 (name.take (i * ipmiHostnameLen)) := by
    cases i with
    | zero =>
      have h1 : block = 1 := UInt8.toNat_inj.mp hblock
      rw [fill, if_pos h1]
      rfl
    | succ i =>
      have h1 : block ≠ 1 := by
        rintro rfl
        cases hblock
      rw [fill, if_neg h1]
      exact h.blocks.resolve_left (Nat.succ_ne_zero i)
  unfold Transport.copyBlock
  dsimp only
  rw [hfill, hoff, store_ofList]

theorem fill_hostName (block : UInt8) : (s.fill block).hostName = s.hostName := by
  unfold fill
  split_ifs <;> rfl

theorem fill_dbusWrites (block : UInt8) : (s.fill block).dbusWrites = s.dbusWrites := by
  unfold fill
  split_ifs <;> rfl

/-- A full block that is not the last one. -/
theorem Taken.setLanOem (h : Taken name i s₀ s) (hi : (i + 1) * ipmiHostnameLen ≤ name.length)
    (hlen : name.length < lanOemHostnameLength) :
    ∃ s', s.setLanOem intelHostnameConfig (UInt8.ofNat (i + 1) :: 0 :: blockOf name i) =
      (ccSuccess, s') ∧ Taken name (i + 1) s₀ s' := by
  rw [Nat.succ_mul] at hi
  unfold ipmiHostnameLen at hi
  unfold lanOemHostnameLength at hlen
  have hblock := toNat_block (show i < 4 by omega)
  have hfull : (blockOf name i).length = ipmiHostnameLen := by
    rw [blockOf_length]
    unfold ipmiHostnameLen
    omega
  have haccepts : Accepts (UInt8.ofNat (i + 1)) 0 (blockOf name i) := by
    refine ⟨?_, ?_, .inl rfl, Nat.le_of_eq hfull, fun _ => hfull⟩
    · rw [hblock]
      exact Nat.succ_pos i
    · rw [hblock]
      omega
  have hcopy := h.copyBlock hblock (by unfold ipmiHostnameLen; omega) (blockOf name i)
  refine ⟨_, setLanOem_of_accepts s haccepts, .inr ?_, ?_, ?_⟩
  · rw [hcopy, take_append_blockOf]
  · exact (fill_hostName _).trans h.hostName
  · exact (fill_dbusWrites _).trans h.dbusWrites

theorem send_blocks (s : Transport) (hi : i * ipmiHostnameLen ≤ name.length)
    (hlen : name.length < lanOemHostnameLength) :
    (∀ cc ∈ (s.send ((List.range i).map fun i =>
      UInt8.ofNat (i + 1) :: 0 :: blockOf name i)).1, cc = ccSuccess) ∧
    Taken name i s (s.send ((List.range i).map fun i =>
      UInt8.ofNat (i + 1) :: 0 :: blockOf name i)).2 := by
  induction i with
  | zero => exact ⟨fun cc hcc => absurd hcc List.not_mem_nil, .inl rfl, rfl, rfl⟩
  | succ i ih =>
    have hi' : i * ipmiHostnameLen ≤ name.length :=
      Nat.le_trans (Nat.mul_le_mul_right _ (Nat.le_succ i)) hi
    obtain ⟨hccs, htaken⟩ := ih hi'
    obtain ⟨s', hset, htaken'⟩ := htaken.setLanOem hi hlen
    rw [List.range_succ, List.map_append, List.map_singleton, send_concat, hset]
    refine ⟨fun cc hcc => ?_, htaken'⟩
    rcases List.mem_append.mp hcc with hcc | hcc
    · exact hccs cc hcc
    · exact List.mem_singleton.mp hcc

theorem assembled_eq (hlen : name.length < lanOemHostnameLength)
    (hdata : s.blockData = ofList 0 name) : s.assembled = upToNul name := by
  have hlast : Function.update (ofList 0 name) (lanOemHostnameLength - 1) (0 : UInt8) =
      ofList 0 name :=
    Function.update_eq_self_iff.mpr (ofList_apply_of_le 0 (Nat.le_pred_of_lt hlen)).symm
  unfold assembled
  rw [hdata, hlast, load_ofList 0 (Nat.le_of_lt hlen), upToNul_append_zeros]

/-- After the last block of a name the buffer has the name, and nothing has been written before. -/
theorem send_messages (s : Transport) {pad : ℕ} (hpos : 0 < name.length)
    (hlen : name.length < lanOemHostnameLength)
    (hpad : (blockOf name (lastBlock name)).length + pad ≤ ipmiHostnameLen) :
    ∃ (ccs : List Cc) (t : Transport),
      s.send (messages name pad) = (ccs ++ [t.complete.1], t.complete.2) ∧
      (∀ cc ∈ ccs, cc = ccSuccess) ∧ t.assembled = upToNul name ∧
      t.hostName = s.hostName ∧ t.dbusWrites = s.dbusWrites := by
  have hlast : lastBlock name * ipmiHostnameLen ≤ name.length ∧
      name.length ≤ (lastBlock name + 1) * ipmiHostnameLen ∧ lastBlock name < 4 := by
    unfold lastBlock ipmiHostnameLen lanOemHostnameLength at *
    omega
  obtain ⟨hle, hge, hlt⟩ := hlast
  obtain ⟨hccs, htaken⟩ := send_blocks s hle hlen
  have hblock := toNat_block hlt
  have haccepts : Accepts (UInt8.ofNat (lastBlock name + 1)) 1
      (blockOf name (lastBlock name) ++ List.replicate pad 0) := by
    refine ⟨?_, ?_, .inr rfl, ?_, nofun⟩
    · rw [hblock]
      exact Nat.succ_pos _
    · rw [hblock]
      exact hlt
    · rw [List.length_append, List.length_replicate]
      exact hpad
  have hcopy := htaken.copyBlock hblock hle
    (blockOf name (lastBlock name) ++ List.replicate pad 0)
  rw [← List.append_assoc, take_append_blockOf, List.take_of_length_le hge,
    ofList_append_replicate] at hcopy
  refine ⟨_, _, ?_, hccs, assembled_eq hlen hcopy, ?_, ?_⟩
  · rw [messages, send_concat, setLanOem_of_accepts _ haccepts, if_neg (by decide)]
  · exact (fill_hostName _).trans htaken.hostName
  · exact (fill_dbusWrites _).trans htaken.dbusWrites

/-! ### Reading the name back -/

theorem getLanOem_block (s : Transport) (block : UInt8) (head : ℕ) (h : 0 < block.toNat ∧
    block.toNat ≤ 4 ∧ (block.toNat - 1) * ipmiHostnameLen = head) :
    s.getLanOem intelHostnameConfig 0 block =
      .ok (currentRevision :: load (ofList 0 s.hostName) head ipmiHostnameLen) := by
  obtain ⟨hpos, hle, hhead⟩ := h
  have hblock : ¬ (block < 1 ∨ block > 4) := by
    rintro (hlt | hgt)
    · exact Nat.not_lt_of_le hpos (UInt8.lt_iff_toNat_lt.mp hlt)
    · exact Nat.not_lt_of_le hle (UInt8.lt_iff_toNat_lt.mp hgt)
  unfold getLanOem
  rw [if_pos rfl, if_neg (not_not.mpr rfl), if_neg hblock, hhead]
  dsimp only
  rw [load_shift (ofList 0 s.hostName) head]
  refine congrArg _ (congrArg _ (load_congr fun i _ hi => ?_))
  rw [Nat.zero_add] at hi
  by_cases hlt : head < s.hostName.length
  · rw [if_pos hlt, store_apply, if_pos (Nat.zero_le i), Nat.sub_zero, ← List.getD_eq_getElem?_getD]
    by_cases hin : head + i < s.hostName.length
    · have htake : i < min ipmiHostnameLen (s.hostName.length - head) := by omega
      simp [ofList, List.getD_eq_getElem?_getD, List.getElem?_take_of_lt htake]
    · have hge : s.hostName.length ≤ head + i := Nat.le_of_not_lt hin
      rw [ofList_apply_of_le 0 hge, List.getD_eq_default]
      rw [List.length_take, List.length_drop]
      omega
  · have hge : s.hostName.length ≤ head + i :=
      Nat.le_trans (Nat.le_of_not_lt hlt) (Nat.le_add_right head i)
    rw [if_neg hlt, ofList_apply_of_le 0 hge]

/-- The blocks 1 to 4 of the parameter, without the revision before each. -/
def readHostname (s : Transport) : Except Cc (List UInt8) :=
  ([1, 2, 3, 4].mapM fun block => s.getLanOem intelHostnameConfig 0 block).map
    (·.flatMap List.tail)

theorem readHostname_eq (s : Transport) :
    s.readHostname = .ok (load (ofList 0 s.hostName) 0 lanOemHostnameLength) := by
  have hsum : lanOemHostnameLength =
      ipmiHostnameLen + (ipmiHostnameLen + (ipmiHostnameLen + ipmiHostnameLen)) := rfl
  unfold readHostname
  rw [hsum, load_add, load_add, load_add]
  simp only [List.mapM_cons, List.mapM_nil, s.getLanOem_block 1 0 (by decide),
    s.getLanOem_block 2 (0 + ipmiHostnameLen) (by decide),
    s.getLanOem_block 3 (0 + ipmiHostnameLen + ipmiHostnameLen) (by decide),
    s.getLanOem_block 4 (0 + ipmiHostnameLen + ipmiHostnameLen + ipmiHostnameLen) (by decide)]
  simp only [Except.map, bind, Except.bind, pure, Except.pure, List.flatMap_cons, List.flatMap_nil,
    List.tail_cons, List.append_nil]

end Transport

/-- A valid name sent in blocks becomes the D-Bus hostname and is read back with zero bytes after
it, whatever the buffer held. A name with an invalid character before its first NUL is turned away
and not written, when it is sent in blocks and when it has come into the buffer in any other way. -/
theorem send_readHostname (s : Transport) {name : List UInt8} {pad : ℕ} (hpos : 0 < name.length)
    (hlen : name.length ≤ 63)
    (hpad : (blockOf name (lastBlock name)).length + pad ≤ ipmiHostnameLen) :
    ((∀ ch ∈ name, ch ∈ validHostnameChars) →
      (∀ cc ∈ (s.send (messages name pad)).1, cc = ccSuccess) ∧
      (s.send (messages name pad)).2.hostName = name ∧
      (s.send (messages name pad)).2.readHostname =
        .ok (name ++ List.replicate (64 - name.length) 0)) ∧
    ((∃ ch ∈ upToNul name, ch ∉ validHostnameChars) →
      (s.send (messages name pad)).1.getLast? = some ccUnprintable ∧
      (s.send (messages name pad)).2.hostName = s.hostName ∧
      (s.send (messages name pad)).2.dbusWrites = s.dbusWrites) ∧
    ∀ block dataBytes, Transport.Accepts block 1 dataBytes →
      (∃ ch ∈ ((s.fill block).copyBlock block dataBytes).assembled, ch ∉ validHostnameChars) →
      (s.setLanOem intelHostnameConfig (block :: 1 :: dataBytes)).1 = ccUnprintable ∧
      (s.setLanOem intelHostnameConfig (block :: 1 :: dataBytes)).2.hostName = s.hostName ∧
      (s.setLanOem intelHostnameConfig (block :: 1 :: dataBytes)).2.dbusWrites =
        s.dbusWrites := by
  have hlt : name.length < lanOemHostnameLength := Nat.lt_succ_of_le hlen
  obtain ⟨ccs, t, hsend, hccs, hname, hhost, hwrites⟩ := s.send_messages hpos hlt hpad
  refine ⟨fun hvalid => ?_, fun hinvalid => ?_, fun block dataBytes haccepts hinvalid => ?_⟩
  · have hself : t.assembled = name := hname.trans (upToNul_of_valid hvalid)
    obtain ⟨hcc, hnew⟩ := t.complete_of_valid (by rwa [hself])
    rw [hself] at hnew
    rw [hsend, Transport.readHostname_eq, hnew, load_ofList 0 (Nat.le_of_lt hlt)]
    refine ⟨fun cc hmem => ?_, rfl, rfl⟩
    rcases List.mem_append.mp hmem with hmem | hmem
    · exact hccs cc hmem
    · exact (List.mem_singleton.mp hmem).trans hcc
  · obtain ⟨hcc, hnew, hlog⟩ := t.complete_of_not_valid (by rwa [hname])
    rw [hsend, List.getLast?_concat, hcc]
    exact ⟨rfl, hnew.trans hhost, hlog.trans hwrites⟩
  · obtain ⟨hcc, hnew, hlog⟩ := Transport.complete_of_not_valid _ hinvalid
    rw [Transport.setLanOem_of_accepts s haccepts, if_neg (by decide)]
    exact ⟨hcc, hnew.trans (Transport.fill_hostName block),
      hlog.trans (Transport.fill_dbusWrites block)⟩

/-- A name of three blocks over a buffer full of letters, the last block filled up. -/
theorem send_readHostname_bmc :
    let t := (⟨fun _ => 65, [], []⟩ : Transport).send
      (messages (chars "baseboard-management-controller-01") 14)
    t.2.hostName = chars "baseboard-management-controller-01" ∧
      t.2.readHostname =
        .ok (chars "baseboard-management-controller-01" ++ List.replicate 30 0) :=
  ((send_readHostname ⟨fun _ => 65, [], []⟩ (by decide +kernel) (by decide +kernel)
    (by decide +kernel)).1 (by decide +kernel)).2

end MetaCommon.LanOem
