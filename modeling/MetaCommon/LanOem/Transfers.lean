import MetaCommon.LanOem.RoundTrip
import MetaCommon.Lib.Runs

/-!
# Transfers of a hostname

Beside the buffer we keep what the client knows of its transfer: the data last sent for each block,
and which bytes of the buffer come from it. Only block 1 clears the buffer, and no block clears what
is left of a longer one, so that the name is the data of the transfer only up to the first byte that
does not come from it.
-/

namespace MetaCommon.LanOem

open Buffer CString Runs

instance (block complete : UInt8) (dataBytes : List UInt8) :
    Decidable (Transport.Accepts block complete dataBytes) :=
  decidable_of_iff (0 < block.toNat ∧ block.toNat ≤ 4 ∧ (complete = 0 ∨ complete = 1) ∧
      dataBytes.length ≤ ipmiHostnameLen ∧ (complete = 0 → dataBytes.length = ipmiHostnameLen))
    ⟨fun ⟨h₁, h₂, h₃, h₄, h₅⟩ => ⟨h₁, h₂, h₃, h₄, h₅⟩,
      fun ⟨h₁, h₂, h₃, h₄, h₅⟩ => ⟨h₁, h₂, h₃, h₄, h₅⟩⟩

/-- A new transfer is a decision of the client that no message tells. -/
inductive Event
  | start
  | message (req : List UInt8)

/-- The data last sent for each block of the transfer, and the bytes of the buffer that hold it. -/
structure Session where
  transport : Transport
  sent : ℕ → Option (List UInt8)
  fresh : ℕ → Bool

namespace Session

variable (s : Session)

def init (transport : Transport) : Session := ⟨transport, fun _ => none, fun _ => false⟩

/-- A block takes its 16 bytes of the buffer, and fills them as far as its data go. Block 1 clears
the others. -/
def record (block : UInt8) (dataBytes : List UInt8) : Session :=
  { s with
    sent := Function.update s.sent block.toNat (some dataBytes)
    fresh := fun p =>
      if p / ipmiHostnameLen + 1 = block.toNat then decide (p % ipmiHostnameLen < dataBytes.length)
      else block != 1 && s.fresh p }

/-- A message that is turned away leaves no trace. -/
def observe : List UInt8 → Session
  | block :: complete :: dataBytes =>
    if Transport.Accepts block complete dataBytes then s.record block dataBytes else s
  | _ => s

def step : Event → Session
  | .start => init s.transport
  | .message req =>
    { s.observe req with transport := (s.transport.setLanOem intelHostnameConfig req).2 }

/-- The data last sent, in the order of the blocks. -/
def concatenation : List UInt8 := (List.range 4).flatMap fun i => (s.sent (i + 1)).getD []

/-- The D-Bus hostname is what the transfer has sent, and no byte of it has come otherwise. -/
structure Exact : Prop where
  hostName : s.transport.hostName = upToNul s.concatenation
  fresh : ∀ p < s.transport.hostName.length, s.fresh p = true

/-- The message that is marked complete sets the hostname. -/
def Sets (block : UInt8) (dataBytes : List UInt8) : Prop :=
  (s.transport.setLanOem intelHostnameConfig (block :: 1 :: dataBytes)).1 = ccSuccess

instance (block : UInt8) (dataBytes : List UInt8) : Decidable (s.Sets block dataBytes) :=
  inferInstanceAs (Decidable (_ = _))

def Sound (e : Event) : Prop :=
  ∀ block dataBytes, e = .message (block :: 1 :: dataBytes) → s.Sets block dataBytes →
    (s.step e).Exact

/-- How far the buffer comes from the transfer without a gap. Its last byte is always cleared. -/
def freshLength : ℕ :=
  (List.range (lanOemHostnameLength - 1)).findIdx fun p => !s.fresh p

/-- The data up to the first gap have a NUL, or nothing else was sent and the gap begins with a
zero byte. -/
def Ends (block : UInt8) (dataBytes : List UInt8) : Prop :=
  let sent := (s.record block dataBytes).concatenation
  let gap := (s.record block dataBytes).freshLength
  0 ∈ sent.take gap ∨
    (gap = lanOemHostnameLength - 1 ∨ block = 1 ∨ s.transport.blockData gap = 0) ∧
      (sent[gap]? = none ∨ sent[gap]? = some 0)

def EndsProperly (e : Event) : Prop :=
  ∀ block dataBytes, e = .message (block :: 1 :: dataBytes) → s.Sets block dataBytes →
    s.Ends block dataBytes

end Session

/-! ### What a message does to the buffer -/

namespace Transport

variable (s : Transport)

theorem setLanOem_of_not_accepts {block complete : UInt8} {dataBytes : List UInt8}
    (h : ¬ Accepts block complete dataBytes) :
    (s.setLanOem intelHostnameConfig (block :: complete :: dataBytes)).1 ≠ ccSuccess ∧
      (s.setLanOem intelHostnameConfig (block :: complete :: dataBytes)).2 = s := by
  have hlen : (block :: complete :: dataBytes).length + 2 - 4 = dataBytes.length := by
    simp only [List.length_cons]
    omega
  unfold setLanOem
  dsimp only
  rw [if_pos rfl, hlen]
  by_cases hfits : dataBytes.length > ipmiHostnameLen ∨
      complete = 0 ∧ dataBytes.length < ipmiHostnameLen
  · rw [if_pos hfits]
    exact ⟨(by decide : ccReqDataLenInvalid ≠ ccSuccess), rfl⟩
  · rw [if_neg hfits]
    by_cases hfields : ¬ (block > 0 ∧ block < 5) ∨ complete ≠ 0 ∧ complete ≠ 1
    · rw [if_pos hfields]
      exact ⟨(by decide : ccInvalidFieldRequest ≠ ccSuccess), rfl⟩
    · rw [not_or, not_not] at hfields
      obtain ⟨⟨hpos, hlt⟩, hflag⟩ := hfields
      have hle : dataBytes.length ≤ ipmiHostnameLen :=
        Nat.le_of_not_lt fun hgt => hfits (.inl hgt)
      refine absurd ⟨UInt8.lt_iff_toNat_lt.mp hpos,
        Nat.le_of_lt_succ (UInt8.lt_iff_toNat_lt.mp hlt), ?_, hle, fun h0 => ?_⟩ h
      · by_contra hno
        exact hflag (not_or.mp hno)
      · exact Nat.le_antisymm hle (Nat.le_of_not_lt fun hlt => hfits (.inr ⟨h0, hlt⟩))

/-- Where a block stands in the buffer. -/
theorem copyBlock_apply {block complete : UInt8} {dataBytes : List UInt8}
    (h : Accepts block complete dataBytes) (p : ℕ) :
    ((s.fill block).copyBlock block dataBytes).blockData p =
      if p / ipmiHostnameLen + 1 = block.toNat then
        dataBytes[p % ipmiHostnameLen]?.getD ((s.fill block).blockData p)
      else (s.fill block).blockData p := by
  have hpos := h.block_pos
  have hle := h.length_le
  unfold copyBlock
  dsimp only
  rw [store_apply]
  unfold ipmiHostnameLen at *
  by_cases hp : p / 16 + 1 = block.toNat
  · have hoff : (block.toNat - 1) * 16 ≤ p := by omega
    have hsub : p - (block.toNat - 1) * 16 = p % 16 := by omega
    rw [if_pos hp, if_pos hoff, hsub]
  · rw [if_neg hp]
    by_cases hoff : (block.toNat - 1) * 16 ≤ p
    · have hout : dataBytes.length ≤ p - (block.toNat - 1) * 16 := by omega
      rw [if_pos hoff, List.getElem?_eq_none hout, Option.getD_none]
    · rw [if_neg hoff]

theorem complete_blockData {p : ℕ} (hp : p ≠ lanOemHostnameLength - 1) :
    s.complete.2.blockData p = s.blockData p := by
  have hupdate : Function.update s.blockData (lanOemHostnameLength - 1) 0 p = s.blockData p :=
    Function.update_of_ne hp _ _
  unfold complete
  dsimp only
  split_ifs <;> exact hupdate

theorem fill_of_ne {block : UInt8} (h : block ≠ 1) : s.fill block = s := if_neg h

end Transport

namespace Session

variable {s : Session} {block complete : UInt8} {dataBytes : List UInt8}

/-- The session once the block is in the buffer. -/
def take (s : Session) (block : UInt8) (dataBytes : List UInt8) : Session :=
  { s.record block dataBytes with
    transport := (s.transport.fill block).copyBlock block dataBytes }

theorem step_of_accepts (h : Transport.Accepts block complete dataBytes) :
    s.step (.message (block :: complete :: dataBytes)) =
      { s.take block dataBytes with
        transport := if complete = 0 then (s.take block dataBytes).transport
          else (s.take block dataBytes).transport.complete.2 } := by
  have hset := s.transport.setLanOem_of_accepts h
  unfold step observe
  dsimp only
  rw [if_pos h, hset, take]
  split_ifs <;> rfl

theorem step_of_not_accepts (h : ¬ Transport.Accepts block complete dataBytes) :
    s.step (.message (block :: complete :: dataBytes)) = s := by
  unfold step observe
  dsimp only
  rw [if_neg h, (s.transport.setLanOem_of_not_accepts h).2]

/-! ### The bytes that come from the transfer -/

/-- A byte that comes from the transfer is in the data last sent for its block. The last byte of the
buffer does not count. -/
structure Inv (s : Session) : Prop where
  fresh : ∀ p, s.fresh p = true → ∃ dataBytes x, s.sent (p / ipmiHostnameLen + 1) = some dataBytes ∧
    dataBytes[p % ipmiHostnameLen]? = some x ∧
    (p ≠ lanOemHostnameLength - 1 → s.transport.blockData p = x)
  length_le : ∀ i dataBytes, s.sent i = some dataBytes → dataBytes.length ≤ ipmiHostnameLen

theorem inv_init (transport : Transport) : (init transport).Inv := ⟨nofun, nofun⟩

theorem Inv.take (hs : s.Inv) (h : Transport.Accepts block complete dataBytes) :
    (s.take block dataBytes).Inv := by
  refine ⟨fun p hp => ?_, fun i data hi => ?_⟩
  · by_cases hblock : p / ipmiHostnameLen + 1 = block.toNat
    · have hlt : p % ipmiHostnameLen < dataBytes.length := by
        simpa [Session.take, record, hblock] using hp
      have hget := List.getElem?_eq_getElem hlt
      refine ⟨dataBytes, dataBytes[p % ipmiHostnameLen], ?_, hget, fun _ => ?_⟩
      · rw [hblock]
        exact Function.update_self ..
      · refine (s.transport.copyBlock_apply h p).trans ?_
        rw [if_pos hblock, hget, Option.getD_some]
    · have hold : block ≠ 1 ∧ s.fresh p = true := by
        simpa [Session.take, record, hblock] using hp
      obtain ⟨data, x, hsent, hget, hdata⟩ := hs.fresh p hold.2
      refine ⟨data, x, ?_, hget, fun hlast => ?_⟩
      · exact (Function.update_of_ne hblock _ _).trans hsent
      · refine (s.transport.copyBlock_apply h p).trans ?_
        rw [if_neg hblock, s.transport.fill_of_ne hold.1]
        exact hdata hlast
  · by_cases hblock : i = block.toNat
    · subst hblock
      have hdata : (s.take block dataBytes).sent block.toNat = some dataBytes :=
        Function.update_self ..
      cases hdata.symm.trans hi
      exact h.length_le
    · exact hs.length_le i data ((Function.update_of_ne hblock _ _).symm.trans hi)

theorem Inv.step (hs : s.Inv) (e : Event) : (s.step e).Inv := by
  match e with
  | .start => exact inv_init s.transport
  | .message [] => exact hs
  | .message [_] => exact hs
  | .message (block :: complete :: dataBytes) =>
    by_cases h : Transport.Accepts block complete dataBytes
    · have ht := hs.take h
      rw [step_of_accepts h]
      split_ifs with h0
      · exact ht
      · refine ⟨fun p hp => ?_, ht.length_le⟩
        obtain ⟨data, x, hsent, hget, hdata⟩ := ht.fresh p hp
        refine ⟨data, x, hsent, hget, fun hlast => ?_⟩
        exact (Transport.complete_blockData _ hlast).trans (hdata hlast)
    · rw [step_of_not_accepts h]
      exact hs

theorem freshLength_le (s : Session) : s.freshLength ≤ lanOemHostnameLength - 1 := by
  have h : s.freshLength ≤ (List.range (lanOemHostnameLength - 1)).length :=
    List.findIdx_le_length
  rwa [List.length_range] at h

theorem fresh_of_lt {p : ℕ} (hp : p < s.freshLength) : s.fresh p = true := by
  have h := List.not_of_lt_findIdx hp
  rw [List.getElem_range] at h
  simpa using h

theorem not_fresh_freshLength (h : s.freshLength < lanOemHostnameLength - 1) :
    s.fresh s.freshLength = false := by
  have hlt : (List.range (lanOemHostnameLength - 1)).findIdx (fun p => !s.fresh p) <
      (List.range (lanOemHostnameLength - 1)).length := by
    rwa [List.length_range]
  have hat := List.findIdx_getElem (w := hlt)
  rw [List.getElem_range] at hat
  unfold freshLength
  simpa using hat

/-- The blocks before a fresh byte with no gap before it are full. -/
theorem Inv.full (hs : s.Inv) {j : ℕ} (hj : (j + 1) * ipmiHostnameLen ≤ s.freshLength) :
    ((s.sent (j + 1)).getD []).length = ipmiHostnameLen := by
  unfold ipmiHostnameLen at hj
  obtain ⟨data, x, hsent, hget, -⟩ := hs.fresh (j * 16 + 15) (fresh_of_lt (by omega))
  have hlt := (List.getElem?_eq_some_iff.mp hget).1
  have hle := hs.length_le _ _ hsent
  unfold ipmiHostnameLen at hsent hlt hle ⊢
  have hblock : (j * 16 + 15) / 16 + 1 = j + 1 := by omega
  rw [hblock] at hsent
  rw [hsent, Option.getD_some]
  omega

/-- As far as the buffer comes from the transfer without a gap, it has the data in order. -/
theorem Inv.concatenation_take (hs : s.Inv) :
    s.concatenation.take s.freshLength = load s.transport.blockData 0 s.freshLength := by
  have hlen := s.freshLength_le
  unfold lanOemHostnameLength at hlen
  apply List.ext_getElem?
  intro p
  rw [load_getElem?]
  by_cases hp : p < s.freshLength
  · obtain ⟨data, x, hsent, hget, hdata⟩ := hs.fresh p (fresh_of_lt hp)
    have hlast : p ≠ lanOemHostnameLength - 1 := by
      unfold lanOemHostnameLength
      omega
    have hblock : (s.sent (p / ipmiHostnameLen + 1)).getD [] = data := by
      rw [hsent, Option.getD_some]
    have hk : p / ipmiHostnameLen < 4 := by
      unfold ipmiHostnameLen
      omega
    have hr : p % ipmiHostnameLen < ((s.sent (p / ipmiHostnameLen + 1)).getD []).length := by
      rw [hblock]
      exact (List.getElem?_eq_some_iff.mp hget).1
    have hfull : ∀ j < p / ipmiHostnameLen,
        ((s.sent (j + 1)).getD []).length = ipmiHostnameLen := fun j hj => hs.full (by
      unfold ipmiHostnameLen at hj ⊢
      omega)
    have hfind := flatMap_range_getElem? (fun i => (s.sent (i + 1)).getD []) hk hfull hr
    rw [Nat.div_add_mod', hblock, hget] at hfind
    rw [if_pos hp, List.getElem?_take_of_lt hp, Nat.zero_add, hdata hlast]
    exact hfind
  · rw [if_neg hp, List.getElem?_eq_none]
    exact Nat.le_trans (List.length_take_le _ _) (Nat.le_of_not_lt hp)

/-! ### The hostname of a transfer -/

/-- The name in the buffer is cut at the gap, or goes on with the byte that stands there. -/
theorem Inv.assembled (hs : s.Inv) : ∃ rest,
    rest[0]? = some (if s.freshLength = lanOemHostnameLength - 1 then 0
      else s.transport.blockData s.freshLength) ∧
    s.transport.assembled = upToNul (s.concatenation.take s.freshLength ++ rest) := by
  obtain ⟨k, hk⟩ : ∃ k, s.freshLength + (k + 1) = lanOemHostnameLength := by
    have hle := s.freshLength_le
    refine ⟨lanOemHostnameLength - 1 - s.freshLength, ?_⟩
    unfold lanOemHostnameLength at hle ⊢
    omega
  have hfront : load (Function.update s.transport.blockData (lanOemHostnameLength - 1) 0) 0
      s.freshLength = s.concatenation.take s.freshLength := by
    rw [hs.concatenation_take, load_update_of_not_mem]
    right
    rw [Nat.zero_add]
    exact s.freshLength_le
  have hload := load_add (Function.update s.transport.blockData (lanOemHostnameLength - 1) 0) 0
    s.freshLength (k + 1)
  rw [hk, hfront, Nat.zero_add] at hload
  refine ⟨_, ?_, congrArg upToNul hload⟩
  rw [load_succ, List.getElem?_cons_zero, Function.update_apply]

/-- The name comes from the transfer exactly if the data end where the gap begins, or before it. -/
theorem Inv.assembled_iff (hs : s.Inv) :
    s.transport.assembled = upToNul s.concatenation ∧
        (∀ p < s.transport.assembled.length, s.fresh p = true) ↔
      0 ∈ s.concatenation.take s.freshLength ∨
        (s.freshLength = lanOemHostnameLength - 1 ∨ s.transport.blockData s.freshLength = 0) ∧
        (s.concatenation[s.freshLength]? = none ∨ s.concatenation[s.freshLength]? = some 0) := by
  obtain ⟨rest, hrest, hname⟩ := hs.assembled
  have hsent : upToNul s.concatenation = upToNul (s.concatenation.take s.freshLength ++
      s.concatenation.drop s.freshLength) := by
    rw [List.take_append_drop]
  have hlen : (s.concatenation.take s.freshLength).length = s.freshLength := by
    rw [hs.concatenation_take, load_length]
  by_cases h0 : 0 ∈ s.concatenation.take s.freshLength
  · refine iff_of_true ⟨?_, fun p hp => fresh_of_lt ?_⟩ (.inl h0)
    · rw [hname, hsent, upToNul_append_of_mem h0, upToNul_append_of_mem h0]
    · rw [hname, upToNul_append_of_mem h0] at hp
      exact hlen ▸ hp.trans (length_upToNul_lt h0)
  · have hstands : upToNul rest = [] ↔
        s.freshLength = lanOemHostnameLength - 1 ∨ s.transport.blockData s.freshLength = 0 := by
      rw [upToNul_eq_nil_iff, hrest]
      split_ifs with hlast <;> simp [hlast]
    have hends : upToNul (s.concatenation.drop s.freshLength) = [] ↔
        s.concatenation[s.freshLength]? = none ∨ s.concatenation[s.freshLength]? = some 0 := by
      rw [upToNul_eq_nil_iff, List.getElem?_drop, Nat.add_zero]
    rw [hname, hsent, upToNul_append_of_notMem h0, upToNul_append_of_notMem h0,
      List.append_right_inj, List.length_append, hlen, or_iff_right h0, ← hstands, ← hends]
    constructor
    · rintro ⟨heq, hfresh⟩
      have hnil : upToNul rest = [] := by
        by_contra hne
        have hpos := List.length_pos_iff.mpr hne
        have hlast : s.freshLength ≠ lanOemHostnameLength - 1 := fun h => hne (hstands.mpr (.inl h))
        have hgap := not_fresh_freshLength (Nat.lt_of_le_of_ne s.freshLength_le hlast)
        rw [hfresh s.freshLength (Nat.lt_add_of_pos_right hpos)] at hgap
        cases hgap
      exact ⟨hnil, heq ▸ hnil⟩
    · rintro ⟨hrest, hdrop⟩
      rw [hrest, hdrop]
      exact ⟨rfl, fun p hp => fresh_of_lt hp⟩

/-- The byte at the gap is an old one, unless block 1 has just cleared it. -/
theorem take_blockData_freshLength (h : Transport.Accepts block complete dataBytes)
    (hgap : (s.record block dataBytes).freshLength < lanOemHostnameLength - 1) :
    (s.take block dataBytes).transport.blockData (s.record block dataBytes).freshLength = 0 ↔
      block = 1 ∨ s.transport.blockData (s.record block dataBytes).freshLength = 0 := by
  have hfresh := not_fresh_freshLength hgap
  generalize (s.record block dataBytes).freshLength = p at hfresh
  have hold : (s.take block dataBytes).transport.blockData p =
      (s.transport.fill block).blockData p := by
    refine (s.transport.copyBlock_apply h p).trans ?_
    split_ifs with hblock
    · have hle : dataBytes.length ≤ p % ipmiHostnameLen := by
        simpa [record, hblock] using hfresh
      rw [List.getElem?_eq_none hle, Option.getD_none]
    · rfl
  rw [hold]
  by_cases h1 : block = 1
  · simp [Transport.fill, h1]
  · rw [s.transport.fill_of_ne h1, or_iff_right h1]

theorem Inv.ends_iff (hs : s.Inv) (h : Transport.Accepts block complete dataBytes) :
    s.Ends block dataBytes ↔
      (s.take block dataBytes).transport.assembled =
          upToNul (s.take block dataBytes).concatenation ∧
        ∀ p < (s.take block dataBytes).transport.assembled.length,
          (s.take block dataBytes).fresh p = true := by
  have hgap : ((s.record block dataBytes).freshLength = lanOemHostnameLength - 1 ∨
      (s.take block dataBytes).transport.blockData (s.record block dataBytes).freshLength = 0) ↔
      ((s.record block dataBytes).freshLength = lanOemHostnameLength - 1 ∨ block = 1 ∨
        s.transport.blockData (s.record block dataBytes).freshLength = 0) := by
    rcases Nat.lt_or_eq_of_le (freshLength_le (s.record block dataBytes)) with hlt | heq
    · rw [take_blockData_freshLength h hlt]
    · exact iff_of_true (.inl heq) (.inl heq)
  rw [(hs.take h).assembled_iff]
  exact or_congr Iff.rfl (and_congr hgap.symm Iff.rfl)

theorem Inv.sound_iff (hs : s.Inv) (e : Event) : s.Sound e ↔ s.EndsProperly e := by
  refine forall_congr' fun block => forall_congr' fun dataBytes => ?_
  refine imp_congr_right fun he => imp_congr_right fun hsets => ?_
  subst he
  have h : Transport.Accepts block 1 dataBytes := by
    by_contra hno
    exact (s.transport.setLanOem_of_not_accepts hno).1 hsets
  have hset := s.transport.setLanOem_of_accepts h
  rw [if_neg (by decide)] at hset
  have hvalid : ∀ ch ∈ (s.take block dataBytes).transport.assembled, ch ∈ validHostnameChars := by
    by_contra hno
    simp only [not_forall] at hno
    obtain ⟨ch, hmem, hnot⟩ := hno
    have hcc := (Transport.complete_of_not_valid _ ⟨ch, hmem, hnot⟩).1
    unfold Sets at hsets
    rw [hset] at hsets
    exact absurd (hcc.symm.trans hsets) (by decide)
  have hname := (Transport.complete_of_valid _ hvalid).2
  rw [hs.ends_iff h, step_of_accepts h, if_neg (by decide), ← hname]
  exact ⟨fun hexact => ⟨hexact.hostName, hexact.fresh⟩, fun hexact => ⟨hexact.1, hexact.2⟩⟩

/-- The hostnames that are set come from their transfers, in every sequence of messages, exactly if
in each the data end where the gap in the buffer begins, or before it. -/
theorem hostnames_exact_iff (transport : Transport) (es : List Event) :
    Guarded step Sound (init transport) es ↔ Guarded step EndsProperly (init transport) es :=
  guarded_congr (fun _ e hs _ => hs.step e) (fun _ e hs => hs.sound_iff e) (inv_init transport)

/-- A block is sent again with less data: the hostname keeps the end of what it had. -/
theorem shortened_block_keeps_tail :
    ¬ Guarded step Sound (init ⟨fun _ => 0, [], []⟩)
      [.start, .message (1 :: 0 :: chars "bmc-in-rack-0123"),
        .message (2 :: 1 :: chars "-east"), .message (2 :: 1 :: chars "-w")] := by
  rintro ⟨-, -, -, h, -⟩
  have hname := (h 2 (chars "-w") rfl (by decide +kernel)).hostName
  exact absurd hname (by decide +kernel)

end Session

end MetaCommon.LanOem
