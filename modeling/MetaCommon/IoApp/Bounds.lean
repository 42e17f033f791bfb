import MetaCommon.IoApp.Access

/-!
# Which words `md` and `mw` use

The test compares the ends of the range and of the mapping after both have been cut off to 32 bits,
and wants the one strictly below the other. So the last word of a mapping is refused, a mapping that
ends with the address space is refused as a whole, and a range that goes around the address space
is accepted. `mw` writes its value to the first word of the range only.
-/

namespace MetaCommon.IoApp

/-! ### The test and the range -/

def rangeEnd (addr len : UInt32) : ℕ := addr.toNat + 4 * len.toNat

namespace Mapping

variable (m : Mapping) (addr len : UInt32)

def stop : ℕ := m.phys.toNat + m.len.toNat

/-- The range lies in the mapping. -/
def Contains : Prop := m.phys ≠ noPhys ∧ m.phys.toNat ≤ addr.toNat ∧ rangeEnd addr len ≤ m.stop

instance : Decidable (m.Contains addr len) := inferInstanceAs (Decidable (_ ∧ _ ∧ _))

theorem passes_iff : m.Passes addr len ↔
    m.phys ≠ noPhys ∧ m.phys.toNat ≤ addr.toNat ∧ rangeEnd addr len % 2 ^ 32 < m.stop % 2 ^ 32 := by
  have hend : (addr + len * 4).toNat = rangeEnd addr len % 2 ^ 32 := by
    rw [rangeEnd, UInt32.toNat_add, UInt32.toNat_mul, Nat.add_mod_mod, Nat.mul_comm]
    rfl
  have hstop : (m.phys + m.len).toNat = m.stop % 2 ^ 32 := UInt32.toNat_add _ _
  rw [Passes, UInt32.le_iff_toNat_le, UInt32.lt_iff_toNat_lt, hend, hstop]

variable {m addr len}

/-- A range that passes the test lies in the mapping unless its end wraps and the mapping's does
not. -/
theorem contains_iff_of_passes (h : m.Passes addr len) :
    m.Contains addr len ↔ rangeEnd addr len / 2 ^ 32 ≤ m.stop / 2 ^ 32 := by
  obtain ⟨hphys, hle, hlt⟩ := (m.passes_iff addr len).mp h
  have hends : rangeEnd addr len ≤ m.stop ↔ rangeEnd addr len / 2 ^ 32 ≤ m.stop / 2 ^ 32 := by
    omega
  rw [Contains, hends]
  exact ⟨fun h => h.2.2, fun h => ⟨hphys, hle, h⟩⟩

/-- A range that lies in the mapping passes the test unless it ends where the mapping ends, or only
the mapping's end wraps. -/
theorem contains_iff_of_not_passes (h : ¬ m.Passes addr len) :
    m.Contains addr len ↔ m.phys ≠ noPhys ∧ m.phys.toNat ≤ addr.toNat ∧
      (rangeEnd addr len = m.stop ∨ rangeEnd addr len / 2 ^ 32 < m.stop / 2 ^ 32) := by
  rw [passes_iff] at h
  refine and_congr_right fun hphys => and_congr_right fun hle => ?_
  have hge : ¬ rangeEnd addr len % 2 ^ 32 < m.stop % 2 ^ 32 := fun hlt => h ⟨hphys, hle, hlt⟩
  omega

theorem offset_toNat (h : m.Passes addr len) :
    m.phys.toNat + (addr - m.phys).toNat = addr.toNat := by
  have hle := ((m.passes_iff addr len).mp h).2.1
  rw [UInt32.toNat_sub_of_le _ _ h.2.1]
  omega

/-! ### The loops -/

variable (mem : Mem) (val : UInt32)

theorem readLoop_eq (pv n : ℕ) : m.readLoop mem pv n =
    (List.range n).map fun j => (pv + 4 * j, readWord mem (m.phys.toNat + (pv + 4 * j))) := by
  induction n generalizing pv with
  | zero => rfl
  | succ n ih =>
    rw [readLoop, ih, List.range_succ_eq_map, List.map_cons, List.map_map]
    refine congrArg _ (List.map_congr_left fun j _ => ?_)
    have hnext : pv + 4 + 4 * j = pv + 4 * (j + 1) := by omega
    simp only [Function.comp_apply, hnext]

theorem writeLoop_fst (offset n : ℕ) :
    (m.writeLoop val offset n mem).1 = List.replicate n offset := by
  induction n generalizing mem with
  | zero => rfl
  | succ n ih => rw [writeLoop, ih, List.replicate_succ]

end Mapping

/-! ### Requests that stay in their mappings -/

/-- All words that were used lie in their mappings. -/
def Inside (maps : List Mapping) (touched : List (Mapping × ℕ)) : Prop :=
  ∀ p ∈ touched, p.1 ∈ maps ∧ p.2 + 4 ≤ p.1.len.toNat

structure Bounded (maps : List Mapping) (addr len : UInt32) (r : Run) : Prop where
  inside : Inside maps r.touched
  accepts_iff : r.ret = 0 ↔ ∃ m ∈ maps, m.Contains addr len

/-- How the end of the range lies to the ends of the mappings for the test to tell the truth. -/
def EndsApart (maps : List Mapping) (addr len : UInt32) : Prop :=
  (∀ m, findMap maps addr len = some m → rangeEnd addr len / 2 ^ 32 ≤ m.stop / 2 ^ 32) ∧
  (findMap maps addr len = none → ∀ m ∈ maps, m.phys ≠ noPhys → m.phys.toNat ≤ addr.toNat →
    rangeEnd addr len ≠ m.stop ∧ m.stop / 2 ^ 32 ≤ rangeEnd addr len / 2 ^ 32)

section Sound

variable {malloc : UInt32 → Bool} {maps : List Mapping} {mem : Mem} {addr val len : UInt32}
  {m : Mapping}

theorem findMap_some (h : findMap maps addr len = some m) : m ∈ maps ∧ m.Passes addr len :=
  ⟨List.mem_of_find?_eq_some h, by simpa using List.find?_some h⟩

theorem findMap_none (h : findMap maps addr len = none) : ∀ m ∈ maps, ¬ m.Passes addr len := by
  simpa [findMap] using h

theorem md_none (h : findMap maps addr len = none) :
    md malloc maps mem addr len = ⟨1, [], mem, []⟩ := by rw [md, h]

theorem md_declined (h : malloc (len * 4) = false) :
    md malloc maps mem addr len = ⟨1, [], mem, []⟩ := by
  unfold md
  cases findMap maps addr len with
  | none => rfl
  | some m => exact if_pos h

theorem md_some (hmalloc : malloc (len * 4) = true) (h : findMap maps addr len = some m) :
    md malloc maps mem addr len =
      ⟨0, (m.readLoop mem (addr - m.phys).toNat len.toNat).map fun p => (m, p.1), mem,
        dump addr 0 ((m.readLoop mem (addr - m.phys).toNat len.toNat).map Prod.snd)⟩ := by
  rw [md, h]
  exact if_neg (by rw [hmalloc]; decide)

theorem mw_none (h : findMap maps addr len = none) :
    mw maps mem addr val len = ⟨1, [], mem, []⟩ := by rw [mw, h]

theorem mw_some (h : findMap maps addr len = some m) :
    mw maps mem addr val len =
      ⟨0, (List.replicate len.toNat (addr - m.phys).toNat).map fun offset => (m, offset),
        (m.writeLoop val (addr - m.phys).toNat len.toNat mem).2, []⟩ := by
  rw [mw, h]
  simp only [Mapping.writeLoop_fst]

/-- The words that `md` reads. -/
theorem inside_readLoop (hfind : findMap maps addr len = some m) :
    Inside maps ((m.readLoop mem (addr - m.phys).toNat len.toNat).map fun p => (m, p.1)) ↔
      m.Contains addr len := by
  obtain ⟨hmem, hpass⟩ := findMap_some hfind
  have hoff := Mapping.offset_toNat hpass
  obtain ⟨hphys, hle, hlt⟩ := (m.passes_iff addr len).mp hpass
  unfold Inside Mapping.Contains rangeEnd Mapping.stop
  unfold rangeEnd Mapping.stop at hlt
  simp only [Mapping.readLoop_eq, List.map_map, List.forall_mem_map, List.mem_range,
    Function.comp_apply]
  constructor
  · intro h
    refine ⟨hphys, hle, ?_⟩
    cases hn : len.toNat with
    | zero =>
      have haddr : addr.toNat < 2 ^ 32 := addr.toNat_lt
      rw [hn] at hlt
      omega
    | succ n =>
      have hlast := (h n (by omega)).2
      omega
  · intro h j hj
    exact ⟨hmem, by omega⟩

theorem inside_writeLoop (hfind : findMap maps addr len = some m) (h : m.Contains addr len) :
    Inside maps
      ((List.replicate len.toNat (addr - m.phys).toNat).map fun offset => (m, offset)) := by
  obtain ⟨hmem, hpass⟩ := findMap_some hfind
  have hoff := Mapping.offset_toNat hpass
  have hend := h.2.2
  unfold rangeEnd Mapping.stop at hend
  rintro p hp
  obtain ⟨offset, hoffset, rfl⟩ := List.mem_map.mp hp
  obtain ⟨hlen, rfl⟩ := List.mem_replicate.mp hoffset
  exact ⟨hmem, by dsimp only; omega⟩

theorem not_contains_of_none (hfind : findMap maps addr len = none) :
    (∀ m ∈ maps, ¬ m.Contains addr len) ↔
      ∀ m ∈ maps, m.phys ≠ noPhys → m.phys.toNat ≤ addr.toNat →
        rangeEnd addr len ≠ m.stop ∧ m.stop / 2 ^ 32 ≤ rangeEnd addr len / 2 ^ 32 := by
  refine forall₂_congr fun m hm => ?_
  rw [Mapping.contains_iff_of_not_passes (findMap_none hfind m hm)]
  constructor
  · intro h hphys hle
    exact ⟨fun heq => h ⟨hphys, hle, Or.inl heq⟩,
      Nat.le_of_not_lt fun hlt => h ⟨hphys, hle, Or.inr hlt⟩⟩
  · rintro h ⟨hphys, hle, heq | hlt⟩
    · exact (h hphys hle).1 heq
    · exact absurd hlt (Nat.not_lt.mpr (h hphys hle).2)

theorem bounded_refused {ret : Int} (hret : ret ≠ 0) :
    Bounded maps addr len ⟨ret, [], mem, []⟩ ↔ ∀ m ∈ maps, ¬ m.Contains addr len := by
  constructor
  · intro h m hm hc
    exact hret (h.accepts_iff.mpr ⟨m, hm, hc⟩)
  · intro h
    refine ⟨fun p hp => absurd hp List.not_mem_nil, iff_of_false hret ?_⟩
    rintro ⟨m, hm, hc⟩
    exact h m hm hc

/-- Exactly when both commands keep to the mappings and accept what lies in one. -/
theorem md_mw_bounded_iff (malloc : UInt32 → Bool) (maps : List Mapping) (mem : Mem)
    (addr val len : UInt32) :
    (Bounded maps addr len (md malloc maps mem addr len) ∧
      Bounded maps addr len (mw maps mem addr val len)) ↔
    EndsApart maps addr len ∧ (malloc (len * 4) = false → ∀ m ∈ maps, ¬ m.Contains addr len) := by
  cases hfind : findMap maps addr len with
  | none =>
    rw [md_none hfind, mw_none hfind, bounded_refused (by decide), EndsApart, hfind,
      not_contains_of_none hfind]
    constructor
    · rintro ⟨h, -⟩
      exact ⟨⟨fun m hm => (Option.some_ne_none m hm.symm).elim, fun _ => h⟩, fun _ => h⟩
    · rintro ⟨⟨-, h⟩, -⟩
      exact ⟨h rfl, h rfl⟩
  | some m =>
    obtain ⟨hmem, hpass⟩ := findMap_some hfind
    have hends : EndsApart maps addr len ↔ m.Contains addr len := by
      rw [EndsApart, hfind, Mapping.contains_iff_of_passes hpass]
      simp
    rw [hends]
    by_cases hmalloc : malloc (len * 4) = true
    · rw [md_some hmalloc hfind, mw_some hfind]
      constructor
      · rintro ⟨hmd, -⟩
        exact ⟨(inside_readLoop hfind).mp hmd.inside, fun h => absurd (h.symm.trans hmalloc)
          (by decide)⟩
      · rintro ⟨hc, -⟩
        have haccepts : (0 : Int) = 0 ↔ ∃ m ∈ maps, m.Contains addr len :=
          iff_of_true rfl ⟨m, hmem, hc⟩
        exact ⟨⟨(inside_readLoop hfind).mpr hc, haccepts⟩, ⟨inside_writeLoop hfind hc, haccepts⟩⟩
    · have hno : malloc (len * 4) = false := by simpa using hmalloc
      rw [md_declined hno, mw_some hfind, bounded_refused (by decide)]
      constructor
      · rintro ⟨hmd, hmw⟩
        obtain ⟨m', hm', hc⟩ := hmw.accepts_iff.mp rfl
        exact absurd hc (hmd m' hm')
      · rintro ⟨hc, hnone⟩
        exact absurd hc (hnone hno m hmem)

/-- The last word of a mapping of four kilobytes. -/
theorem not_md_mw_bounded :
    ¬ (Bounded [⟨0x1e6e2000, 0x1000⟩] 0x1e6e2ffc 1
        (md (fun _ => true) [⟨0x1e6e2000, 0x1000⟩] (fun _ => 0) 0x1e6e2ffc 1) ∧
      Bounded [⟨0x1e6e2000, 0x1000⟩] 0x1e6e2ffc 1
        (mw [⟨0x1e6e2000, 0x1000⟩] (fun _ => 0) 0x1e6e2ffc 0 1)) := by
  rintro ⟨-, hmw⟩
  have hret : (1 : Int) = 0 :=
    hmw.accepts_iff.mpr ⟨⟨0x1e6e2000, 0x1000⟩, List.mem_singleton_self _, by decide⟩
  exact absurd hret (by decide)

end Sound

/-! ### What `mw` writes -/

theorem ofBytes_cons (b : UInt8) (bs : List UInt8) :
    (ofBytes (b :: bs)).toNat = (b.toNat + 256 * (ofBytes bs).toNat) % 2 ^ 32 :=
  UInt32.toNat_ofNat'

theorem ofBytes_bytesOf (v : UInt32) : ofBytes (bytesOf v) = v := by
  have hlt : v.toNat < 2 ^ 32 := v.toNat_lt
  have hbyte : ∀ n : ℕ, (UInt8.ofNat (n % 256)).toNat = n % 256 := fun n => by
    rw [UInt8.toNat_ofNat', Nat.mod_mod]
  apply UInt32.toNat.inj
  rw [bytesOf, ofBytes_cons, ofBytes_cons, ofBytes_cons, ofBytes_cons, hbyte, hbyte, hbyte, hbyte]
  have hzero : (ofBytes []).toNat = 0 := rfl
  rw [hzero]
  omega

theorem readWord_writeWord (mem : Mem) (a : ℕ) (v : UInt32) : readWord (writeWord mem a v) a = v :=
  (congrArg ofBytes (Buffer.load_store mem a (bytesOf v))).trans (ofBytes_bytesOf v)

theorem writeWord_outside (mem : Mem) (v : UInt32) {a i : ℕ} (h : i < a ∨ a + 4 ≤ i) :
    writeWord mem a v i = mem i := by
  rw [writeWord, Buffer.store_apply]
  rcases h with hlt | hge
  · exact if_neg (by omega)
  · have hlen : (bytesOf v).length ≤ i - a := by
      have hfour : (bytesOf v).length = 4 := rfl
      omega
    rw [if_pos (by omega), List.getElem?_eq_none hlen, Option.getD_none]

theorem readWord_congr {mem mem' : Mem} {a : ℕ} (h : ∀ i, a ≤ i → i < a + 4 → mem i = mem' i) :
    readWord mem a = readWord mem' a := congrArg ofBytes (Buffer.load_congr h)

/-- The memory where `n` words from `a` on hold the value, and nothing else has changed. -/
structure Filled (mem : Mem) (a n : ℕ) (val : UInt32) (mem' : Mem) : Prop where
  words : ∀ j < n, readWord mem' (a + 4 * j) = val
  others : ∀ i, i < a ∨ a + 4 * n ≤ i → mem' i = mem i

theorem writeLoop_writeWord (m : Mapping) (val : UInt32) (offset n : ℕ) (mem : Mem) :
    (∀ i, i < m.phys.toNat + offset ∨ m.phys.toNat + offset + 4 ≤ i →
      (m.writeLoop val offset n mem).2 i = mem i) ∧
    (n = 0 → (m.writeLoop val offset n mem).2 = mem) ∧
    (0 < n → readWord (m.writeLoop val offset n mem).2 (m.phys.toNat + offset) = val) := by
  induction n generalizing mem with
  | zero => exact ⟨fun _ _ => rfl, fun _ => rfl, fun h => absurd h (Nat.lt_irrefl 0)⟩
  | succ n ih =>
    obtain ⟨hout, hzero, hval⟩ := ih (writeWord mem (m.phys.toNat + offset) val)
    refine ⟨fun i hi => (hout i hi).trans (writeWord_outside mem val hi),
      fun h => absurd h (Nat.succ_ne_zero n), fun _ => ?_⟩
    rcases Nat.eq_zero_or_pos n with hn | hn
    · exact (congrArg (readWord · _) (hzero hn)).trans (readWord_writeWord mem _ val)
    · exact hval hn

theorem dump_words (phys wd : UInt32) (buf : List UInt32) :
    (dump phys wd buf).flatMap Prod.snd = buf := by
  induction wd, buf using dump.induct with
  | case1 wd => simp [dump]
  | case2 wd buf h words ih =>
    rw [dump, if_neg h, List.flatMap_cons, ih, List.take_append_drop]

/-- An accepted `mw` fills the range with the value, and `md` then shows it. -/
structure Fills (maps : List Mapping) (mem : Mem) (addr val len : UInt32) : Prop where
  inside : Inside maps (mw maps mem addr val len).touched
  filled : Filled mem addr.toNat len.toNat val (mw maps mem addr val len).mem
  shown : ∀ malloc : UInt32 → Bool, malloc (len * 4) = true →
    let r := md malloc maps (mw maps mem addr val len).mem addr len
    r.ret = 0 ∧ Inside maps r.touched ∧
      r.output.flatMap Prod.snd = List.replicate len.toNat val

section Fills

variable {maps : List Mapping} {mem : Mem} {addr val len : UInt32} {m : Mapping}

/-- What `md` shows are the words of the range. -/
theorem md_words {malloc : UInt32 → Bool} (hmalloc : malloc (len * 4) = true)
    (hfind : findMap maps addr len = some m) :
    (md malloc maps mem addr len).output.flatMap Prod.snd =
      (List.range len.toNat).map fun j => readWord mem (addr.toNat + 4 * j) := by
  have hoff := Mapping.offset_toNat (findMap_some hfind).2
  rw [md_some hmalloc hfind, dump_words, Mapping.readLoop_eq, List.map_map]
  refine List.map_congr_left fun j _ => ?_
  rw [Function.comp_apply, ← hoff, Nat.add_assoc]

/-- All passes of the loop write the first word. -/
theorem filled_mw_iff (hfind : findMap maps addr len = some m) :
    Filled mem addr.toNat len.toNat val (mw maps mem addr val len).mem ↔
      ∀ j, 1 ≤ j → j < len.toNat → readWord mem (addr.toNat + 4 * j) = val := by
  have hoff := Mapping.offset_toNat (findMap_some hfind).2
  have hmemEq : (mw maps mem addr val len).mem =
      (m.writeLoop val (addr - m.phys).toNat len.toNat mem).2 :=
    congrArg Run.mem (mw_some hfind)
  obtain ⟨hout, hzero, hval⟩ :=
    writeLoop_writeWord m val (addr - m.phys).toNat len.toNat mem
  rw [hoff] at hout hval
  rw [← hmemEq] at hout hzero hval
  have hsame : ∀ j, 1 ≤ j → readWord (mw maps mem addr val len).mem (addr.toNat + 4 * j) =
      readWord mem (addr.toNat + 4 * j) := fun j hj =>
    readWord_congr fun i hle _ => hout i (Or.inr (by omega))
  constructor
  · intro hfilled j hj hlt
    rw [← hsame j hj]
    exact hfilled.words j hlt
  · refine fun hwords => ⟨fun j hlt => ?_, fun i hi => ?_⟩
    · rcases Nat.eq_zero_or_pos j with rfl | hpos
      · exact hval hlt
      · rw [hsame j hpos]
        exact hwords j hpos hlt
    · rcases Nat.eq_zero_or_pos len.toNat with hn | hn
      · rw [hzero hn]
      · exact hout i (by omega)

end Fills

/-- For every accepted request: the value is written to all words exactly if it is already in all
words but the first. -/
theorem mw_fills_iff (maps : List Mapping) (mem : Mem) (addr val len : UInt32) :
    ((mw maps mem addr val len).ret = 0 → Fills maps mem addr val len) ↔
    ∀ m, findMap maps addr len = some m → m.Contains addr len ∧
      ∀ j, 1 ≤ j → j < len.toNat → readWord mem (addr.toNat + 4 * j) = val := by
  cases hfind : findMap maps addr len with
  | none =>
    rw [mw_none hfind]
    refine iff_of_true (fun h => absurd h Int.one_ne_zero) fun m hm => ?_
    exact (Option.some_ne_none m hm.symm).elim
  | some m =>
    have hret : (mw maps mem addr val len).ret = 0 := congrArg Run.ret (mw_some hfind)
    constructor
    · intro h m' hm'
      obtain rfl : m = m' := Option.some.inj hm'
      have hfills := h hret
      refine ⟨?_, (filled_mw_iff hfind).mp hfills.filled⟩
      have hinside := (hfills.shown (fun _ => true) rfl).2.1
      rw [md_some rfl hfind] at hinside
      exact (inside_readLoop hfind).mp hinside
    · intro h _
      obtain ⟨hc, hwords⟩ := h m rfl
      have hfilled := (filled_mw_iff hfind).mpr hwords
      refine ⟨?_, hfilled, fun malloc hmalloc => ⟨?_, ?_, ?_⟩⟩
      · rw [mw_some hfind]
        exact inside_writeLoop hfind hc
      · rw [md_some hmalloc hfind]
      · rw [md_some hmalloc hfind]
        exact (inside_readLoop hfind).mpr hc
      · rw [md_words hmalloc hfind, List.eq_replicate_iff]
        refine ⟨by simp, fun v hv => ?_⟩
        obtain ⟨j, hj, rfl⟩ := List.mem_map.mp hv
        exact hfilled.words j (List.mem_range.mp hj)

/-- Two words of a mapping that holds zeros. -/
theorem not_mw_fills :
    ¬ ((mw [⟨0x1e6e2000, 0x1000⟩] (fun _ => 0) 0x1e6e2000 0x12345678 2).ret = 0 →
      Fills [⟨0x1e6e2000, 0x1000⟩] (fun _ => 0) 0x1e6e2000 0x12345678 2) := by
  intro h
  have hfirst := (h (by decide)).filled.words 1 (by decide)
  exact absurd hfirst (by decide)

end MetaCommon.IoApp
