import MetaCommon.Kcs.Transaction

/-!
# The length of a request

The driver counts the bytes of a request in a `u16` and compares the count with the size of the
buffer, which is one more than the count can be. So no request is ever too long for it: the count
of a request of 65536 bytes is zero, and the byte behind it is stored over the first one.
-/

namespace MetaCommon.Kcs

open Buffer

variable {ε : Type*} (tbl : List (IpmiCmdTable ε)) (c : Channel ε)

/-- The channel after a WRITE_START and the data bytes `bs`. -/
def written (bs : List UInt8) : Channel ε := run tbl c (.cmd kcsCtrlCodeWriteStart :: bs.map .data)

/-- No byte accepted in the transaction is overwritten in it, the index counts the bytes, and a
request that does not fit in `data_in` ends with a length error and is not executed. -/
structure WriteSound (bs : List UInt8) (b : UInt8) : Prop where
  kept : ∀ n ≤ bs.length, load (written tbl c (bs.take n)).pkt.dataIn 0 (min n maxKcsPktSize) =
    bs.take (min n maxKcsPktSize)
  counted : ∀ n ≤ bs.length, n ≤ maxKcsPktSize →
    (written tbl c (bs.take n)).pkt.dataInIdx.toNat = n
  ended : bs.length < maxKcsPktSize → (run tbl c (writeTransaction bs b)).pkt.Holds (bs ++ [b])
  aborted : maxKcsPktSize ≤ bs.length →
    (run tbl c (writeTransaction bs b)).pkt.error = .lengthError ∧
      (run tbl c (writeTransaction bs b)).calls = c.calls

theorem written_nil : (written tbl c []).pkt = { initKcsPacket c.pkt with phase := .writeStart } :=
  ((hostWrite_reaction tbl c (.cmd kcsCtrlCodeWriteStart)).of_writeStart rfl).2

theorem written_concat (bs : List UInt8) (x : UInt8) :
    written tbl c (bs ++ [x]) = hostWrite tbl (written tbl c bs) (.data x) := by
  rw [written, List.map_append, List.map_singleton, ← List.cons_append, run, Runs.run_concat]
  rfl

theorem run_writeTransaction (bs : List UInt8) (b : UInt8) :
    run tbl c (writeTransaction bs b) =
      hostWrite tbl (hostWrite tbl (written tbl c bs) (.cmd kcsCtrlCodeWriteEnd)) (.data b) :=
  Runs.run_append _ _ _ _

/-- A transaction of any length is collected, with the count taken modulo 65536. -/
theorem written_pkt (bs : List UInt8) :
    ((written tbl c bs).pkt.phase = .writeStart ∨ (written tbl c bs).pkt.phase = .writeData) ∧
      (written tbl c bs).pkt.error = .noError ∧
      (written tbl c bs).pkt.dataInIdx = UInt16.ofNat bs.length := by
  induction bs using List.reverseRecOn with
  | nil =>
    rw [written_nil]
    exact ⟨.inl rfl, rfl, rfl⟩
  | append_singleton bs x ih =>
    obtain ⟨hph, herr, hidx⟩ := ih
    have hp := ((hostWrite_reaction tbl (written tbl c bs) (.data x)).of_accept hph).2
    rw [written_concat, hp]
    refine ⟨.inr rfl, herr, ?_⟩
    rw [List.length_append, List.length_singleton, UInt16.ofNat_add, ← hidx]
    rfl

/-- Each byte is stored at its number modulo 65536. -/
theorem written_concat_dataIn (bs : List UInt8) (x : UInt8) :
    (written tbl c (bs ++ [x])).pkt.dataIn =
      Function.update (written tbl c bs).pkt.dataIn (bs.length % 65536) x := by
  obtain ⟨hph, -, hidx⟩ := written_pkt tbl c bs
  have hp := ((hostWrite_reaction tbl (written tbl c bs) (.data x)).of_accept hph).2
  rw [written_concat, hp]
  simp only [KcsPacket.accept, hidx, UInt16.toNat_ofNat']

theorem written_holds (bs : List UInt8) (hlen : bs.length < 65536) :
    (written tbl c bs).pkt.Holds bs := by
  induction bs using List.reverseRecOn with
  | nil =>
    rw [written_nil]
    exact ⟨rfl, rfl⟩
  | append_singleton bs x ih =>
    rw [List.length_append, List.length_singleton] at hlen
    have hp := ((hostWrite_reaction tbl (written tbl c bs) (.data x)).of_accept
      (written_pkt tbl c bs).1).2
    have hh := ih (by omega)
    rw [written_concat, hp]
    exact KcsPacket.Holds.accept (p := { (written tbl c bs).pkt with phase := .writeData }) hh
      (by omega) x

theorem run_writeTransaction_holds (bs : List UInt8) (b : UInt8) (hlen : bs.length < 65535) :
    (run tbl c (writeTransaction bs b)).pkt.Holds (bs ++ [b]) := by
  have hend := ((hostWrite_reaction tbl (written tbl c bs) (.cmd kcsCtrlCodeWriteEnd)).of_writeEnd
    rfl (written_pkt tbl c bs).2.1).2
  have hph : (hostWrite tbl (written tbl c bs) (.cmd kcsCtrlCodeWriteEnd)).pkt.phase =
      .writeEnd := by rw [hend]
  obtain ⟨r, -, hp, -⟩ := (hostWrite_reaction tbl _ (.data b)).of_execute hph
  have hacc : (hostWrite tbl (written tbl c bs) (.cmd kcsCtrlCodeWriteEnd)).pkt.Holds bs := by
    rw [hend]
    exact written_holds tbl c bs (by omega)
  rw [run_writeTransaction, hp]
  exact hacc.accept hlen b

/-- A request is counted and kept exactly if it is shorter than the buffer: one of 65536 bytes has
the count zero, and a longer one overwrites its own beginning instead of being aborted. -/
theorem writeSound_iff (bs : List UInt8) (b : UInt8) :
    WriteSound tbl c bs b ↔ bs.length + 1 < maxKcsPktSize := by
  constructor
  · intro h
    by_contra hlen
    change ¬ bs.length + 1 < 65536 at hlen
    by_cases hfits : bs.length < 65536
    · have hidx := (h.ended hfits).1
      have hlt := (run tbl c (writeTransaction bs b)).pkt.dataInIdx.toNat_lt
      rw [List.length_append, List.length_singleton] at hidx
      omega
    · have hidx := h.counted 65536 (by omega) (Nat.le_refl _)
      have hlt := (written tbl c (bs.take 65536)).pkt.dataInIdx.toNat_lt
      omega
  · intro hlen
    change bs.length + 1 < 65536 at hlen
    have hheld : ∀ n ≤ bs.length, (written tbl c (bs.take n)).pkt.Holds (bs.take n) := fun n _ =>
      written_holds tbl c _ (by rw [List.length_take]; omega)
    refine ⟨?_, ?_, ?_, ?_⟩
    · intro n hn
      have hload := (hheld n hn).2
      have hmin : min n maxKcsPktSize = n := Nat.min_eq_left (by change n ≤ 65536; omega)
      rw [List.length_take, Nat.min_eq_left hn] at hload
      rw [hmin, hload]
    · intro n hn _
      rw [(hheld n hn).1, List.length_take, Nat.min_eq_left hn]
    · intro _
      exact run_writeTransaction_holds tbl c bs b (by omega)
    · intro hle
      change 65536 ≤ bs.length at hle
      omega

/-- The byte behind the first 65536 is stored over the first one. -/
theorem written_overwrites {bs : List UInt8} (hlen : bs.length = 65536) (x : UInt8) :
    (written tbl c (bs ++ [x])).pkt.dataIn 0 = x := by
  rw [written_concat_dataIn, hlen]
  exact Function.update_self ..

theorem head_eq_of_kept {bs : List UInt8} {x b : UInt8} (hlen : bs.length = 65536)
    (h : WriteSound tbl c (bs ++ [x]) b) : bs.head? = some x := by
  have hall : (bs ++ [x]).length = 65537 := by rw [List.length_append, hlen, List.length_singleton]
  have hkept := h.kept 65537 (Nat.le_of_eq hall.symm)
  have hmin : min 65537 maxKcsPktSize = 65535 + 1 := rfl
  rw [List.take_of_length_le (Nat.le_of_eq hall), hmin, load_succ,
    written_overwrites tbl c hlen] at hkept
  have hhead := congrArg List.head? hkept
  rw [List.take_append_of_le_length (Nat.le_of_eq hlen.symm),
    List.take_of_length_le (Nat.le_of_eq hlen)] at hhead
  exact hhead.symm

/-- 65536 zero bytes and a one, which takes the place of the first zero. -/
theorem not_writeSound :
    ¬ WriteSound (cmdInfo EnvLib.plain) (kcsInit ⟨0, 0, 0⟩ (none, none))
      (List.replicate 65536 0x00 ++ [0x01]) 0x02 := by
  intro h
  have hhead := head_eq_of_kept _ _ List.length_replicate h
  rw [List.head?_replicate, if_neg (by decide)] at hhead
  exact absurd (Option.some.inj hhead) (by decide)

end MetaCommon.Kcs
