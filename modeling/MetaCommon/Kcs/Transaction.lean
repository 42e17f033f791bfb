import Mathlib.Data.List.Induction
import MetaCommon.Kcs.FfujCommands
import MetaCommon.Kcs.Request

/-!
# Transactions as the host sends them

`Transfer` is the protocol without the driver: a WRITE_START opens a transaction, data bytes are
collected, a WRITE_END announces the last one, and anything out of this order leaves no transaction
open. `Tracks` relates it to the channel, and `tracks_step` keeps the relation as long as the driver
accepts a WRITE_END only where the protocol has one to end. A request is then executed exactly at
the end of a transaction and with its bytes.
-/

namespace MetaCommon.Kcs

open Buffer

variable {ε : Type*} (tbl : List (IpmiCmdTable ε))

inductive Transfer
  | idle
  | collecting (bs : List UInt8)
  | ending (bs : List UInt8)
  deriving DecidableEq, Repr

def Transfer.next (t : Transfer) : HostByte → Transfer
  | .cmd b =>
    if b = kcsCtrlCodeWriteStart then .collecting []
    else if b = kcsCtrlCodeWriteEnd then
      match t with
      | .collecting bs => .ending bs
      | _ => .idle
    else .idle
  | .data b =>
    match t with
    | .collecting bs => .collecting (bs ++ [b])
    | _ => .idle

def transfer (h : List HostByte) : Transfer := Runs.run Transfer.next .idle h

/-- The write half of a transaction: WRITE_START, the data bytes `bs`, WRITE_END and a last data
byte. -/
def writeTransaction (bs : List UInt8) (b : UInt8) : List HostByte :=
  .cmd kcsCtrlCodeWriteStart :: bs.map .data ++ [.cmd kcsCtrlCodeWriteEnd, .data b]

/-- The bytes since the latest WRITE_START are one transaction, and `req` are its data bytes. -/
def EndsTransaction (h : List HostByte) (req : List UInt8) : Prop :=
  ∃ (pre : List HostByte) (bs : List UInt8) (b : UInt8),
    h = pre ++ writeTransaction bs b ∧ req = bs ++ [b]

theorem transfer_concat (h : List HostByte) (b : HostByte) :
    transfer (h ++ [b]) = (transfer h).next b := Runs.run_concat ..

theorem transfer_collecting {h : List HostByte} {bs : List UInt8}
    (ht : transfer h = .collecting bs) :
    ∃ pre, h = pre ++ .cmd kcsCtrlCodeWriteStart :: bs.map .data := by
  induction h using List.reverseRecOn generalizing bs with
  | nil => simp [transfer] at ht
  | append_singleton h x ih =>
    rw [transfer_concat] at ht
    cases x with
    | cmd b =>
      by_cases hb : b = kcsCtrlCodeWriteStart
      · subst hb
        have hbs : bs = [] := by simpa [Transfer.next] using ht.symm
        exact ⟨h, by rw [hbs]; rfl⟩
      · simp only [Transfer.next, if_neg hb] at ht
        split_ifs at ht
        split at ht <;> cases ht
    | data b =>
      simp only [Transfer.next] at ht
      split at ht
      · rename_i bs' hbs'
        obtain ⟨pre, hpre⟩ := ih hbs'
        obtain rfl := Transfer.collecting.inj ht
        exact ⟨pre, by simp [hpre]⟩
      · cases ht

theorem transfer_ending {h : List HostByte} {bs : List UInt8} (ht : transfer h = .ending bs) :
    ∃ pre, h = pre ++ .cmd kcsCtrlCodeWriteStart :: bs.map .data ++ [.cmd kcsCtrlCodeWriteEnd] := by
  induction h using List.reverseRecOn with
  | nil => simp [transfer] at ht
  | append_singleton h x _ =>
    rw [transfer_concat] at ht
    cases x with
    | cmd b =>
      simp only [Transfer.next] at ht
      split_ifs at ht with h₁ h₂
      split at ht
      · rename_i bs' hbs'
        obtain rfl := Transfer.ending.inj ht
        obtain ⟨pre, hpre⟩ := transfer_collecting hbs'
        exact ⟨pre, by rw [hpre, h₂]⟩
      · cases ht
    | data b =>
      simp only [Transfer.next] at ht
      split at ht <;> cases ht

/-- The channel agrees with the protocol: it collects what the host sends in a transaction, and
outside one there is nothing that a WRITE_END could turn into a request. -/
def Tracks (t : Transfer) (c : Channel ε) : Prop :=
  match t with
  | .idle => c.pkt.phase ≠ .writeStart ∧ c.pkt.phase ≠ .writeData ∧
      (c.pkt.phase = .writeEnd → c.pkt.dataInIdx = 0)
  | .collecting bs =>
      (c.pkt.phase = .writeStart ∧ bs = [] ∨ c.pkt.phase = .writeData) ∧
        c.pkt.error = .noError ∧ c.pkt.Holds bs
  | .ending bs => c.pkt.phase = .writeEnd ∧ c.pkt.Holds bs

/-- Where the driver strays from the protocol: a WRITE_END that it accepts outside the write phases
with bytes left in the buffer, and a request that makes the `u16` index wrap. -/
def InProtocol (c : Channel ε) : HostByte → Prop
  | .cmd b => b = kcsCtrlCodeWriteEnd → c.pkt.error = .noError →
      c.pkt.phase = .writeStart ∨ c.pkt.phase = .writeData ∨ c.pkt.dataInIdx = 0
  | .data _ => c.pkt.phase = .writeData → c.pkt.dataInIdx ≠ 65535

instance : DecidableRel (InProtocol (ε := ε))
  | _, .cmd _ => by unfold InProtocol; infer_instance
  | _, .data _ => by unfold InProtocol; infer_instance

theorem tracks_init (regs : KcsIoReg) (env : ε) : Tracks .idle (kcsInit regs env) :=
  ⟨by simp [kcsInit], by simp [kcsInit], by simp [kcsInit]⟩

/-- Outside the write phases the protocol has no transaction open. -/
theorem Tracks.eq_idle {t : Transfer} {c : Channel ε} (ht : Tracks t c)
    (h₁ : c.pkt.phase ≠ .writeStart) (h₂ : c.pkt.phase ≠ .writeData)
    (h₃ : c.pkt.phase ≠ .writeEnd) : t = .idle := by
  cases t with
  | idle => rfl
  | collecting bs => exact absurd ht.1 (by simp [h₁, h₂])
  | ending bs => exact absurd ht.1 h₃

theorem tracks_idle_of_phase {c : Channel ε} (h₁ : c.pkt.phase ≠ .writeStart)
    (h₂ : c.pkt.phase ≠ .writeData) (h₃ : c.pkt.phase ≠ .writeEnd) : Tracks .idle c :=
  ⟨h₁, h₂, fun h => absurd h h₃⟩

theorem Reaction.tracks_writeEnd {c c' : Channel ε} {t : Transfer} (ht : Tracks t c)
    (hg : InProtocol c (.cmd kcsCtrlCodeWriteEnd)) (herr : c.pkt.error = .noError)
    (hp : c'.pkt = { c.pkt with phase := .writeEnd }) :
    Tracks (t.next (.cmd kcsCtrlCodeWriteEnd)) c' := by
  have hne : kcsCtrlCodeWriteEnd ≠ kcsCtrlCodeWriteStart := by decide
  simp only [Transfer.next, if_neg hne, if_true]
  cases t with
  | collecting bs => exact ⟨by rw [hp], by rw [hp]; exact ht.2.2⟩
  | idle =>
    obtain ⟨h₁, h₂, _⟩ := ht
    have h₀ : c.pkt.dataInIdx = 0 := by simpa [h₁, h₂] using hg rfl herr
    exact ⟨by simp [hp], by simp [hp], fun _ => by rw [hp]; exact h₀⟩
  | ending bs =>
    have h₀ : c.pkt.dataInIdx = 0 := by simpa [ht.1] using hg rfl herr
    exact ⟨by simp [hp], by simp [hp], fun _ => by rw [hp]; exact h₀⟩

/-- A byte that is refused belongs to no transaction. -/
theorem Refuses.next_idle {c : Channel ε} {b : HostByte} {e : KcsError} {t : Transfer}
    (hr : Refuses c.pkt b e) (ht : Tracks t c) : t.next b = .idle := by
  cases hr with
  | badCmd h₁ h₂ _ => simp only [Transfer.next, if_neg h₁, if_neg h₂]
  | writeEnd herr =>
    have hne : kcsCtrlCodeWriteEnd ≠ kcsCtrlCodeWriteStart := by decide
    simp only [Transfer.next, if_neg hne, if_true]
    cases t with
    | collecting bs => exact absurd ht.2.1 herr
    | idle => rfl
    | ending bs => rfl
  | data hph =>
    have h : t = .idle := by
      rcases hph with h | h | h <;> exact ht.eq_idle (by simp [h]) (by simp [h]) (by simp [h])
    rw [h]
    rfl

theorem Reaction.tracks {c c' : Channel ε} {b : HostByte} {t : Transfer}
    (hr : Reaction tbl c b c') (ht : Tracks t c) (hg : InProtocol c b) :
    Tracks (t.next b) c' := by
  cases hr with
  | writeStart _ hp _ =>
    simp only [Transfer.next, if_true]
    exact ⟨.inl ⟨by rw [hp], rfl⟩, by rw [hp]; rfl, by rw [hp]; exact ⟨rfl, rfl⟩⟩
  | writeEnd herr _ hp _ => exact tracks_writeEnd ht hg herr hp
  | abortCmd _ hp _ =>
    have h₁ : kcsCtrlCodeGetStatusAbort ≠ kcsCtrlCodeWriteStart := by decide
    have h₂ : kcsCtrlCodeGetStatusAbort ≠ kcsCtrlCodeWriteEnd := by decide
    simp only [Transfer.next, if_neg h₁, if_neg h₂]
    exact tracks_idle_of_phase (by simp [hp]) (by simp [hp]) (by simp [hp])
  | refuse hr _ hp _ _ =>
    rw [hr.next_idle ht]
    exact tracks_idle_of_phase (by simp [hp]) (by simp [hp]) (by simp [hp])
  | accept hph _ hp _ =>
    cases t with
    | idle => exact absurd hph (by simp [ht.1, ht.2.1])
    | ending bs => exact absurd hph (by simp [ht.1])
    | collecting bs =>
      obtain ⟨hwhere, herr, hh⟩ := ht
      have hlen : bs.length < 65535 := by
        have hidx := hh.1
        rcases hwhere with ⟨_, rfl⟩ | hwd
        · simp
        · have hne := hg hwd
          have hlt : c.pkt.dataInIdx.toNat < 65536 := c.pkt.dataInIdx.toNat_lt
          have : c.pkt.dataInIdx.toNat ≠ 65535 := fun h => hne (UInt16.toNat_inj.mp h)
          omega
      simp only [Transfer.next]
      refine ⟨.inr (by rw [hp]; rfl), by rw [hp]; exact herr, ?_⟩
      rw [hp]
      exact KcsPacket.Holds.accept (p := { c.pkt with phase := .writeData }) hh hlen _
  | execute hph r _ hp =>
    have hnext : ∀ x, t.next (.data x) = .idle := by
      intro x
      cases t with
      | collecting bs => exact absurd ht.1 (by simp [hph])
      | idle => rfl
      | ending bs => rfl
    rw [hnext]
    exact tracks_idle_of_phase (by simp [hp, KcsPacket.respond]) (by simp [hp, KcsPacket.respond])
      (by simp [hp, KcsPacket.respond])
  | badRead hph _ _ hp _ _ | readNext hph _ _ _ _ hp _ _ | readLast hph _ _ hp _ _
  | abort1 hph _ hp _ _ | abort2 hph _ hp _ _ =>
    rw [ht.eq_idle (by simp [hph]) (by simp [hph]) (by simp [hph])]
    exact tracks_idle_of_phase (by simp [hp, hph]) (by simp [hp, hph]) (by simp [hp, hph])

theorem init_in_protocol_tracks (regs : KcsIoReg) (env : ε) {bs : List HostByte}
    (hg : Runs.Guarded (hostWrite tbl) InProtocol (kcsInit regs env) bs) :
    Tracks (transfer bs) (run tbl (kcsInit regs env) bs) := by
  refine Runs.Guarded.history_invariant (R := fun h c => Tracks (transfer h) c) ?_
    (tracks_init regs env) hg
  intro h c b ht hc
  rw [transfer_concat]
  exact (hostWrite_reaction tbl c b).tracks tbl ht hc

/-- A byte executes a request only as the last one of a transaction, and then this request. -/
theorem Reaction.executes {c c' : Channel ε} {b : HostByte} {t : Transfer}
    (hr : Reaction tbl c b c') (ht : Tracks t c) :
    c'.calls = c.calls ∧ c'.env = c.env ∨
      ∃ bs x d, t = .ending bs ∧ b = .data x ∧ ipmiRequest (bs ++ [x]) = some d ∧
        c'.calls = c.calls ++ [d] ∧ c'.env = (ipmiCmdHandler tbl d c.env).2 := by
  cases hr with
  | writeStart hq | writeEnd _ hq | abortCmd hq | refuse _ hq | accept _ hq | badRead _ _ hq
  | readLast _ _ hq | abort1 _ hq | abort2 _ hq => exact .inl ⟨hq.calls, hq.env⟩
  | readNext _ _ henv hcalls => exact .inl ⟨hcalls, henv⟩
  | @execute _ x hph r hr hp henv hcalls =>
    -- nothing is executed when the index counts fewer than two bytes
    have short : (c.pkt.accept x).dataInIdx.toNat < 2 → c'.calls = c.calls ∧ c'.env = c.env := by
      intro hlt
      have hs := fillResponse_of_short tbl
        { c.pkt.accept x with phase := .readWait, readReqDone := true } c.env hlt
      rw [← hr] at hs
      exact ⟨by rw [hcalls, hs.1]; simp, by rw [henv, hs.2]⟩
    cases t with
    | collecting bs => exact absurd ht.1 (by simp [hph])
    | idle =>
      refine .inl (short ?_)
      rw [KcsPacket.accept, ht.2.2 hph]
      change (0 + 1 : UInt16).toNat < 2
      decide
    | ending bs =>
      obtain ⟨_, hh⟩ := ht
      by_cases hlen : bs.length < 65535
      · have hacc := hh.accept hlen x
        rcases hreq : bs ++ [x] with _ | ⟨b₀, _ | ⟨b₁, rest⟩⟩
        · simp at hreq
        · refine .inl (short ?_)
          rw [hacc.1, hreq]
          simp
        · rw [hreq] at hacc
          obtain ⟨_, hcall, henv'⟩ := fillResponse_of_holds tbl
            { c.pkt.accept x with phase := .readWait, readReqDone := true } c.env b₀ b₁ rest hacc
          rw [← hr] at hcall henv'
          rw [hcalls, henv, hcall, henv']
          cases hd : ipmiRequest (b₀ :: b₁ :: rest) with
          | none => exact .inl ⟨by simp, by simp⟩
          | some d => exact .inr ⟨bs, x, d, rfl, rfl, by rw [hreq, hd], by simp, by simp⟩
      · -- the request is one byte too long for the index, which wraps to zero
        refine .inl (short ?_)
        have hidx : c.pkt.dataInIdx = 65535 := by
          have hlt : c.pkt.dataInIdx.toNat < 65536 := c.pkt.dataInIdx.toNat_lt
          have hlen' := hh.1
          exact UInt16.toNat_inj.mp (by change _ = 65535; omega)
        rw [KcsPacket.accept, hidx]
        change (65535 + 1 : UInt16).toNat < 2
        decide

/-- Every byte of the run either executes nothing, or ends a transaction whose data bytes are the
request it executes. -/
def ExecutesTransactions (c₀ : Channel ε) (bs : List HostByte) : Prop :=
  ∀ pre b post, bs = pre ++ b :: post →
    (run tbl c₀ (pre ++ [b])).calls = (run tbl c₀ pre).calls ∨
      ∃ req d, EndsTransaction (pre ++ [b]) req ∧ ipmiRequest req = some d ∧
        (run tbl c₀ (pre ++ [b])).calls = (run tbl c₀ pre).calls ++ [d]

/-- The transaction that is open, if there is one. -/
def Transfer.opened : Transfer → ℕ
  | .idle => 0
  | .collecting _ => 1
  | .ending _ => 1

theorem Reaction.calls_length {c c' : Channel ε} {b : HostByte} {t : Transfer}
    (hr : Reaction tbl c b c') (ht : Tracks t c) :
    c'.calls.length + (t.next b).opened ≤
      c.calls.length + t.opened + List.count (.cmd kcsCtrlCodeWriteStart) [b] := by
  have hopen : (t.next b).opened ≤ t.opened + List.count (.cmd kcsCtrlCodeWriteStart) [b] := by
    cases b with
    | cmd x =>
      by_cases hx : x = kcsCtrlCodeWriteStart
      · subst hx
        simp [Transfer.next, Transfer.opened]
      · simp only [Transfer.next, if_neg hx]
        cases t <;> split_ifs <;> simp [Transfer.opened]
    | data x => cases t <;> simp [Transfer.next, Transfer.opened]
  rcases hr.executes tbl ht with ⟨h, _⟩ | ⟨bs, x, d, rfl, rfl, _, h, _⟩
  · rw [h]
    omega
  · rw [h]
    simp [Transfer.next, Transfer.opened]

theorem run_executes_transactions (regs : KcsIoReg) (env : ε) (bs : List HostByte)
    (hg : Runs.Guarded (hostWrite tbl) InProtocol (kcsInit regs env) bs) :
    ExecutesTransactions tbl (kcsInit regs env) bs ∧
      (run tbl (kcsInit regs env) bs).calls.length ≤
        bs.count (.cmd kcsCtrlCodeWriteStart) := by
  constructor
  · rintro pre b post rfl
    have ht := init_in_protocol_tracks tbl regs env
      ((Runs.guarded_append _ pre (b :: post)).mp hg).1
    rcases (run_reaction tbl (kcsInit regs env) pre b).executes tbl ht with
      h | ⟨rs, x, d, hend, rfl, hreq, hcalls, _⟩
    · exact .inl h.1
    · obtain ⟨pre', hpre⟩ := transfer_ending hend
      exact .inr ⟨rs ++ [x], d, ⟨pre', rs, x, by simp [hpre, writeTransaction], rfl⟩, hreq, hcalls⟩
  · have h := Runs.Guarded.history_invariant
      (R := fun h c => Tracks (transfer h) c ∧ c.calls.length + (transfer h).opened ≤
        h.count (.cmd kcsCtrlCodeWriteStart))
      (fun h c b ht hc => by
        have hr := hostWrite_reaction tbl c b
        have hle := hr.calls_length tbl ht.1
        rw [transfer_concat, List.count_append]
        exact ⟨hr.tracks tbl ht.1 hc, by omega⟩)
      ⟨tracks_init regs env, Nat.le_refl 0⟩ hg
    exact Nat.le_trans (Nat.le_add_right _ _) h.2

theorem run_executes_transactions_get_device_id :
    ExecutesTransactions (cmdInfo EnvLib.plain) (kcsInit ⟨0, 0, 0⟩ (none, none))
        (writeTransaction [0x18] 0x01) ∧
      (run (cmdInfo EnvLib.plain) (kcsInit ⟨0, 0, 0⟩ (none, none))
        (writeTransaction [0x18] 0x01)).calls.length ≤
      (writeTransaction [0x18] 0x01).count (.cmd kcsCtrlCodeWriteStart) :=
  run_executes_transactions (cmdInfo EnvLib.plain) ⟨0, 0, 0⟩ (none, none) _ (by decide)

/-- Get Device ID, executed without any WRITE_START. -/
theorem not_executes_transactions :
    ¬ ∀ bs, ExecutesTransactions (cmdInfo EnvLib.plain) (kcsInit ⟨0, 0, 0⟩ (none, none)) bs := by
  intro h
  have h := h [.cmd 0x62, .data 0x18, .cmd 0x62, .data 0x01] [.cmd 0x62, .data 0x18, .cmd 0x62]
    (.data 0x01) [] rfl
  rcases h with h | ⟨req, d, ⟨pre, bs, b, hbs, _⟩, _⟩
  · exact absurd h (by decide)
  · have hmem : HostByte.cmd kcsCtrlCodeWriteStart ∈
        [HostByte.cmd 0x62, .data 0x18, .cmd 0x62] ++ [.data 0x01] := by
      rw [hbs]
      simp [writeTransaction]
    exact absurd hmem (by decide)

end MetaCommon.Kcs
