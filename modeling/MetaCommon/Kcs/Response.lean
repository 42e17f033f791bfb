import MetaCommon.Kcs.Transaction

/-!
# What the host reads back

The host side of a whole transaction: it writes the request and then, as long as the status shows
READ, reads ODR and writes the READ byte. From any state of the channel the bytes it reads are the
response to the request it wrote, the channel ends in IDLE, and the command handler has been called
once if the request was for LUN 0, and not at all if it was for another.
-/

namespace MetaCommon.Kcs

open Buffer

variable {ε : Type*} (tbl : List (IpmiCmdTable ε))

/-- The write half of a transaction up to its last byte. -/
def writeHead (bs : List UInt8) (ended : Bool) : List HostByte :=
  .cmd kcsCtrlCodeWriteStart :: bs.map .data ++
    if ended then [.cmd kcsCtrlCodeWriteEnd] else []

theorem writeTransaction_eq (bs : List UInt8) (b : UInt8) :
    writeTransaction bs b = writeHead bs true ++ [.data b] := by
  simp [writeTransaction, writeHead]

/-- The read loop of the host, which gives up after `fuel` rounds. -/
def readResponse : ℕ → Channel ε → Option (List UInt8 × Channel ε)
  | 0, _ => none
  | fuel + 1, c =>
    if c.regs.Shows .read then
      (readResponse fuel (hostWrite tbl c (.data kcsCtrlCodeRead))).map
        fun r => (c.regs.odr :: r.1, r.2)
    else some ([], c)

/-- What the handler leaves of its state. -/
def ipmiState (env : ε) (request : List UInt8) : ε :=
  ((ipmiRequest request).map fun d => (ipmiCmdHandler tbl d env).2).getD env

/-- After writing the request `bs ++ [b]` the host reads exactly `resp`, in as many rounds as it
has bytes and one to see that it is over, and leaves the channel idle. -/
def Answers (c : Channel ε) (bs : List UInt8) (b : UInt8) (resp : List UInt8) : Prop :=
  ∀ fuel, resp.length < fuel →
    ∃ c', readResponse tbl fuel (run tbl c (writeTransaction bs b)) = some (resp, c') ∧
      c'.pkt.phase = .idle ∧ c'.regs.Shows .idle

/-- In at most `fuel` rounds the host reads the answer of the server to `bs ++ [b]`. The handler has
got the request that the server hands on, if any, and the channel is idle. -/
def AnsweredIn (fuel : ℕ) (c : Channel ε) (bs : List UInt8) (b : UInt8) : Prop :=
  ∃ c', readResponse tbl fuel (run tbl c (writeTransaction bs b)) =
      some (ipmiResponse tbl c.env (bs ++ [b]), c') ∧
    c'.env = ipmiState tbl c.env (bs ++ [b]) ∧
    c'.calls = c.calls ++ (ipmiRequest (bs ++ [b])).toList ∧
    c'.pkt.phase = .idle ∧ c'.regs.Shows .idle

def AnswersAsServer (c : Channel ε) (bs : List UInt8) (b : UInt8) : Prop :=
  ∀ fuel, (ipmiResponse tbl c.env (bs ++ [b])).length < fuel → AnsweredIn tbl fuel c bs b

/-! ### What does not reach the handler -/

/-- Only a byte in the phase after WRITE_END does, and only WRITE_END leads to that phase. -/
structure Unhandled (c c' : Channel ε) : Prop where
  env : c'.env = c.env
  calls : c'.calls = c.calls

section Unhandled

variable {tbl} {c c' : Channel ε} {x : UInt8}

theorem Unhandled.refl (c : Channel ε) : Unhandled c c := ⟨rfl, rfl⟩

theorem Unhandled.trans {c'' : Channel ε} (h : Unhandled c c') (h' : Unhandled c' c'') :
    Unhandled c c'' := ⟨h'.env.trans h.env, h'.calls.trans h.calls⟩

theorem Quiet.unhandled (h : Quiet c c') : Unhandled c c' := ⟨h.env, h.calls⟩

theorem Reaction.unhandled_cmd (hr : Reaction tbl c (.cmd x) c') : Unhandled c c' := by
  cases hr with
  | writeStart hq => exact hq.unhandled
  | writeEnd _ hq => exact hq.unhandled
  | abortCmd hq => exact hq.unhandled
  | refuse _ hq => exact hq.unhandled

theorem Reaction.unhandled_data (hr : Reaction tbl c (.data x) c')
    (hph : c.pkt.phase ≠ .writeEnd) : Unhandled c c' ∧ c'.pkt.phase ≠ .writeEnd := by
  cases hr with
  | refuse _ hq hp => exact ⟨hq.unhandled, by simp [hp]⟩
  | accept _ hq hp => exact ⟨hq.unhandled, by simp [hp, KcsPacket.accept]⟩
  | execute h => exact absurd h hph
  | badRead h _ hq hp => exact ⟨hq.unhandled, by simp [hp, h]⟩
  | readNext h _ henv hcalls _ hp => exact ⟨⟨henv, hcalls⟩, by simp [hp, h]⟩
  | readLast _ _ hq hp => exact ⟨hq.unhandled, by simp [hp]⟩
  | abort1 _ hq hp => exact ⟨hq.unhandled, by simp [hp]⟩
  | abort2 _ hq hp => exact ⟨hq.unhandled, by simp [hp]⟩

variable (tbl)

theorem unhandled_run_data (bs : List UInt8) (hph : c.pkt.phase ≠ .writeEnd) :
    Unhandled c (run tbl c (bs.map .data)) := by
  induction bs generalizing c with
  | nil => exact Unhandled.refl c
  | cons b bs ih =>
    obtain ⟨hfirst, hph'⟩ := (hostWrite_reaction tbl c (.data b)).unhandled_data hph
    exact hfirst.trans (ih hph')

theorem unhandled_writeHead (c : Channel ε) (bs : List UInt8) (ended : Bool) :
    Unhandled c (run tbl c (writeHead bs ended)) := by
  have hstart := hostWrite_reaction tbl c (.cmd kcsCtrlCodeWriteStart)
  have hph : (hostWrite tbl c (.cmd kcsCtrlCodeWriteStart)).pkt.phase ≠ .writeEnd := by
    rw [(hstart.of_writeStart rfl).2]
    simp
  have hdata := hstart.unhandled_cmd.trans (unhandled_run_data tbl bs hph)
  have hrun : run tbl c (writeHead bs ended) = run tbl (run tbl (hostWrite tbl c
      (.cmd kcsCtrlCodeWriteStart)) (bs.map .data))
        (if ended then [.cmd kcsCtrlCodeWriteEnd] else []) := by
    rw [writeHead, List.cons_append, run, Runs.run_cons, Runs.run_append]
  rw [hrun]
  cases ended with
  | false => exact hdata
  | true => exact hdata.trans (hostWrite_reaction tbl _ _).unhandled_cmd

/-- The read loop writes nothing but data bytes. -/
theorem unhandled_readResponse {fuel : ℕ} {resp : List UInt8} (hph : c.pkt.phase ≠ .writeEnd)
    (h : readResponse tbl fuel c = some (resp, c')) : Unhandled c c' := by
  induction fuel generalizing c resp with
  | zero => exact nomatch h
  | succ fuel ih =>
    unfold readResponse at h
    split_ifs at h with hread
    · obtain ⟨r, hr, heq⟩ := Option.map_eq_some_iff.mp h
      obtain ⟨hfirst, hph'⟩ :=
        (hostWrite_reaction tbl c (.data kcsCtrlCodeRead)).unhandled_data hph
      obtain ⟨-, rfl⟩ := Prod.mk.inj heq
      exact hfirst.trans (ih hph' hr)
    · obtain ⟨-, rfl⟩ := Prod.mk.inj (Option.some.inj h)
      exact Unhandled.refl c

end Unhandled

/-! ### The write half -/

/-- The channel has collected `bs` since the WRITE_START it got in state `c₀`. -/
structure Collected (c₀ : Channel ε) (t : Transfer) (c : Channel ε) : Prop where
  tracks : Tracks t c
  outIdx : c.pkt.dataOutIdx = 0
  env : c.env = c₀.env

theorem collected_writeStart (c₀ : Channel ε) :
    Collected c₀ (.collecting []) (hostWrite tbl c₀ (.cmd kcsCtrlCodeWriteStart)) := by
  obtain ⟨hq, hp⟩ := (hostWrite_reaction tbl c₀ _).of_writeStart rfl
  exact ⟨⟨.inl ⟨by rw [hp], rfl⟩, by rw [hp]; rfl, by rw [hp]; exact ⟨rfl, rfl⟩⟩,
    by rw [hp]; rfl, hq.env⟩

theorem Collected.data {c₀ c : Channel ε} {bs : List UInt8} (hc : Collected c₀ (.collecting bs) c)
    (hlen : bs.length < 65535) (b : UInt8) :
    Collected c₀ (.collecting (bs ++ [b])) (hostWrite tbl c (.data b)) := by
  have hr := hostWrite_reaction tbl c (.data b)
  have hin : InProtocol c (.data b) := by
    intro _ hidx
    have h := hc.tracks.2.2.1
    rw [hidx] at h
    change 65535 = bs.length at h
    omega
  obtain ⟨hq, hp⟩ := hr.of_accept (hc.tracks.1.imp And.left id)
  exact ⟨hr.tracks tbl hc.tracks hin, by rw [hp]; exact hc.outIdx, hq.env.trans hc.env⟩

theorem Collected.writeEnd {c₀ c : Channel ε} {bs : List UInt8}
    (hc : Collected c₀ (.collecting bs) c) :
    Collected c₀ (.ending bs) (hostWrite tbl c (.cmd kcsCtrlCodeWriteEnd)) := by
  have hr := hostWrite_reaction tbl c (.cmd kcsCtrlCodeWriteEnd)
  have hin : InProtocol c (.cmd kcsCtrlCodeWriteEnd) := fun _ _ =>
    hc.tracks.1.imp And.left .inl
  obtain ⟨hq, hp⟩ := hr.of_writeEnd rfl hc.tracks.2.1
  exact ⟨hr.tracks tbl hc.tracks hin, by rw [hp]; exact hc.outIdx, hq.env.trans hc.env⟩

theorem collected_data_run {c₀ c : Channel ε} (as bs : List UInt8)
    (hc : Collected c₀ (.collecting as) c) (hlen : as.length + bs.length ≤ 65535) :
    Collected c₀ (.collecting (as ++ bs)) (run tbl c (bs.map .data)) := by
  induction bs generalizing as c with
  | nil => simpa using hc
  | cons b bs ih =>
    rw [List.length_cons] at hlen
    have h := ih (as ++ [b]) (hc.data tbl (by omega) b)
      (by simp only [List.length_append, List.length_singleton]; omega)
    simpa using h

/-- The write half of a transaction leaves the whole request in the packet, whatever the state it
started from. -/
theorem collected_request (c₀ : Channel ε) (bs : List UInt8) (hlen : bs.length ≤ 65535) :
    Collected c₀ (.ending bs) (run tbl c₀ (writeHead bs true)) := by
  have h := collected_data_run tbl [] bs (collected_writeStart tbl c₀) (by simpa using hlen)
  simpa [run, writeHead] using h.writeEnd tbl

variable {c₀ c : Channel ε}

/-- The last byte of a transaction hands the request to the handler. -/
theorem Collected.executes {bs : List UInt8} (hc : Collected c₀ (.ending bs) c)
    (hpos : 1 ≤ bs.length) (hlen : bs.length ≤ 65534) (b : UInt8) :
    (hostWrite tbl c (.data b)).env = ipmiState tbl c₀.env (bs ++ [b]) ∧
      (hostWrite tbl c (.data b)).calls = c.calls ++ (ipmiRequest (bs ++ [b])).toList ∧
      (hostWrite tbl c (.data b)).pkt.phase = .read := by
  obtain ⟨r, hr, hp, henv, hcalls, -, -⟩ :=
    (hostWrite_reaction tbl c (.data b)).of_execute hc.tracks.1
  have hacc := hc.tracks.2.accept (by omega) b
  obtain ⟨b₀, b₁, rest, hreq⟩ : ∃ b₀ b₁ rest, bs ++ [b] = b₀ :: b₁ :: rest := by
    match bs, hpos with
    | [b₀], _ => exact ⟨b₀, b, [], rfl⟩
    | b₀ :: b₁ :: bs, _ => exact ⟨b₀, b₁, bs ++ [b], rfl⟩
  rw [hreq] at hacc ⊢
  obtain ⟨-, hcall, henv'⟩ := fillResponse_of_holds tbl
    { c.pkt.accept b with phase := .readWait, readReqDone := true } c.env b₀ b₁ rest hacc
  rw [hr] at henv hcalls
  refine ⟨henv.trans ?_, ?_, by rw [hp]; rfl⟩
  · rw [henv', hc.env]
    rfl
  · rw [hcalls, hcall]

/-! ### The read half -/

/-- The channel has the bytes `xs` of the response still to serve after the one in ODR. -/
structure Serving (xs : List UInt8) (c : Channel ε) : Prop where
  phase : c.pkt.phase = .read
  shows : c.regs.Shows .read
  left : c.pkt.dataOutIdx.toNat + xs.length = c.pkt.dataOutLen.toNat
  bytes : load c.pkt.dataOut c.pkt.dataOutIdx.toNat xs.length = xs

theorem Serving.next {x : UInt8} {xs : List UInt8} {c : Channel ε} (hs : Serving (x :: xs) c) :
    Serving xs (hostWrite tbl c (.data kcsCtrlCodeRead)) ∧
      (hostWrite tbl c (.data kcsCtrlCodeRead)).regs.odr = x := by
  obtain ⟨hph, hshow, hleft, hbytes⟩ := hs
  rw [List.length_cons] at hleft hbytes
  rw [load_succ] at hbytes
  have hlen : c.pkt.dataOutLen.toNat < 65536 := c.pkt.dataOutLen.toNat_lt
  have hne : c.pkt.dataOutIdx ≠ c.pkt.dataOutLen := by
    intro h
    rw [h] at hleft
    omega
  have hnext := toNat_succ_of_lt (n := c.pkt.dataOutIdx) (by omega)
  obtain ⟨_, _, hp, hst, ho⟩ := (hostWrite_reaction tbl c _).of_readNext rfl hph hne
  refine ⟨⟨?_, (KcsIoReg.shows_congr hst _).mpr hshow, ?_, ?_⟩, ?_⟩
  · rw [hp]
    exact hph
  · rw [hp]
    change (c.pkt.dataOutIdx + 1).toNat + xs.length = c.pkt.dataOutLen.toNat
    omega
  · rw [hp]
    change load c.pkt.dataOut (c.pkt.dataOutIdx + 1).toNat xs.length = xs
    rw [hnext]
    exact (List.cons.inj hbytes).2
  · rw [ho]
    exact (List.cons.inj hbytes).1

/-- From there the host reads the byte in ODR and the bytes left, and the channel becomes idle. -/
theorem Serving.readResponse {xs : List UInt8} {c : Channel ε} (hs : Serving xs c) (fuel : ℕ)
    (hf : xs.length + 1 < fuel) :
    ∃ c', readResponse tbl fuel c = some (c.regs.odr :: xs, c') ∧ c'.pkt.phase = .idle ∧
      c'.regs.Shows .idle := by
  induction xs generalizing c fuel with
  | nil =>
    obtain ⟨f, rfl⟩ : ∃ f, fuel = f + 2 := ⟨fuel - 2, by simp at hf; omega⟩
    have heq : c.pkt.dataOutIdx = c.pkt.dataOutLen :=
      UInt16.toNat_inj.mp (by simpa using hs.left)
    obtain ⟨_, hp, hidle⟩ := (hostWrite_reaction tbl c _).of_readLast rfl hs.phase heq
    have hnot : ¬ (hostWrite tbl c (.data kcsCtrlCodeRead)).regs.Shows .read := by
      intro h
      exact absurd (KcsIoReg.bits_injective (hidle.symm.trans h)) (by decide)
    refine ⟨hostWrite tbl c (.data kcsCtrlCodeRead), ?_, by rw [hp], hidle⟩
    simp only [Kcs.readResponse, if_pos hs.shows, if_neg hnot, Option.map_some]
  | cons x xs ih =>
    rw [List.length_cons] at hf
    obtain ⟨f, rfl⟩ : ∃ f, fuel = f + 1 := ⟨fuel - 1, by omega⟩
    obtain ⟨hnext, hodr⟩ := hs.next tbl
    obtain ⟨c', hread, hidle⟩ := ih hnext f (by omega)
    refine ⟨c', ?_, hidle⟩
    simp only [Kcs.readResponse, if_pos hs.shows, hread, Option.map_some, hodr]

theorem Collected.serves {c₀ c : Channel ε} {bs : List UInt8} (hc : Collected c₀ (.ending bs) c)
    (hpos : 1 ≤ bs.length) (hlen : bs.length ≤ 65534) (b : UInt8) :
    ∃ x xs, ipmiResponse tbl c₀.env (bs ++ [b]) = x :: xs ∧
      Serving xs (hostWrite tbl c (.data b)) ∧ (hostWrite tbl c (.data b)).regs.odr = x := by
  obtain ⟨r, hr, hp, _, _, hshow, ho⟩ := (hostWrite_reaction tbl c (.data b)).of_execute hc.tracks.1
  have hacc := hc.tracks.2.accept (by omega) b
  have hbytes : r.bytes = ipmiResponse tbl c₀.env (bs ++ [b]) := by
    match hreq : bs ++ [b] with
    | [] => simp at hreq
    | [_] =>
      have h := congrArg List.length hreq
      simp only [List.length_append, List.length_singleton] at h
      omega
    | b₀ :: b₁ :: rest =>
      rw [hreq] at hacc
      rw [hr, ← hc.env]
      exact (fillResponse_of_holds tbl
        { c.pkt.accept b with phase := .readWait, readReqDone := true } c.env b₀ b₁ rest hacc).1
  have hsize := fillResponse_length tbl
    { c.pkt.accept b with phase := .readWait, readReqDone := true } c.env
  rw [← hr] at hsize
  obtain ⟨x, xs, hx⟩ : ∃ x xs, r.bytes = x :: xs := by
    cases hb : r.bytes with
    | nil => rw [hb] at hsize; simp at hsize
    | cons x xs => exact ⟨x, xs, rfl⟩
  have hlen' : (UInt16.ofNat r.bytes.length).toNat = xs.length + 1 := by
    have h66 := hsize.2
    simp only [maxIpmiResDataSize, hx, List.length_cons] at h66
    rw [hx, List.length_cons, UInt16.toNat_ofNat_of_lt' (by change _ < 65536; omega)]
  have hidx : (hostWrite tbl c (.data b)).pkt.dataOutIdx = 1 := by
    rw [hp]
    change c.pkt.dataOutIdx + 1 = 1
    rw [hc.outIdx]
    rfl
  have hout : (hostWrite tbl c (.data b)).pkt.dataOut = store c.pkt.dataOut 0 (x :: xs) := by
    rw [hp, ← hx]
    rfl
  refine ⟨x, xs, hbytes.symm.trans hx, ⟨by rw [hp]; rfl, hshow, ?_, ?_⟩, ?_⟩
  · rw [hidx, hp]
    change 1 + xs.length = (UInt16.ofNat r.bytes.length).toNat
    omega
  · rw [hidx, hout]
    exact load_store _ 1 xs
  · rw [ho, hc.outIdx, hout]
    exact store_of_lt _ 1 xs 0 Nat.one_pos

/-! ### A transaction -/

theorem transaction_answeredIn (c : Channel ε) (bs : List UInt8) (b : UInt8)
    (hpos : 1 ≤ bs.length) (hlen : bs.length ≤ 65534) {fuel : ℕ}
    (hfuel : (ipmiResponse tbl c.env (bs ++ [b])).length < fuel) :
    AnsweredIn tbl fuel c bs b := by
  have hreq := collected_request tbl c bs (by omega)
  have hhead := unhandled_writeHead tbl c bs true
  obtain ⟨x, xs, hresp, hserving, hodr⟩ := hreq.serves tbl hpos hlen b
  obtain ⟨henv, hcalls, hph⟩ := hreq.executes tbl hpos hlen b
  rw [hresp, List.length_cons] at hfuel
  obtain ⟨c', hread, hidle⟩ := hserving.readResponse tbl fuel hfuel
  have hrest := unhandled_readResponse tbl (by rw [hph]; simp) hread
  refine ⟨c', ?_, ?_, ?_, hidle⟩
  · rw [writeTransaction_eq, run, Runs.run_concat, hread, hodr, hresp]
  · rw [hrest.env, henv]
  · rw [hrest.calls, hcalls, hhead.calls]

/-- A whole transaction reads back the response to its request, whatever state it finds, and the
command handler is called for a request to LUN 0 only. -/
theorem transaction_answers (c : Channel ε) (bs : List UInt8) (b : UInt8) (hpos : 1 ≤ bs.length)
    (hlen : bs.length ≤ 65534) : AnswersAsServer tbl c bs b :=
  fun _ hfuel => transaction_answeredIn tbl c bs b hpos hlen hfuel

theorem transaction_answers_get_device_id :
    AnswersAsServer (cmdInfo EnvLib.plain) (kcsInit ⟨0, 0, 0⟩ (none, none)) [0x18] 0x01 :=
  transaction_answers (cmdInfo EnvLib.plain) (kcsInit ⟨0, 0, 0⟩ (none, none)) [0x18] 0x01
    (by decide) (by decide)

/-- The response as `ipmi_cmd_handler` builds it, without the look at the LUN before. -/
def commandResponse (env : ε) : List UInt8 → List UInt8
  | b₀ :: b₁ :: rest =>
    getRespNetfnLun (b₀ &&& 0x03) (b₀ >>> 2) :: b₁ ::
      (ipmiCmdHandler tbl ⟨b₀ >>> 2, b₁, rest⟩ env).1.bytes
  | _ => []

/-- Get Device ID for LUN 1: the command handler is not asked. -/
theorem not_answers_commandResponse :
    ¬ ∀ (c : Channel (Option (List Char) × Option (List Char))) (bs : List UInt8) (b : UInt8),
      Reachable (cmdInfo EnvLib.plain) c → 1 ≤ bs.length → bs.length ≤ 65534 →
        Answers (cmdInfo EnvLib.plain) c bs b
          (commandResponse (cmdInfo EnvLib.plain) c.env (bs ++ [b])) := by
  intro h
  obtain ⟨c', hread, _⟩ := h (kcsInit ⟨0, 0, 0⟩ (none, none)) [0x19] 0x01
    ⟨⟨0, 0, 0⟩, (none, none), [], rfl⟩ (by decide) (by decide) 20 (by decide)
  have hfst := congrArg (Option.map Prod.fst) hread
  simp only [Option.map_some] at hfst
  exact absurd hfst (by decide)

end MetaCommon.Kcs
