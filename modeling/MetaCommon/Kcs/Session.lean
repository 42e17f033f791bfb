import MetaCommon.Kcs.Response

/-!
# Sessions of the host

A host makes transactions, gives some of them up before their last byte, and aborts. What it reads
in all of that is what an IPMI server answers that knows nothing of bytes and phases, whatever state
the session found the channel in.
-/

namespace MetaCommon.Kcs

variable {ε : Type*} (tbl : List (IpmiCmdTable ε))

/-- `dummy` are the bytes that the host writes to get the status and to end the abort. -/
inductive HostAction
  | transaction (bs : List UInt8) (b : UInt8)
  | giveUp (bs : List UInt8) (ended : Bool) (dummy dummy' : UInt8)

/-! ### The server -/

def HostAction.serve (env : ε) : HostAction → List UInt8 × ε
  | .transaction bs b => (ipmiResponse tbl env (bs ++ [b]), ipmiState tbl env (bs ++ [b]))
  | .giveUp _ _ _ _ => ([KcsError.abortByCmd.code], env)

def serveAll (env : ε) : List HostAction → List (List UInt8) × ε
  | [] => ([], env)
  | action :: actions =>
    let (resp, env) := action.serve tbl env
    let (resps, env) := serveAll env actions
    (resp :: resps, env)

/-- The requests that the handler gets. -/
def HostAction.requests : HostAction → List IpmiCmdData
  | .transaction bs b => (ipmiRequest (bs ++ [b])).toList
  | .giveUp _ _ _ _ => []

/-! ### The channel -/

/-- The host performs an action and reads the answer; a response in at most `fuel` rounds. -/
def HostAction.perform (fuel : ℕ) (c : Channel ε) : HostAction → Option (List UInt8 × Channel ε)
  | .transaction bs b => readResponse tbl fuel (run tbl c (writeTransaction bs b))
  | .giveUp bs ended dummy dummy' =>
    let c := run tbl c (writeHead bs ended ++ [.cmd kcsCtrlCodeGetStatusAbort, .data dummy])
    if c.regs.Shows .read then some ([c.regs.odr], hostWrite tbl c (.data dummy')) else none

def session (fuel : ℕ) (c : Channel ε) : List HostAction → Option (List (List UInt8) × Channel ε)
  | [] => some ([], c)
  | action :: actions => do
    let (resp, c) ← action.perform tbl fuel c
    let (resps, c) ← session fuel c actions
    return (resp :: resps, c)

/-- A transaction has a network function and a command, and room in the buffer for both and the
rest. -/
def HostAction.Legal : HostAction → Prop
  | .transaction bs _ => 1 ≤ bs.length ∧ bs.length ≤ 65534
  | .giveUp _ _ _ _ => True

/-- From `c` the host reads the server's answer, and leaves the channel idle and the handler in the
server's state. -/
def HostAction.ServedFrom (fuel : ℕ) (c : Channel ε) (action : HostAction) : Prop :=
  ∃ c', action.perform tbl fuel c = some ((action.serve tbl c.env).1, c') ∧
    c'.env = (action.serve tbl c.env).2 ∧ c'.calls = c.calls ++ action.requests ∧
    c'.pkt.phase = .idle ∧ c'.regs.Shows .idle

/-! ### A transaction -/

theorem ipmiResponse_length (env : ε) (request : List UInt8) :
    (ipmiResponse tbl env request).length ≤ maxIpmiResDataSize + 2 := by
  match request with
  | [] | [_] => exact Nat.zero_le _
  | b₀ :: b₁ :: rest =>
    by_cases hl : b₀ &&& 0x03 = lunBmc
    · have hfits := (ipmiCmdHandler tbl ⟨b₀ >>> 2, b₁, rest⟩ env).1.fits
      rw [ipmiResponse, if_pos hl, handlerResponse, List.length_cons, List.length_cons]
      omega
    · rw [ipmiResponse, if_neg hl, lunResponse]
      exact Nat.le_add_left 3 63

theorem transaction_served (c : Channel ε) (bs : List UInt8) (b : UInt8) (hpos : 1 ≤ bs.length)
    (hlen : bs.length ≤ 65534) {fuel : ℕ} (hfuel : maxIpmiResDataSize + 2 < fuel) :
    (HostAction.transaction bs b).ServedFrom tbl fuel c :=
  transaction_answeredIn tbl c bs b hpos hlen
    (Nat.lt_of_le_of_lt (ipmiResponse_length tbl c.env (bs ++ [b])) hfuel)

/-! ### Giving up -/

section GiveUp

variable {tbl} {c c' : Channel ε} {x : UInt8}

theorem Reaction.of_abortCmd (hr : Reaction tbl c (.cmd x) c')
    (hx : x = kcsCtrlCodeGetStatusAbort) :
    Quiet c c' ∧ c'.pkt = { c.pkt with phase := .abort1, error := .abortByCmd } := by
  cases hr with
  | abortCmd hq hp _ => exact ⟨hq, hp⟩
  | writeStart | writeEnd => exact absurd hx (by decide)
  | refuse hr hq hp =>
    cases hr with
    | badCmd _ _ h₃ => exact absurd hx h₃
    | writeEnd => exact absurd hx (by decide)

theorem Reaction.of_abort1 (hr : Reaction tbl c (.data x) c') (hph : c.pkt.phase = .abort1) :
    Quiet c c' ∧ c'.pkt = { c.pkt with phase := .abort2 } ∧ c'.regs.Shows .read ∧
      c'.regs.odr = c.pkt.error.code := by
  cases hr with
  | abort1 _ hq hp hs ho => exact ⟨hq, hp, hs, ho⟩
  | refuse hr => exact absurd hr.of_data.1 (by simp [hph])
  | accept h => exact absurd h (by simp [hph])
  | execute h | badRead h | readNext h | readLast h | abort2 h =>
    exact absurd (hph.symm.trans h) (by simp)

theorem Reaction.of_abort2 (hr : Reaction tbl c (.data x) c') (hph : c.pkt.phase = .abort2) :
    Quiet c c' ∧ c'.pkt = { c.pkt with phase := .idle } ∧ c'.regs.Shows .idle := by
  cases hr with
  | abort2 _ hq hp hs _ => exact ⟨hq, hp, hs⟩
  | refuse hr => exact absurd hr.of_data.1 (by simp [hph])
  | accept h => exact absurd h (by simp [hph])
  | execute h | badRead h | readNext h | readLast h | abort1 h =>
    exact absurd (hph.symm.trans h) (by simp)

variable (tbl)

/-- An abort works in every state: after the first byte the error is on record, after the second
it is in ODR, after the third the channel is idle. -/
theorem giveUp_served (c : Channel ε) (bs : List UInt8) (ended : Bool) (dummy dummy' : UInt8)
    (fuel : ℕ) : (HostAction.giveUp bs ended dummy dummy').ServedFrom tbl fuel c := by
  have hhead := unhandled_writeHead tbl c bs ended
  obtain ⟨c₁, hc₁⟩ : ∃ c₁, c₁ = run tbl c (writeHead bs ended) := ⟨_, rfl⟩
  rw [← hc₁] at hhead
  obtain ⟨hq₂, hp₂⟩ := (hostWrite_reaction tbl c₁ (.cmd kcsCtrlCodeGetStatusAbort)).of_abortCmd rfl
  obtain ⟨c₂, hc₂⟩ : ∃ c₂, c₂ = hostWrite tbl c₁ (.cmd kcsCtrlCodeGetStatusAbort) := ⟨_, rfl⟩
  rw [← hc₂] at hq₂ hp₂
  obtain ⟨hq₃, hp₃, hread, hodr⟩ :=
    (hostWrite_reaction tbl c₂ (.data dummy)).of_abort1 (by rw [hp₂])
  obtain ⟨c₃, hc₃⟩ : ∃ c₃, c₃ = hostWrite tbl c₂ (.data dummy) := ⟨_, rfl⟩
  rw [← hc₃] at hq₃ hp₃ hread hodr
  obtain ⟨hq₄, hp₄, hidle⟩ :=
    (hostWrite_reaction tbl c₃ (.data dummy')).of_abort2 (by rw [hp₃])
  have hquiet := (((hhead.trans hq₂.unhandled).trans hq₃.unhandled).trans hq₄.unhandled)
  have hrun : run tbl c (writeHead bs ended ++ [.cmd kcsCtrlCodeGetStatusAbort, .data dummy]) =
      c₃ := by
    rw [run, Runs.run_append, Runs.run_cons, Runs.run_cons, Runs.run_nil, hc₃, hc₂, hc₁]
  refine ⟨hostWrite tbl c₃ (.data dummy'), ?_, hquiet.env, ?_, by rw [hp₄], hidle⟩
  · simp only [HostAction.perform, hrun, if_pos hread, hodr, hp₂]
    rfl
  · rw [hquiet.calls]
    exact (List.append_nil _).symm

end GiveUp

/-! ### A session -/

theorem HostAction.Legal.served {action : HostAction} (hlegal : action.Legal) {fuel : ℕ}
    (hfuel : maxIpmiResDataSize + 2 < fuel) (c : Channel ε) : action.ServedFrom tbl fuel c := by
  cases action with
  | transaction bs b => exact transaction_served tbl c bs b hlegal.1 hlegal.2 hfuel
  | giveUp bs ended dummy dummy' => exact giveUp_served tbl c bs ended dummy dummy' fuel

theorem session_served {fuel : ℕ} (hfuel : maxIpmiResDataSize + 2 < fuel)
    (actions : List HostAction) (hlegal : ∀ action ∈ actions, action.Legal) (c : Channel ε) :
    ∃ c', session tbl fuel c actions = some ((serveAll tbl c.env actions).1, c') ∧
      c'.env = (serveAll tbl c.env actions).2 ∧
      c'.calls = c.calls ++ actions.flatMap HostAction.requests ∧
      (actions ≠ [] → c'.pkt.phase = .idle ∧ c'.regs.Shows .idle) := by
  induction actions generalizing c with
  | nil => exact ⟨c, rfl, rfl, (List.append_nil _).symm, fun h => absurd rfl h⟩
  | cons action actions ih =>
    obtain ⟨haction, hrest⟩ := List.forall_mem_cons.mp hlegal
    obtain ⟨c₁, hperform, henv₁, hcalls₁, hidle₁⟩ := haction.served tbl hfuel c
    obtain ⟨c', hsession, henv, hcalls, hidle⟩ := ih hrest c₁
    rw [henv₁] at hsession henv
    refine ⟨c', ?_, henv, ?_, fun _ => ?_⟩
    · simp only [session, hperform, hsession, serveAll, Option.bind_eq_bind, Option.bind_some]
      rfl
    · rw [hcalls, hcalls₁, List.append_assoc, List.flatMap_cons]
    · by_cases hnil : actions = []
      · subst hnil
        obtain ⟨-, rfl⟩ := Prod.mk.inj (Option.some.inj hsession)
        exact hidle₁
      · exact hidle hnil

/-- Get Device ID, twice, with a request between that is given up after WRITE_END. -/
def getDeviceIdTwice : List HostAction :=
  [.transaction [0x18] 0x01, .giveUp [0x18] true 0 0, .transaction [0x18] 0x01]

theorem session_served_get_device_id :
    ∃ c', session (cmdInfo EnvLib.plain) 67 (kcsInit ⟨0, 0, 0⟩ (none, none)) getDeviceIdTwice =
        some ((serveAll (cmdInfo EnvLib.plain) (none, none) getDeviceIdTwice).1, c') ∧
      c'.env = (serveAll (cmdInfo EnvLib.plain) (none, none) getDeviceIdTwice).2 ∧
      c'.calls = [] ++ [⟨0x06, 0x01, []⟩, ⟨0x06, 0x01, []⟩] ∧
      (getDeviceIdTwice ≠ [] → c'.pkt.phase = .idle ∧ c'.regs.Shows .idle) :=
  session_served (cmdInfo EnvLib.plain) (by decide) getDeviceIdTwice
    (by simp [getDeviceIdTwice, HostAction.Legal]) _

end MetaCommon.Kcs
