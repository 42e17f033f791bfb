import MetaCommon.IoApp.Main

/-!
# Which options io-app obeys

A command line of options and operands asks for one map string or configuration file for each
option, and for the operands to be handed on. The loop stops at the value of the first option, so
two options never load two maps, and `md` and `mw` take the value for their address. What is left
are command lines without options, `io` itself, which takes no operands, and a map string that looks
like another option.
-/

namespace MetaCommon.IoApp

inductive Opt
  | map (mapStr : Text)
  | config (cfgFile : Text)
deriving DecidableEq

namespace Opt

def args : Opt → List Text
  | .map mapStr => ["-m".toList, mapStr]
  | .config cfgFile => ["-c".toList, cfgFile]

def value : Opt → Text
  | .map mapStr => mapStr
  | .config cfgFile => cfgFile

def source : Opt → Source
  | .map mapStr => .map mapStr
  | .config cfgFile => .config cfgFile

end Opt

def Dashed (arg : Text) : Prop := arg[0]? = some '-'

instance : DecidablePred Dashed := fun arg => inferInstanceAs (Decidable (arg[0]? = some '-'))

/-- Options, and then operands, of which the first one is no option. -/
structure CommandLine where
  argv0 : Text
  options : List Opt
  operands : List Text
  first_plain : ∀ operand, operands.head? = some operand → ¬ Dashed operand

/-- How many operands a command can take, and how many it has to get. -/
def Command.maxOperands : Command → ℕ
  | .md => 2
  | .mw => 3
  | .io => 0

def Command.minOperands : Command → ℕ
  | .md => 1
  | .mw => 2
  | .io => 0

namespace CommandLine

variable (c : CommandLine)

def argv : List Text := c.argv0 :: (c.options.flatMap Opt.args ++ c.operands)

def command : Command := commandOf c.argv0

/-- What is to be loaded: the map of the processor if there is no option. -/
def sources : List Source := if c.options = [] then [.probed] else c.options.map Opt.source

/-- The numbers of the arguments that are to be handed on: those of the operands. -/
def operandArgs : List ℕ :=
  List.range' (1 + 2 * c.options.length) (min c.command.maxOperands c.operands.length)

structure Obeyed (env : Env) (mem : Mem) : Prop where
  loads : (main env mem c.argv).loads = c.sources
  passed : (main env mem c.argv).passed = some c.operandArgs

/-- The options with which the loop comes to the right end. -/
def Harmless : Prop :=
  match c.options with
  | [] => True
  | [option] =>
    (c.command = .io ∧ ¬ Dashed option.value) ∨
    (option.value[0]? = some '-' ∧ option.value[1]? = some 'c' ∧ option = .map option.value ∧
      c.operands ≠ [])
  | _ => False

def Loadable (env : Env) : Prop := ∀ source ∈ c.sources, (loaded env source).isSome

end CommandLine

/-! ### The operands -/

theorem runCommand_passed (env : Env) (mem : Mem) (maps : List Mapping) (command : Command)
    (pre operands : List Text) :
    (runCommand env mem maps (pre ++ operands) pre.length command).map Prod.fst =
      if command.minOperands ≤ operands.length then
        some (List.range' pre.length (min command.maxOperands operands.length))
      else none := by
  have hat : ∀ k, (pre ++ operands)[pre.length + k]? = operands[k]? := fun k => by
    rw [List.getElem?_append_right (Nat.le_add_right _ _), Nat.add_sub_cancel_left]
  have h0 := hat 0
  rw [Nat.add_zero] at h0
  cases command with
  | md =>
    rw [runCommand, h0, hat 1]
    rcases operands with _ | ⟨a, _ | ⟨b, rest⟩⟩
    · rfl
    · rfl
    · simp [Command.minOperands, Command.maxOperands, List.range'_succ]
  | mw =>
    rw [runCommand, h0, hat 1, hat 2]
    rcases operands with _ | ⟨a, _ | ⟨b, _ | ⟨d, rest⟩⟩⟩
    · rfl
    · rfl
    · rfl
    · simp [Command.minOperands, Command.maxOperands, List.range'_succ]
  | io => simp [runCommand, Command.minOperands, Command.maxOperands]

/-! ### The loop over the arguments -/

section Parse

variable (i : ℕ) (args : Args)

theorem parseArgs_operand {arg : Text} (h : ¬ Dashed arg) (rest : List Text) :
    parseArgs i args (arg :: rest) = some { args with firstArg := i } := by
  rw [parseArgs.eq_def]
  exact if_neg h

theorem parseArgs_m {arg value : Text} (h : Dashed arg) (hm : arg[1]? = some 'm')
    (rest : List Text) : parseArgs i args (arg :: value :: rest) =
      parseArgs (i + 1) { args with mapStr := some value } (value :: rest) := by
  rw [parseArgs.eq_def]
  dsimp only
  rw [if_pos (show arg[0]? = some '-' from h), hm]
  rfl

theorem parseArgs_c {arg value : Text} (h : Dashed arg) (hc : arg[1]? = some 'c')
    (rest : List Text) : parseArgs i args (arg :: value :: rest) =
      parseArgs (i + 1) { args with cfgFile := some value } (value :: rest) := by
  rw [parseArgs.eq_def]
  dsimp only
  rw [if_pos (show arg[0]? = some '-' from h), hc]
  rfl

/-- What the loop keeps of an option. -/
def Opt.kept : Opt → Args → Args
  | .map mapStr, args => { args with mapStr := some mapStr }
  | .config cfgFile, args => { args with cfgFile := some cfgFile }

/-- The value of an option is still to come when the option has been read. -/
theorem parseArgs_option (option : Opt) (rest : List Text) :
    parseArgs i args (option.args ++ rest) =
      parseArgs (i + 1) (option.kept args) (option.value :: rest) := by
  cases option with
  | map mapStr => exact parseArgs_m i args (by decide) (by decide) rest
  | config cfgFile => exact parseArgs_c i args (by decide) (by decide) rest

theorem Opt.source_kept (option : Opt) :
    { option.kept ⟨1, none, none⟩ with firstArg := i }.source = option.source := by
  cases option <;> rfl

/-- An option without a value, or one that there is not. -/
theorem parseArgs_usage {arg : Text} {rest : List Text} (h : Dashed arg)
    (hno : rest = [] ∨ arg[1]? ≠ some 'm' ∧ arg[1]? ≠ some 'c') :
    parseArgs i args (arg :: rest) = none := by
  rw [parseArgs.eq_def]
  dsimp only
  rw [if_pos (show arg[0]? = some '-' from h)]
  split
  · rename_i hm
    exact absurd hm (hno.resolve_left (List.cons_ne_nil _ _)).1
  · rename_i hc
    exact absurd hc (hno.resolve_left (List.cons_ne_nil _ _)).2
  · rfl

end Parse

namespace CommandLine

variable {c : CommandLine} {env : Env} {mem : Mem}

theorem main_of_none (h : parseArgs 1 ⟨1, none, none⟩ c.argv.tail = none) :
    main env mem c.argv = ⟨[], none, none⟩ := by rw [main, h]

theorem main_loads (env : Env) (mem : Mem) {args : Args}
    (h : parseArgs 1 ⟨1, none, none⟩ c.argv.tail = some args) :
    (main env mem c.argv).loads = [args.source] := by rw [main, h]

theorem main_passed (env : Env) (mem : Mem) {args : Args}
    (h : parseArgs 1 ⟨1, none, none⟩ c.argv.tail = some args) {pre operands : List Text}
    (hargv : c.argv = pre ++ operands)
    (hfirst : args.firstArg = pre.length) :
    (main env mem c.argv).passed =
      if (loaded env args.source).isSome ∧ c.command.minOperands ≤ operands.length then
        some (List.range' pre.length (min c.command.maxOperands operands.length))
      else none := by
  have hcommand : commandOf (c.argv.headD []) = c.command := rfl
  rw [main, h]
  dsimp only
  rw [hcommand, hfirst, hargv]
  cases loaded env args.source with
  | none => simp
  | some maps =>
    rw [Option.bind_some, runCommand_passed]
    simp

theorem loads_length_le_one (c : CommandLine) (env : Env) (mem : Mem) :
    (main env mem c.argv).loads.length ≤ 1 := by
  unfold main
  split
  · exact Nat.zero_le 1
  · exact le_rfl

theorem loadable_iff {source : Source} (hsources : c.sources = [source]) :
    c.Loadable env ↔ (loaded env source).isSome := by
  rw [Loadable, hsources, List.forall_mem_singleton]

/-- The loop has come to the operands and keeps the only source. -/
theorem obeyed_of_parse {args : Args}
    (h : parseArgs 1 ⟨1, none, none⟩ c.argv.tail = some args)
    (hfirst : args.firstArg = 1 + 2 * c.options.length) (hsources : c.sources = [args.source]) :
    c.Obeyed env mem ↔ c.command.minOperands ≤ c.operands.length ∧ c.Loadable env := by
  have hlen : (c.argv0 :: c.options.flatMap Opt.args).length = 1 + 2 * c.options.length := by
    have hargs : ∀ o : Opt, o.args.length = 2 := fun o => by cases o <;> rfl
    simp [List.length_flatMap, hargs, Nat.mul_comm, Nat.add_comm]
  have hargv : c.argv = (c.argv0 :: c.options.flatMap Opt.args) ++ c.operands := rfl
  have hpassed := main_passed env mem h hargv (hfirst.trans hlen.symm)
  rw [loadable_iff hsources]
  constructor
  · intro hob
    rw [hob.passed] at hpassed
    split_ifs at hpassed with hcond
    exact ⟨hcond.2, hcond.1⟩
  · rintro ⟨hmin, hok⟩
    refine ⟨(main_loads env mem h).trans hsources.symm, hpassed.trans ?_⟩
    rw [if_pos ⟨hok, hmin⟩, hlen]
    rfl

theorem not_obeyed_of_none (h : parseArgs 1 ⟨1, none, none⟩ c.argv.tail = none) :
    ¬ c.Obeyed env mem := by
  intro hob
  have hpassed := hob.passed
  rw [main_of_none h] at hpassed
  exact Option.some_ne_none _ hpassed.symm

theorem parseArgs_operands (hop : c.operands ≠ []) (i : ℕ) (args : Args) :
    parseArgs i args c.operands = some { args with firstArg := i } := by
  obtain ⟨operand, rest, hcons⟩ := List.exists_cons_of_ne_nil hop
  rw [hcons]
  exact parseArgs_operand i args (c.first_plain operand (by rw [hcons]; rfl)) rest

section Single

variable {option : Opt} (hopt : c.options = [option])

include hopt

theorem argv_of_single : c.argv = c.argv0 :: (option.args ++ c.operands) := by
  rw [argv, hopt, List.flatMap_singleton]

theorem sources_of_single : c.sources = [option.source] := by
  rw [sources, hopt]
  rfl

theorem parseArgs_of_single : parseArgs 1 ⟨1, none, none⟩ c.argv.tail =
    parseArgs 2 (option.kept ⟨1, none, none⟩) (option.value :: c.operands) := by
  rw [argv_of_single hopt]
  exact parseArgs_option 1 _ option c.operands

/-- A value without a dash ends the loop. -/
theorem obeyed_of_plain_value (hplain : ¬ Dashed option.value) :
    c.Obeyed env mem ↔ c.command = .io ∧ c.Loadable env := by
  have hparse := (parseArgs_of_single hopt).trans (parseArgs_operand 2 _ hplain c.operands)
  have hsource := option.source_kept 2
  obtain ⟨flag, hflag⟩ : ∃ flag, option.args = [flag, option.value] := by
    cases option <;> exact ⟨_, rfl⟩
  have hargv : c.argv = [c.argv0, flag] ++ (option.value :: c.operands) := by
    rw [argv_of_single hopt, hflag]
    rfl
  have hpassed := main_passed env mem hparse hargv rfl
  have hnumbers : c.operandArgs =
      List.range' 3 (min c.command.maxOperands c.operands.length) := by
    rw [operandArgs, hopt]
    rfl
  rw [loadable_iff (sources_of_single hopt), ← hsource]
  constructor
  · intro hob
    rw [hob.passed, hnumbers] at hpassed
    split_ifs at hpassed with hcond
    refine ⟨?_, hcond.1⟩
    -- `md` and `mw` would get argument 2, which is the value
    by_contra hio
    have hmax : 0 < c.command.maxOperands := by
      cases hcommand : c.command with
      | md => decide
      | mw => decide
      | io => exact absurd hcommand hio
    have htwo : 2 ∈ List.range' 2 (min c.command.maxOperands (c.operands.length + 1)) := by
      rw [List.mem_range'_1]
      omega
    have hsame : List.range' 3 (min c.command.maxOperands c.operands.length) =
        List.range' 2 (min c.command.maxOperands (c.operands.length + 1)) :=
      Option.some.inj hpassed
    rw [← hsame, List.mem_range'_1] at htwo
    omega
  · rintro ⟨hio, hok⟩
    refine ⟨?_, hpassed.trans ?_⟩
    · rw [main_loads env mem hparse, sources_of_single hopt, hsource]
    · rw [hnumbers, hio, if_pos ⟨hok, Nat.zero_le _⟩]
      simp [Command.maxOperands]

/-- The source cannot be the first operand, which has no dash. -/
theorem not_obeyed_of_operand (hdash : Dashed option.value) {operand : Text}
    (hplain : ¬ Dashed operand) {args : Args}
    (hparse : parseArgs 1 ⟨1, none, none⟩ c.argv.tail = some args)
    (hsource : args.source = .map operand ∨ args.source = .config operand) :
    ¬ c.Obeyed env mem := by
  intro hob
  have hloads := (main_loads env mem hparse).symm.trans (hob.loads.trans (sources_of_single hopt))
  rw [List.singleton_inj.mp hloads] at hsource
  cases option with
  | map mapStr =>
    obtain rfl : mapStr = operand := by simpa [Opt.source] using hsource
    exact hplain hdash
  | config cfgFile =>
    obtain rfl : cfgFile = operand := by simpa [Opt.source] using hsource
    exact hplain hdash

/-- A value with a dash is read as an option. -/
theorem obeyed_of_dashed_value (hdash : Dashed option.value) :
    c.Obeyed env mem ↔ (option.value[1]? = some 'c' ∧ option = .map option.value ∧
      c.operands ≠ []) ∧ c.command.minOperands ≤ c.operands.length ∧ c.Loadable env := by
  have htail := parseArgs_of_single hopt
  by_cases hop : c.operands = []
  · refine iff_of_false (not_obeyed_of_none ?_) (fun h => h.1.2.2 hop)
    rw [htail, hop, parseArgs_usage 2 _ hdash (Or.inl rfl)]
  obtain ⟨operand, rest, hcons⟩ := List.exists_cons_of_ne_nil hop
  have hplain : ¬ Dashed operand := c.first_plain operand (by rw [hcons]; rfl)
  rw [hcons] at htail
  by_cases hm : option.value[1]? = some 'm'
  · rw [parseArgs_m 2 _ hdash hm, parseArgs_operand 3 _ hplain] at htail
    refine iff_of_false (not_obeyed_of_operand hopt hdash hplain htail (Or.inl rfl)) (fun h => ?_)
    rw [hm] at h
    exact absurd h.1.1 (by decide)
  by_cases hc : option.value[1]? = some 'c'
  · rw [parseArgs_c 2 _ hdash hc, parseArgs_operand 3 _ hplain] at htail
    cases option with
    | map mapStr =>
      rw [obeyed_of_parse htail (by rw [hopt]; rfl) (sources_of_single hopt)]
      exact (and_iff_right ⟨hc, rfl, hop⟩).symm
    | config cfgFile =>
      exact iff_of_false (not_obeyed_of_operand hopt hdash hplain htail (Or.inr rfl))
        (fun h => Opt.noConfusion h.1.2.1)
  · refine iff_of_false (not_obeyed_of_none ?_) (fun h => hc h.1.1)
    rw [htail, parseArgs_usage 2 _ hdash (Or.inr ⟨hm, hc⟩)]

end Single

/-- Exactly when the program loads and hands on what the command line says. -/
theorem obeyed_iff (c : CommandLine) (env : Env) (mem : Mem) :
    c.Obeyed env mem ↔
      c.Harmless ∧ c.command.minOperands ≤ c.operands.length ∧ c.Loadable env := by
  unfold Harmless
  match hopt : c.options with
  | [] =>
    have hparse : parseArgs 1 ⟨1, none, none⟩ c.argv.tail = some ⟨1, none, none⟩ := by
      have htail : c.argv.tail = c.operands := by rw [argv, hopt]; rfl
      rw [htail]
      by_cases hop : c.operands = []
      · rw [hop, parseArgs]
      · exact parseArgs_operands hop 1 ⟨1, none, none⟩
    rw [obeyed_of_parse hparse (by rw [hopt]; rfl) (by rw [sources, hopt]; rfl)]
    simp
  | [option] =>
    by_cases hdash : Dashed option.value
    · have hdash' : option.value[0]? = some '-' := hdash
      rw [obeyed_of_dashed_value hopt hdash]
      simp [hdash, hdash']
    · have hdash' : ¬ option.value[0]? = some '-' := hdash
      rw [obeyed_of_plain_value hopt hdash]
      dsimp only
      constructor
      · rintro ⟨hio, hload⟩
        exact ⟨Or.inl ⟨hio, hdash⟩, by rw [hio]; exact Nat.zero_le _, hload⟩
      · rintro ⟨hio | hc, -, hload⟩
        · exact ⟨hio.1, hload⟩
        · exact absurd hc.1 hdash'
  | option :: option' :: rest =>
    refine iff_of_false (fun hob => ?_) (fun h => h.1)
    have hle := loads_length_le_one c env mem
    rw [hob.loads, sources, hopt] at hle
    exact absurd hle (by simp)

def mdWithMap : CommandLine where
  argv0 := "/usr/bin/md".toList
  options := [.map "1e6e2000:1000".toList]
  operands := ["1e6e2000".toList]
  first_plain := by
    intro operand h
    obtain rfl := Option.some.inj h
    decide

/-- `md` takes the map for its address. -/
theorem not_obeyed_mdWithMap :
    ¬ mdWithMap.Obeyed ⟨[], fun _ => none, true, fun _ _ => true, fun _ => true⟩ fun _ => 0 := by
  have hoption : mdWithMap.options = [.map "1e6e2000:1000".toList] := rfl
  rw [obeyed_of_plain_value hoption (by decide)]
  rintro ⟨hio, -⟩
  exact absurd hio (by decide)

end CommandLine

end MetaCommon.IoApp
