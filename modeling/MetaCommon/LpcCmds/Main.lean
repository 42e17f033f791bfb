import MetaCommon.Lib.Numerals

/-!
# The arguments of lpc_cmds

`main` looks at the number of its arguments and at the words and numbers in them, and then uses a
device once. Each command reads its numbers in its own way: `atoi` takes what the argument begins
with, and the checked `strtol` takes the empty text.
-/

namespace MetaCommon.LpcCmds

open Numerals

/-- The use of a device, with its operands. -/
inductive Operation
  | sioGetACPIState (changed : ℕ)
  | sioGetPWRGDStatus (changed : ℕ)
  | sioGetONCTLStatus
  | sioSetOnctlGpio (enable value : ℕ)
  | sioGetPWRBTNOverride (clear : ℕ)
  | sioGetPFailStatus
  | sioSetBMCSCIEvent (set : ℕ)
  | sioSetBMCSMIEvent (set : ℕ)
  | sioGetBMCVWValue (bitMask : ℤ)
  | sioSetBMCVWValue (bitMask : ℤ) (set : Bool)
  | kcsIfcTask (kcsIfcIdx : ℤ) (noPrint : ℕ)
  | mailBoxRead (num : ℤ)
  | mailBoxWrite (num : ℤ) (value : BitVec 8)
  | readBiosPOSTCodes (ifIdx : ℤ)
deriving DecidableEq

/-- How the program goes on: it prints its usage and exits with an error, uses a device, returns 0
without doing anything, or dereferences an argument that is absent. -/
inductive Outcome
  | usage
  | operation (op : Operation)
  | nothing
  | absent
deriving DecidableEq

/-- An `int` and a `long` have 32 bits on the processors of the BMC. -/
def atoi (s : String) : ℤ := (strtol 32 10 s.toList).value

section Commands

variable (argv : List String)

def arg (i : ℕ) (next : String → Outcome) : Outcome :=
  match argv[i]? with
  | some s => next s
  | none => .absent

/-- `strtol` with the checks of its result. -/
def checkedArg (i : ℕ) (hi : ℤ) (next : ℤ → Outcome) : Outcome :=
  arg argv i fun s =>
    let c := strtol 32 0 s.toList
    if c.erange || !c.rest.isEmpty || decide (hi < c.value) || decide (c.value < 0) then .usage
    else next c.value

/-- The commands without operands. -/
def sioCommands : List (String × Operation) :=
  [("get_acpi_state", .sioGetACPIState 0),
    ("get_acpi_changed", .sioGetACPIState 1),
    ("get_pwrgd_status", .sioGetPWRGDStatus 0),
    ("get_pwrgd_changed", .sioGetPWRGDStatus 1),
    ("get_onctl_status", .sioGetONCTLStatus),
    ("set_onctl_gpio_disable", .sioSetOnctlGpio 0 0),
    ("set_onctl_gpio_high", .sioSetOnctlGpio 1 1),
    ("set_onctl_gpio_low", .sioSetOnctlGpio 1 0),
    ("get_pwrbtn_override_status", .sioGetPWRBTNOverride 0),
    ("get_pwrbtn_override_status_clear", .sioGetPWRBTNOverride 1),
    ("get_pfail_status", .sioGetPFailStatus),
    ("set_bmc_sci_event", .sioSetBMCSCIEvent 1),
    ("clear_bmc_sci_event", .sioSetBMCSCIEvent 0),
    ("set_bmc_smi_event", .sioSetBMCSMIEvent 1),
    ("clear_bmc_smi_event", .sioSetBMCSMIEvent 0)]

def sio : Outcome :=
  if argv.length < 3 then .usage
  else
    arg argv 2 fun command =>
      match sioCommands.lookup command with
      | some op => .operation op
      | none =>
        if command = "get_bmc_vw_value" then
          if argv.length < 4 then .usage
          else checkedArg argv 3 31 fun gpioIndex => .operation (.sioGetBMCVWValue gpioIndex)
        else if command = "set_bmc_vw_value" then
          if argv.length < 5 then .usage
          else
            checkedArg argv 3 31 fun gpioIndex =>
              checkedArg argv 4 1 fun gpioVal =>
                .operation (.sioSetBMCVWValue gpioIndex (gpioVal ≠ 0))
        else .nothing

def kcs : Outcome :=
  if argv.length < 3 then .usage
  else
    arg argv 2 fun number =>
      let ifc := atoi number
      if ifc < 1 ∨ 4 < ifc then .usage
      else if argv.length = 3 then .operation (.kcsIfcTask ifc 0)
      else if argv.length = 4 then
        arg argv 3 fun word => if word = "quiet" then .operation (.kcsIfcTask ifc 1) else .nothing
      else .nothing

def mailbox : Outcome :=
  if argv.length < 4 then .usage
  else
    arg argv 2 fun command =>
      if command = "read" then
        arg argv 3 fun number => .operation (.mailBoxRead (atoi number))
      else if argv.length < 5 then .usage
      else
        arg argv 3 fun number =>
          arg argv 4 fun value => .operation
            (.mailBoxWrite (atoi number) ((strtoul 32 16 value.toList).value.setWidth 8))

def snoop : Outcome :=
  if argv.length < 3 then .usage
  else
    arg argv 2 fun number =>
      let ifc := atoi number
      if ifc < 0 ∨ 1 < ifc then .usage
      else
        arg argv 3 fun word =>
          if word = "read" then .operation (.readBiosPOSTCodes ifc) else .usage

def main : Outcome :=
  if argv.length < 2 then .usage
  else
    arg argv 1 fun cmd =>
      if cmd = "sio" then sio argv
      else if cmd = "kcs" then kcs argv
      else if cmd = "mailbox" then mailbox argv
      else if cmd = "snoop" then snoop argv
      else .nothing

end Commands

/-! ### What the arguments stand for -/

/-- The argument denotes a number to the base, between the bounds. -/
def ArgIs (argv : List String) (i base : ℕ) (lo hi n : ℤ) : Prop :=
  ∃ s, argv[i]? = some s ∧ denotes base s.toList = some n ∧ lo ≤ n ∧ n ≤ hi

/-- The operands are in the documented ranges, and are the numbers that the arguments denote. -/
def Operation.Denoted (argv : List String) : Operation → Prop
  | .sioGetBMCVWValue bitMask => ArgIs argv 3 0 0 31 bitMask
  | .sioSetBMCVWValue bitMask set => ArgIs argv 3 0 0 31 bitMask ∧ ArgIs argv 4 0 0 1 set.toInt
  | .kcsIfcTask kcsIfcIdx _ => ArgIs argv 2 10 1 4 kcsIfcIdx
  | .mailBoxRead num => ArgIs argv 3 10 0 15 num
  | .mailBoxWrite num value => ArgIs argv 3 10 0 15 num ∧ ArgIs argv 4 16 0 255 value.toNat
  | .readBiosPOSTCodes ifIdx => ArgIs argv 2 10 0 1 ifIdx
  | _ => True

/-- The program prints its usage, or uses a device with the operands that the arguments denote. -/
def Outcome.Right (argv : List String) (o : Outcome) : Prop :=
  o = .usage ∨ ∃ op, o = .operation op ∧ op.Denoted argv

/-- The checks of `strtol` are passed. -/
def Passes (s : String) (hi : ℤ) : Prop := s = "" ∨ Within 0 s.toList 0 hi

/-- A known command. The index and the level of a GPIO are not both accepted where one of them is
empty. -/
def SioUsable (argv : List String) : Prop :=
  ∀ command, argv[2]? = some command →
    (command ∈ sioCommands.map Prod.fst ∨ command = "get_bmc_vw_value" ∨
      command = "set_bmc_vw_value") ∧
    (command = "get_bmc_vw_value" → argv[3]? ≠ some "") ∧
    (command = "set_bmc_vw_value" → ∀ index level, argv[3]? = some index →
      argv[4]? = some level → Passes index 31 → Passes level 1 → index ≠ "" ∧ level ≠ "")

/-- An argument that begins with the number of an interface denotes it, and nothing follows it but
"quiet". -/
def KcsUsable (argv : List String) : Prop :=
  ∀ number, argv[2]? = some number → 1 ≤ leading 10 number.toList → leading 10 number.toList ≤ 4 →
    Within 10 number.toList 1 4 ∧ (argv.length = 3 ∨ argv.length = 4 ∧ argv[3]? = some "quiet")

/-- What is taken for the number of a mailbox denotes one, and what is taken for a value a byte. -/
def MailboxUsable (argv : List String) : Prop :=
  ∀ command number, argv[2]? = some command → argv[3]? = some number →
    (command = "read" → Within 10 number.toList 0 15) ∧
    (command ≠ "read" → ∀ value, argv[4]? = some value →
      Within 10 number.toList 0 15 ∧ Within 16 value.toList 0 255)

/-- After an argument that begins with the number of a channel, or with no number at all, there is
another one. If this is "read", the first one denotes the number. -/
def SnoopUsable (argv : List String) : Prop :=
  ∀ number, argv[2]? = some number → 0 ≤ leading 10 number.toList → leading 10 number.toList ≤ 1 →
    ∃ word, argv[3]? = some word ∧ (word = "read" → Within 10 number.toList 0 1)

def Usable (argv : List String) : Prop :=
  ∀ cmd, argv[1]? = some cmd →
    cmd = "sio" ∧ SioUsable argv ∨ cmd = "kcs" ∧ KcsUsable argv ∨
      cmd = "mailbox" ∧ MailboxUsable argv ∨ cmd = "snoop" ∧ SnoopUsable argv

/-! ### One argument -/

section Argument

variable {argv : List String} {i base : ℕ} {lo hi n : ℤ} {s : String} {next : String → Outcome}

@[simp] theorem right_usage : Outcome.usage.Right argv := .inl rfl

@[simp] theorem right_operation_iff (op : Operation) :
    (Outcome.operation op).Right argv ↔ op.Denoted argv := by
  simp [Outcome.Right]

@[simp] theorem not_right_nothing : ¬ Outcome.nothing.Right argv := by simp [Outcome.Right]

@[simp] theorem not_right_absent : ¬ Outcome.absent.Right argv := by simp [Outcome.Right]

theorem exists_arg (argv : List String) (i : ℕ) (h : i < argv.length) : ∃ s, argv[i]? = some s :=
  ⟨argv[i], List.getElem?_eq_getElem h⟩

theorem arg_of_some (h : argv[i]? = some s) : arg argv i next = next s := by
  rw [arg, h]

theorem argIs_iff (h : argv[i]? = some s) :
    ArgIs argv i base lo hi n ↔ denotes base s.toList = some n ∧ lo ≤ n ∧ n ≤ hi := by
  simp [ArgIs, h]

theorem ArgIs.ne_empty (h : ArgIs argv i base lo hi n) : argv[i]? ≠ some "" := by
  obtain ⟨s, hs, hdenotes, -⟩ := h
  rw [hs]
  rintro ⟨⟩
  simp [denotes, numeral_nil] at hdenotes

/-- The result of `atoi` is what the argument denotes, if the argument denotes a number in the
range. -/
theorem argIs_atoi_iff (h : argv[i]? = some s) (hlo : -(2 ^ 31) ≤ lo) (hhi : hi ≤ 2 ^ 31 - 1) :
    ArgIs argv i 10 lo hi (atoi s) ↔ Within 10 s.toList lo hi := by
  rw [argIs_iff h]
  constructor
  · exact fun hdenotes => ⟨_, hdenotes⟩
  · rintro ⟨n, hdenotes, hn, hn'⟩
    have hatoi : atoi s = n := by
      refine strtol_value_of_denotes hdenotes ?_ ?_ <;> omega
    exact hatoi ▸ ⟨hdenotes, hn, hn'⟩

theorem le_atoi_iff (hlo : -(2 ^ 31) < lo) (hhi : lo ≤ 2 ^ 31 - 1) :
    lo ≤ atoi s ↔ lo ≤ leading 10 s.toList :=
  le_strtol_iff hlo hhi

theorem atoi_le_iff (hlo : -(2 ^ 31) ≤ hi) (hhi : hi < 2 ^ 31 - 1) :
    atoi s ≤ hi ↔ leading 10 s.toList ≤ hi :=
  strtol_le_iff hlo hhi

/-- A checked argument leads to the usage, or to its number, which it denotes if it is not empty. -/
theorem checkedArg_cases (h : argv[i]? = some s) (hi : ℤ) (hhi : 0 ≤ hi) (hmax : hi ≤ 2 ^ 31 - 1)
    (next : ℤ → Outcome) :
    ¬ Passes s hi ∧ checkedArg argv i hi next = .usage ∨
      Passes s hi ∧ ∃ n, checkedArg argv i hi next = next n ∧
        (ArgIs argv i 0 0 hi n ↔ s ≠ "") := by
  set c := strtol 32 0 s.toList with hc
  have hwhole : (c.erange = false ∧ c.rest = [] ∧ 0 ≤ c.value ∧ c.value ≤ hi) ↔
      s.toList = [] ∨ Within 0 s.toList 0 hi :=
    strtol_whole_iff (by omega) (by omega) ⟨le_refl 0, hhi⟩
  have hpasses : Passes s hi ↔ s.toList = [] ∨ Within 0 s.toList 0 hi := by
    rw [Passes, String.toList_eq_nil_iff]
  rw [← hpasses] at hwhole
  have hcheck : (c.erange || !c.rest.isEmpty || decide (hi < c.value) || decide (c.value < 0)) =
      true ↔ ¬ Passes s hi := by
    rw [← hwhole]
    simp only [Bool.or_eq_true, Bool.not_eq_true', List.isEmpty_eq_false_iff, decide_eq_true_eq]
    grind
  rw [checkedArg, arg_of_some h]
  by_cases hp : Passes s hi
  · refine .inr ⟨hp, c.value, if_neg fun hbad => hcheck.mp hbad hp, ?_⟩
    rw [argIs_iff h]
    constructor
    · exact fun hdenotes hempty => ((argIs_iff h).mpr hdenotes).ne_empty (hempty ▸ h)
    · intro hne
      obtain hempty | ⟨n, hdenotes, hn, hn'⟩ := hp
      · exact absurd hempty hne
      · have hvalue : c.value = n := by
          refine strtol_value_of_denotes hdenotes ?_ ?_ <;> omega
        exact hvalue ▸ ⟨hdenotes, hn, hn'⟩
  · exact .inl ⟨hp, if_pos (hcheck.mpr hp)⟩

end Argument

/-! ### The commands -/

section Commands

variable {argv : List String}

theorem getElem?_of_length_le {i : ℕ} (h : argv.length ≤ i) : argv[i]? = none :=
  List.getElem?_eq_none h

theorem denoted_of_lookup {command : String} {op : Operation}
    (h : sioCommands.lookup command = some op) : op.Denoted argv := by
  have hall : ∀ e ∈ sioCommands, e.2.Denoted argv := by simp [sioCommands, Operation.Denoted]
  obtain ⟨l₁, l₂, heq, -⟩ := List.lookup_eq_some_iff.mp h
  exact hall (command, op) (by simp [heq])

theorem mem_names_iff {command : String} :
    command ∈ sioCommands.map Prod.fst ↔ ∃ op, sioCommands.lookup command = some op := by
  rw [← Option.isSome_iff_exists, List.lookup_isSome_iff, List.mem_map]
  simp only [beq_iff_eq]
  exact exists_congr fun e => and_congr_right' eq_comm

/-- "get_bmc_vw_value" -/
theorem getBMCVWValue_right_iff :
    (if argv.length < 4 then Outcome.usage
      else checkedArg argv 3 31 fun gpioIndex =>
        .operation (.sioGetBMCVWValue gpioIndex)).Right argv ↔ argv[3]? ≠ some "" := by
  by_cases hlength : argv.length < 4
  · simp [hlength, getElem?_of_length_le (Nat.le_of_lt_succ hlength)]
  · obtain ⟨index, hindex⟩ := exists_arg argv 3 (by omega)
    obtain ⟨hno, hchecked⟩ | ⟨-, n, hchecked, hn⟩ :=
      checkedArg_cases hindex 31 (by omega) (by omega)
        fun gpioIndex => .operation (.sioGetBMCVWValue gpioIndex)
    · have hne : index ≠ "" := fun hempty => hno (.inl hempty)
      simp [hlength, hchecked, hindex, hne]
    · simp [hlength, hchecked, hindex, Operation.Denoted, hn]

/-- "set_bmc_vw_value" -/
theorem setBMCVWValue_right_iff :
    (if argv.length < 5 then Outcome.usage
      else checkedArg argv 3 31 fun gpioIndex => checkedArg argv 4 1 fun gpioVal =>
        .operation (.sioSetBMCVWValue gpioIndex (gpioVal ≠ 0))).Right argv ↔
      ∀ index level, argv[3]? = some index → argv[4]? = some level → Passes index 31 →
        Passes level 1 → index ≠ "" ∧ level ≠ "" := by
  by_cases hlength : argv.length < 5
  · simp [hlength, getElem?_of_length_le (Nat.le_of_lt_succ hlength)]
  · obtain ⟨index, hindex⟩ := exists_arg argv 3 (by omega)
    obtain ⟨level, hlevel⟩ := exists_arg argv 4 (by omega)
    have husable : (∀ index level, argv[3]? = some index → argv[4]? = some level →
        Passes index 31 → Passes level 1 → index ≠ "" ∧ level ≠ "") ↔
        (Passes index 31 → Passes level 1 → index ≠ "" ∧ level ≠ "") := by
      simp [hindex, hlevel]
    rw [if_neg hlength, husable]
    obtain ⟨hno, hchecked⟩ | ⟨hindexPasses, n, hchecked, hn⟩ :=
      checkedArg_cases hindex 31 (by omega) (by omega) fun gpioIndex =>
        checkedArg argv 4 1 fun gpioVal => .operation (.sioSetBMCVWValue gpioIndex (gpioVal ≠ 0))
    · rw [hchecked]
      simp [hno]
    · rw [hchecked]
      obtain ⟨hno, hchecked⟩ | ⟨hlevelPasses, v, hchecked, hv⟩ :=
        checkedArg_cases hlevel 1 (by omega) (by omega)
          fun gpioVal => .operation (.sioSetBMCVWValue n (gpioVal ≠ 0))
      · rw [hchecked]
        simp [hno]
      · -- the level is 0 or 1, or the argument is empty
        have hbool : ArgIs argv 4 0 0 1 (decide (v ≠ 0)).toInt ↔ level ≠ "" := by
          constructor
          · exact fun his hempty => his.ne_empty (hempty ▸ hlevel)
          · intro hne
            have his := hv.mpr hne
            obtain ⟨_, _, _, hlow, hhigh⟩ := his
            obtain rfl | rfl : v = 0 ∨ v = 1 := by omega
            · exact hv.mpr hne
            · exact hv.mpr hne
        rw [hchecked, right_operation_iff, Operation.Denoted, hn, hbool]
        exact ⟨fun h _ _ => h, fun h => h hindexPasses hlevelPasses⟩

theorem sio_right_iff : (sio argv).Right argv ↔ SioUsable argv := by
  unfold sio
  by_cases hlength : argv.length < 3
  · simp [hlength, SioUsable, getElem?_of_length_le (Nat.le_of_lt_succ hlength)]
  · obtain ⟨command, hcommand⟩ := exists_arg argv 2 (by omega)
    have husable : SioUsable argv ↔
        (command ∈ sioCommands.map Prod.fst ∨ command = "get_bmc_vw_value" ∨
          command = "set_bmc_vw_value") ∧
        (command = "get_bmc_vw_value" → argv[3]? ≠ some "") ∧
        (command = "set_bmc_vw_value" → ∀ index level, argv[3]? = some index →
          argv[4]? = some level → Passes index 31 → Passes level 1 →
            index ≠ "" ∧ level ≠ "") := by
      simp [SioUsable, hcommand]
    rw [if_neg hlength, arg_of_some hcommand, husable]
    cases hlookup : sioCommands.lookup command with
    | some op =>
      have hmem := mem_names_iff.mpr ⟨op, hlookup⟩
      have hget : command ≠ "get_bmc_vw_value" := by
        rintro rfl
        exact absurd hmem (by decide)
      have hset : command ≠ "set_bmc_vw_value" := by
        rintro rfl
        exact absurd hmem (by decide)
      simp [hmem, hget, hset, denoted_of_lookup hlookup]
    | none =>
      have hnot : command ∉ sioCommands.map Prod.fst := by
        rw [mem_names_iff, hlookup]
        simp
      by_cases hget : command = "get_bmc_vw_value"
      · subst hget
        simp [getBMCVWValue_right_iff]
      · by_cases hset : command = "set_bmc_vw_value"
        · subst hset
          rw [if_neg hget, if_pos rfl, setBMCVWValue_right_iff]
          simp
        · simp [hget, hset, hnot]

theorem kcs_right_iff : (kcs argv).Right argv ↔ KcsUsable argv := by
  unfold kcs
  by_cases hlength : argv.length < 3
  · simp [hlength, KcsUsable, getElem?_of_length_le (Nat.le_of_lt_succ hlength)]
  · obtain ⟨number, hnumber⟩ := exists_arg argv 2 (by omega)
    have husable : KcsUsable argv ↔ (1 ≤ atoi number ∧ atoi number ≤ 4 →
        ArgIs argv 2 10 1 4 (atoi number) ∧
          (argv.length = 3 ∨ argv.length = 4 ∧ argv[3]? = some "quiet")) := by
      rw [KcsUsable, le_atoi_iff (by omega) (by omega), atoi_le_iff (by omega) (by omega),
        argIs_atoi_iff hnumber (by omega) (by omega), hnumber]
      simp
    rw [if_neg hlength, arg_of_some hnumber, husable]
    by_cases hrange : 1 ≤ atoi number ∧ atoi number ≤ 4
    · simp only
      rw [if_neg (by omega)]
      by_cases hthree : argv.length = 3
      · simp [hthree, hrange, Operation.Denoted]
      · by_cases hfour : argv.length = 4
        · obtain ⟨word, hword⟩ := exists_arg argv 3 (by omega)
          rw [if_neg hthree, if_pos hfour, arg_of_some hword]
          simp only [hword, hrange, hfour, Option.some.injEq]
          by_cases hquiet : word = "quiet"
          · simp [hquiet, Operation.Denoted]
          · simp [hquiet]
        · simp [hthree, hfour, hrange]
    · simp only
      rw [if_pos (by omega)]
      simp [hrange]

/-- The byte that is written is what the argument denotes, if the argument denotes a byte. -/
theorem argIs_byte_iff {value : String} (h : argv[4]? = some value) :
    ArgIs argv 4 16 0 255 ((strtoul 32 16 value.toList).value.setWidth 8).toNat ↔
      Within 16 value.toList 0 255 := by
  rw [argIs_iff h]
  constructor
  · exact fun hdenotes => ⟨_, hdenotes⟩
  · rintro ⟨n, hdenotes, hn, hn'⟩
    have hbyte := toNat_strtoul_of_denotes (w := 32) (m := 8) hdenotes hn (by omega) (by omega)
    exact hbyte ▸ ⟨hdenotes, hn, hn'⟩

theorem mailbox_right_iff : (mailbox argv).Right argv ↔ MailboxUsable argv := by
  unfold mailbox
  by_cases hlength : argv.length < 4
  · simp [hlength, MailboxUsable, getElem?_of_length_le (Nat.le_of_lt_succ hlength)]
  · obtain ⟨command, hcommand⟩ := exists_arg argv 2 (by omega)
    obtain ⟨number, hnumber⟩ := exists_arg argv 3 (by omega)
    have husable : MailboxUsable argv ↔ (command = "read" → Within 10 number.toList 0 15) ∧
        (command ≠ "read" → ∀ value, argv[4]? = some value →
          Within 10 number.toList 0 15 ∧ Within 16 value.toList 0 255) := by
      simp [MailboxUsable, hcommand, hnumber]
    have hatoi : ArgIs argv 3 10 0 15 (atoi number) ↔ _ :=
      argIs_atoi_iff hnumber (by omega) (by omega)
    rw [if_neg hlength, arg_of_some hcommand, husable]
    by_cases hread : command = "read"
    · rw [if_pos hread, arg_of_some hnumber, right_operation_iff, Operation.Denoted, hatoi]
      simp [hread]
    · rw [if_neg hread]
      by_cases hfive : argv.length < 5
      · simp [hfive, hread, getElem?_of_length_le (Nat.le_of_lt_succ hfive)]
      · obtain ⟨value, hvalue⟩ := exists_arg argv 4 (by omega)
        rw [if_neg hfive, arg_of_some hnumber, arg_of_some hvalue, right_operation_iff,
          Operation.Denoted, hatoi, argIs_byte_iff hvalue, hvalue]
        simp [hread]

theorem snoop_right_iff : (snoop argv).Right argv ↔ SnoopUsable argv := by
  unfold snoop
  by_cases hlength : argv.length < 3
  · simp [hlength, SnoopUsable, getElem?_of_length_le (Nat.le_of_lt_succ hlength)]
  · obtain ⟨number, hnumber⟩ := exists_arg argv 2 (by omega)
    have husable : SnoopUsable argv ↔ (0 ≤ atoi number ∧ atoi number ≤ 1 →
        ∃ word, argv[3]? = some word ∧
          (word = "read" → ArgIs argv 2 10 0 1 (atoi number))) := by
      rw [SnoopUsable, le_atoi_iff (by omega) (by omega), atoi_le_iff (by omega) (by omega),
        argIs_atoi_iff hnumber (by omega) (by omega), hnumber]
      simp
    rw [if_neg hlength, arg_of_some hnumber, husable]
    by_cases hrange : 0 ≤ atoi number ∧ atoi number ≤ 1
    · simp only
      rw [if_neg (by omega)]
      cases hword : argv[3]? with
      | none => simp [arg, hword, hrange]
      | some word =>
        rw [arg_of_some hword]
        by_cases hread : word = "read"
        · simp [hread, hrange, Operation.Denoted]
        · simp [hread]
    · simp only
      rw [if_pos (by omega)]
      simp [hrange]

/-- The program prints its usage or does what the arguments denote, if and only if they can be
used. -/
theorem main_right_iff (argv : List String) : (main argv).Right argv ↔ Usable argv := by
  unfold main
  by_cases hlength : argv.length < 2
  · simp [hlength, Usable, getElem?_of_length_le (Nat.le_of_lt_succ hlength)]
  · obtain ⟨cmd, hcmd⟩ := exists_arg argv 1 (by omega)
    have husable : Usable argv ↔
        cmd = "sio" ∧ SioUsable argv ∨ cmd = "kcs" ∧ KcsUsable argv ∨
          cmd = "mailbox" ∧ MailboxUsable argv ∨ cmd = "snoop" ∧ SnoopUsable argv := by
      simp [Usable, hcmd]
    rw [if_neg hlength, arg_of_some hcmd, husable]
    by_cases hsio : cmd = "sio"
    · simp [hsio, sio_right_iff]
    · by_cases hkcs : cmd = "kcs"
      · simp [hkcs, kcs_right_iff]
      · by_cases hmailbox : cmd = "mailbox"
        · simp [hmailbox, mailbox_right_iff]
        · by_cases hsnoop : cmd = "snoop"
          · simp [hsnoop, snoop_right_iff]
          · simp [hsio, hkcs, hmailbox, hsnoop]

/-- "lpc_cmds snoop 0" -/
theorem not_main_right_snoop : ¬ (main ["lpc_cmds", "snoop", "0"]).Right
    ["lpc_cmds", "snoop", "0"] := by
  have habsent : main ["lpc_cmds", "snoop", "0"] = .absent := by decide +kernel
  rw [habsent]
  exact not_right_absent

end Commands

end MetaCommon.LpcCmds
