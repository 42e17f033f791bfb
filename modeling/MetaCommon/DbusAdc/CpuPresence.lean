import Mathlib.Data.List.DropRight
import Mathlib.Data.List.Infix
import MetaCommon.DbusAdc.Daemon
import MetaCommon.Tpmi.Stoi

/-!
# The keys of the CPU presence table

The scan at the start and the handler of the presence signals each take the number of a CPU from its
path. The scan reads all digits of the name and adds one; the handler reads the last character of
the path.
-/

namespace MetaCommon.DbusAdc

open Runs Tpmi

/-! ### The two parsers -/

/-- `s.substr(s.find_last_of(chars) + 1)`, which is all of `s` if none of them occurs. -/
def afterLastOf (chars s : List Char) : List Char := s.rtakeWhile fun c => decide (c ∉ chars)

/-- The key under which `getPresentCpus` records a CPU, given the function `filename` of object
paths. There is none where the path is passed over, the number is not read, or the sum leaves the
range of `int`. -/
def scanKey (filename : List Char → List Char) (path : List Char) : Option ℕ :=
  let obj := filename path
  if "cpu".toList.isPrefixOf obj then
    match stoi (afterLastOf "cpu".toList obj) with
    | .ok (cpuIndex, _) =>
      if cpuIndex = 2147483647 then none else some ((cpuIndex + 1) % 18446744073709551616).toNat
    | .error _ => none
  else none

/-- The key under which `cpuPresenceHandler` records a CPU. -/
def signalKey (path : List Char) : Option ℕ :=
  let path := path.map Char.toLower
  if path.tails.any ("cpu".toList.isPrefixOf ·) then
    match stoi (path.drop (path.length - 1)) with
    | .ok (index, _) => some (index % 18446744073709551616).toNat
    | .error _ => none
  else none

/-- What `getPresentCpus` learns of an object in the inventory: whether it has an owner, and the
value of its property, if the call succeeds. -/
structure InventoryItem where
  path : List Char
  owned : Bool
  present : Option Bool
deriving DecidableEq

def getPresentCpu (filename : List Char → List Char) (cpuPresence : ℕ → Option Bool)
    (item : InventoryItem) : ℕ → Option Bool :=
  if item.owned ∧ item.present = some true then
    match scanKey filename item.path with
    | some key => Function.update cpuPresence key (some true)
    | none => cpuPresence
  else cpuPresence

/-- The table that the daemon begins with. -/
def getPresentCpus (filename : List Char → List Char) (cpuSubTree : List InventoryItem) :
    ℕ → Option Bool :=
  run (getPresentCpu filename) (fun _ => none) cpuSubTree

/-- A presence signal, with the value of the property if the message has it. -/
structure Message where
  path : List Char
  present : Option Bool
deriving DecidableEq

def receive (s : Daemon) (m : Message) : Daemon :=
  s.cpuPresenceHandler (signalKey m.path) m.present

/-! ### The path of a CPU -/

def cpuPath (dir digits : List Char) : List Char := dir ++ '/' :: ("cpu".toList ++ digits)

/-- What is documented of `object_path::filename`: a last element without encoded characters is
given as it is. -/
def KeepsPlainNames (filename : List Char → List Char) : Prop :=
  ∀ dir name, name ≠ [] → (∀ c ∈ name, c.isAlphanum = true) → filename (dir ++ '/' :: name) = name

variable {filename : List Char → List Char} {dir digits : List Char}

theorem notMem_cpu_of_isDigit {c : Char} (hc : c.isDigit = true) : c ∉ "cpu".toList := by
  intro hmem
  have hcases : ∀ c ∈ "cpu".toList, c.isDigit = false := forall_mem_cpu.mpr ⟨rfl, rfl, rfl⟩
  rw [hcases c hmem] at hc
  cases hc

theorem afterLastOf_cpu (hdigit : ∀ c ∈ digits, c.isDigit = true) :
    afterLastOf "cpu".toList ("cpu".toList ++ digits) = digits := by
  unfold afterLastOf List.rtakeWhile
  have hall : ∀ c ∈ digits.reverse, decide (c ∉ "cpu".toList) = true := fun c hc =>
    decide_eq_true (notMem_cpu_of_isDigit (hdigit c (List.mem_reverse.mp hc)))
  rw [List.reverse_append, List.takeWhile_append_of_pos hall]
  simp

theorem toLower_of_isDigit {c : Char} (hc : c.isDigit = true) : c.toLower = c := by
  have hval : c.val ≤ 57 := by
    simp only [Char.isDigit, Bool.and_eq_true, decide_eq_true_eq] at hc
    exact hc.2
  unfold Char.toLower
  rw [dif_neg]
  rintro ⟨hge, -⟩
  exact absurd (UInt32.le_trans hge hval) (by decide)

/-- The scan records a CPU under its number plus one. -/
theorem scanKey_cpuPath (hfilename : KeepsPlainNames filename) (hne : digits ≠ [])
    (hdigit : ∀ c ∈ digits, c.isDigit = true) :
    scanKey filename (cpuPath dir digits) =
      if 2147483647 ≤ Nat.ofDigitChars 10 digits 0 then none
      else some (Nat.ofDigitChars 10 digits 0 + 1) := by
  have halnum : ∀ c ∈ "cpu".toList ++ digits, c.isAlphanum = true := by
    intro c hc
    rcases List.mem_append.mp hc with hc | hc
    · exact isAlphanum_of_mem_cpu c hc
    · simp [Char.isAlphanum, hdigit c hc]
  have hobj : filename (cpuPath dir digits) = "cpu".toList ++ digits :=
    hfilename dir _ (by simp) halnum
  have hpos : "cpu".toList.isPrefixOf ("cpu".toList ++ digits) = true := by simp
  unfold scanKey
  dsimp only
  rw [hobj, if_pos hpos, afterLastOf_cpu hdigit, stoi_digits hne hdigit]
  obtain ⟨n, hn⟩ : ∃ n, Nat.ofDigitChars 10 digits 0 = n := ⟨_, rfl⟩
  rw [hn]
  by_cases hlarge : 2147483647 < n
  · rw [if_pos hlarge, if_pos (Nat.le_of_lt hlarge)]
  · rw [if_neg hlarge]
    dsimp only
    by_cases hmax : n = 2147483647
    · rw [if_pos (by omega), if_pos (by omega)]
    · rw [if_neg (by omega), if_neg (by omega), Int.emod_eq_of_lt (by omega) (by omega)]
      exact congrArg some (by omega)

theorem map_toLower_cpuPath (hdigit : ∀ c ∈ digits, c.isDigit = true) :
    (cpuPath dir digits).map Char.toLower = cpuPath (dir.map Char.toLower) digits := by
  have hsame : digits.map Char.toLower = digits :=
    (List.map_congr_left fun c hc => toLower_of_isDigit (hdigit c hc)).trans (List.map_id digits)
  unfold cpuPath
  rw [List.map_append, List.map_cons, List.map_append, hsame]
  rfl

/-- The handler records a CPU under the last digit of its number. -/
theorem signalKey_cpuPath (hne : digits ≠ []) (hdigit : ∀ c ∈ digits, c.isDigit = true) :
    signalKey (cpuPath dir digits) = some (Nat.ofDigitChars 10 digits 0 % 10) := by
  obtain ⟨ds, d, rfl⟩ : ∃ ds d, digits = ds ++ [d] :=
    ⟨_, _, (List.dropLast_concat_getLast hne).symm⟩
  have hd : d.isDigit = true := hdigit d (by simp)
  have hval : d.toNat - '0'.toNat < 10 := by
    simp only [Char.isDigit, Bool.and_eq_true, decide_eq_true_eq] at hd
    have hle : d.toNat ≤ 57 := hd.2
    have hzero : '0'.toNat = 48 := rfl
    omega
  have hone : Nat.ofDigitChars 10 [d] 0 = d.toNat - '0'.toNat := by
    rw [Nat.ofDigitChars_cons, Nat.ofDigitChars_nil, Nat.mul_zero, Nat.zero_add]
  have hread : stoi [d] = .ok ((d.toNat - '0'.toNat : ℕ), 1) := by
    rw [stoi_digits (by simp) (by simpa using hd), hone, if_neg (by omega)]
    rfl
  have hmod : Nat.ofDigitChars 10 (ds ++ [d]) 0 % 10 = d.toNat - '0'.toNat := by
    rw [Nat.ofDigitChars_append, Nat.ofDigitChars_cons, Nat.ofDigitChars_nil, Nat.mul_add_mod,
      Nat.mod_eq_of_lt hval]
  have hcpu : (cpuPath (dir.map Char.toLower) (ds ++ [d])).tails.any
      ("cpu".toList.isPrefixOf ·) = true := by
    refine List.any_eq_true.mpr ⟨"cpu".toList ++ (ds ++ [d]), ?_, by simp⟩
    rw [List.mem_tails]
    exact ⟨dir.map Char.toLower ++ ['/'], by simp [cpuPath]⟩
  have hlast : (cpuPath (dir.map Char.toLower) (ds ++ [d])).drop
      ((cpuPath (dir.map Char.toLower) (ds ++ [d])).length - 1) = [d] := by
    have hsplit : cpuPath (dir.map Char.toLower) (ds ++ [d]) =
        cpuPath (dir.map Char.toLower) ds ++ [d] := by simp [cpuPath]
    rw [hsplit, List.length_append, List.length_singleton, Nat.add_sub_cancel, List.drop_left]
  unfold signalKey
  dsimp only
  rw [map_toLower_cpuPath hdigit, if_pos hcpu, hlast, hread, hmod]
  dsimp only
  rw [Int.emod_eq_of_lt (by omega) (by omega), Int.toNat_natCast]

/-! ### The table over a run -/

/-- The values for a key in the messages, in their order. -/
def valuesFor (key : ℕ) (ms : List Message) : List Bool :=
  ms.filterMap fun m => if signalKey m.path = some key then m.present else none

theorem receive_cpuPresence (s : Daemon) (m : Message) (key : ℕ) :
    (receive s m).cpuPresence key = ((valuesFor key [m]).getLast?).or (s.cpuPresence key) := by
  obtain ⟨path, present⟩ := m
  unfold receive Daemon.cpuPresenceHandler valuesFor
  cases hkey : signalKey path with
  | none => simp [hkey]
  | some index =>
    cases present with
    | none => simp
    | some present =>
      by_cases h : index = key
      · simp [hkey, h]
      · simp [hkey, h, Function.update_of_ne (Ne.symm h)]

/-- After any sequence of signals the table has, under each key, the last value that came for any
CPU whose number ends with that digit, and what the scan left where none came. -/
theorem run_receive_cpuPresence (s : Daemon) (ms : List Message) (key : ℕ) :
    (run receive s ms).cpuPresence key = ((valuesFor key ms).getLast?).or (s.cpuPresence key) := by
  induction ms generalizing s with
  | nil => rfl
  | cons m ms ih =>
    rw [run_cons, ih, receive_cpuPresence, ← Option.or_assoc]
    have happ : valuesFor key (m :: ms) = valuesFor key [m] ++ valuesFor key ms :=
      List.filterMap_append (l := [m])
    rw [happ, List.getLast?_append]

/-- The scan and the handler record a CPU under one key. -/
def SameKey (filename : List Char → List Char) (path : List Char) : Prop :=
  ∃ key, scanKey filename path = some key ∧ signalKey path = some key

/-- The key of the scan is greater than that of the handler. -/
theorem signalKey_ne_of_scanKey (hfilename : KeepsPlainNames filename) (hne : digits ≠ [])
    (hdigit : ∀ c ∈ digits, c.isDigit = true) {key : ℕ}
    (hscan : scanKey filename (cpuPath dir digits) = some key) :
    signalKey (cpuPath dir digits) ≠ some key := by
  rw [scanKey_cpuPath hfilename hne hdigit] at hscan
  rw [signalKey_cpuPath hne hdigit, Ne, Option.some_inj]
  split_ifs at hscan
  rw [Option.some_inj] at hscan
  have := Nat.mod_le (Nat.ofDigitChars 10 digits 0) 10
  omega

/-- What the scan has recorded of a CPU is not changed by any signal for that CPU. -/
theorem scan_entry_stays (hfilename : KeepsPlainNames filename) (hne : digits ≠ [])
    (hdigit : ∀ c ∈ digits, c.isDigit = true) (s : Daemon) {key : ℕ}
    (hscan : scanKey filename (cpuPath dir digits) = some key) (ms : List Message)
    (hms : ∀ m ∈ ms, m.path = cpuPath dir digits) :
    (run receive s ms).cpuPresence key = s.cpuPresence key := by
  have hsignal := signalKey_ne_of_scanKey hfilename hne hdigit hscan
  have hnone : valuesFor key ms = [] := by
    refine List.filterMap_eq_nil_iff.mpr fun m hm => ?_
    rw [hms m hm, if_neg hsignal]
  rw [run_receive_cpuPresence, hnone]
  rfl

/-- For no CPU do the scan and the handler agree on the key: whatever the scan finds, no sequence of
signals for the CPU changes what the table has under the key of the scan. -/
theorem cpuPath_not_sameKey (hfilename : KeepsPlainNames filename) (dir : List Char) (d : Char)
    (ds : List Char) (hdigit : ∀ c ∈ d :: ds, c.isDigit = true) :
    ¬ SameKey filename (cpuPath dir (d :: ds)) ∧
      ∀ (cpuSubTree : List InventoryItem) (key : ℕ) (ms : List Message),
        scanKey filename (cpuPath dir (d :: ds)) = some key →
        (∀ m ∈ ms, m.path = cpuPath dir (d :: ds)) →
          (run receive (.init (getPresentCpus filename cpuSubTree)) ms).cpuPresence key =
            getPresentCpus filename cpuSubTree key := by
  have hne := List.cons_ne_nil d ds
  constructor
  · rintro ⟨key, hscan, hsignal⟩
    exact signalKey_ne_of_scanKey hfilename hne hdigit hscan hsignal
  · intro cpuSubTree key ms hscan hms
    exact scan_entry_stays hfilename hne hdigit _ hscan ms hms

/-- The text after the last slash. -/
def lastElement (path : List Char) : List Char := path.rtakeWhile (· ≠ '/')

theorem lastElement_keepsPlainNames : KeepsPlainNames lastElement := by
  intro dir name _ hname
  have hall : ∀ c ∈ name.reverse, decide (c ≠ '/') = true := by
    intro c hc
    refine decide_eq_true ?_
    rintro rfl
    exact absurd (hname '/' (List.mem_reverse.mp hc)) (by decide)
  unfold lastElement List.rtakeWhile
  rw [List.reverse_append, List.reverse_cons, List.append_assoc,
    List.takeWhile_append_of_pos hall]
  simp

/-- The scan finds cpu12, and a signal says that it has gone. -/
theorem cpuPath_not_sameKey_cpu12 :
    ¬ SameKey lastElement (cpuPath "/motherboard".toList ['1', '2']) ∧
      (run receive (.init (getPresentCpus lastElement
          [⟨cpuPath "/motherboard".toList ['1', '2'], true, some true⟩]))
        [⟨cpuPath "/motherboard".toList ['1', '2'], some false⟩]).cpuPresence 13 = some true := by
  obtain ⟨hkey, hstays⟩ := cpuPath_not_sameKey lastElement_keepsPlainNames "/motherboard".toList
    '1' ['2'] (List.all_eq_true.mp rfl)
  refine ⟨hkey, (hstays _ 13 _ (by decide +kernel) ?_).trans (by decide +kernel)⟩
  exact List.forall_mem_singleton.mpr rfl

/-- The scan records cpu0 under 1, the handler under 0, and cpu12 under the key of cpu2. -/
theorem cpu0_cpu12_keys :
    scanKey lastElement "/motherboard/cpu0".toList = some 1 ∧
      signalKey "/motherboard/cpu0".toList = some 0 ∧
      signalKey "/motherboard/cpu12".toList = signalKey "/motherboard/cpu2".toList := by
  decide +kernel

end MetaCommon.DbusAdc
