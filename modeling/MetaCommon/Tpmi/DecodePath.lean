import MetaCommon.Tpmi.Records
import MetaCommon.Tpmi.Stoi

/-!
# The object paths of CPUs and features

`decodePath` leaves it to `std::stoi` what a number is. A blank or a sign before the digits passes,
and a number that does not fit an `int` is thrown as an exception that is not caught. The directory
of the CPU object is not looked at.
-/

namespace MetaCommon.Tpmi

/-! ### The names that are expected -/

def AllDigits (x : List Char) : Prop := ∀ c ∈ x, c.isDigit = true

instance (x : List Char) : Decidable (AllDigits x) :=
  decidable_of_iff (x.all Char.isDigit = true) List.all_eq_true

/-- A text of digits, with the value that they have. -/
def number (x : List Char) : Option ℕ :=
  if x ≠ [] ∧ AllDigits x then some (Nat.ofDigitChars 10 x 0) else none

def isCPUName (name : List Char) : Bool := "cpu".toList.isPrefixOf name

/-- The number in the name of a CPU, if it fits an `int`. -/
def cpuNumber (name : List Char) : Option ℕ :=
  if isCPUName name then (number (name.drop 3)).filter (· ≤ 2147483647) else none

/-- "cpuX", or an id in 0..255 below "cpuX". -/
def grammar (path : ObjectPath) : Option PathComponents :=
  if isCPUName path.filename then
    (cpuNumber path.filename).map fun i => ⟨i, invalidPathComponent⟩
  else
    ((number path.filename).filter (· ≤ 255)).bind fun f =>
      (cpuNumber path.parentFilename).map fun i => ⟨i, f⟩

/-! ### What `std::stoi` makes of them -/

def Overflows (x : List Char) : Prop := stoi x = .error .outOfRange

/-- `std::stoi` reads the whole text as a number from 0 to `bound`. -/
def ReadsWhole (x : List Char) (bound : ℤ) : Prop :=
  ∃ value, stoi x = .ok (value, x.length) ∧ 0 ≤ value ∧ value ≤ bound

theorem number_eq_some_iff {x : List Char} {n : ℕ} :
    number x = some n ↔ x ≠ [] ∧ AllDigits x ∧ n = Nat.ofDigitChars 10 x 0 := by
  unfold number
  split_ifs with h
  · simp [h.1, h.2, eq_comm]
  · refine iff_of_false (by simp) ?_
    rintro ⟨hne, hall, -⟩
    exact h ⟨hne, hall⟩

/-- A number that is expected is read with its value. -/
theorem stoi_of_number {x : List Char} {n : ℕ} (hn : number x = some n) :
    stoi x = if 2147483647 < n then .error .outOfRange else .ok (n, x.length) := by
  obtain ⟨hne, hall, rfl⟩ := number_eq_some_iff.mp hn
  exact stoi_digits hne hall

/-- What the code does with a text that should be a number from 0 to `bound`: it throws, takes it or
turns it away. -/
theorem stoi_cases (x : List Char) (bound : ℤ) :
    Overflows x ∨ ReadsWhole x bound ∨
      (stoi x = .error .invalidArgument ∨
        ∃ value pos, stoi x = .ok (value, pos) ∧
          (value < 0 ∨ bound < value ∨ pos ≠ x.length)) := by
  unfold Overflows ReadsWhole
  rcases h : stoi x with (_ | _) | ⟨value, pos⟩
  · exact .inr (.inr (.inl rfl))
  · exact .inl rfl
  · by_cases hbad : value < 0 ∨ bound < value ∨ pos ≠ x.length
    · exact .inr (.inr (.inr ⟨value, pos, rfl, hbad⟩))
    · simp only [not_or, Int.not_lt, not_not] at hbad
      obtain ⟨h0, hb, rfl⟩ := hbad
      exact .inr (.inl ⟨value, rfl, h0, hb⟩)

theorem stoi_le {x : List Char} {value : ℤ} {pos : ℕ} (h : stoi x = .ok (value, pos)) :
    value ≤ 2147483647 := by
  unfold stoi at h
  dsimp only at h
  split_ifs at h with h₁ h₂ h₃ <;> simp only [Except.ok.injEq, Prod.mk.injEq] at h <;> omega

/-- Nothing but a text of digits has a number. -/
theorem number_eq_none_of_not_readsWhole {x : List Char} (bound : ℕ) (hbound : bound ≤ 2147483647)
    (h : ¬ ReadsWhole x bound) : (number x).filter (· ≤ bound) = none := by
  cases hn : number x with
  | none => rfl
  | some n =>
    have hlarge : bound < n := by
      by_contra hle
      have hstoi := stoi_of_number hn
      rw [if_neg (by omega)] at hstoi
      exact h ⟨n, hstoi, by omega, by omega⟩
    simp [hlarge]

theorem number_of_allDigits {x : List Char} {bound : ℕ} {value : ℤ}
    (hstoi : stoi x = .ok (value, x.length)) (hle : value ≤ bound) (hall : AllDigits x) :
    ∃ n : ℕ, value = n ∧ (number x).filter (· ≤ bound) = some n := by
  have hne : x ≠ [] := by
    rintro rfl
    rw [stoi_nil] at hstoi
    cases hstoi
  have hn := number_eq_some_iff.mpr ⟨hne, hall, rfl⟩
  have hread := stoi_of_number hn
  rw [hstoi] at hread
  split_ifs at hread
  obtain rfl : value = Nat.ofDigitChars 10 x 0 := by
    simp only [Except.ok.injEq, Prod.mk.injEq, and_true] at hread
    exact hread
  refine ⟨_, rfl, ?_⟩
  rw [hn]
  have : Nat.ofDigitChars 10 x 0 ≤ bound := by omega
  simp [this]

theorem number_eq_none_of_not_allDigits {x : List Char} (h : ¬ AllDigits x) : number x = none :=
  if_neg fun hx => h hx.2

/-! ### The name of a CPU -/

theorem not_isPrefixOf {name : List Char} (h : isCPUName name = false) :
    ¬ "cpu".toList.isPrefixOf name = true := by
  unfold isCPUName at h
  rw [h]
  exact Bool.false_ne_true

theorem decodeCPUName_of_not_name {name : List Char} (h : isCPUName name = false) (f : ℤ) :
    decodeCPUName f name = .ok none ∧ cpuNumber name = none := by
  exact ⟨if_neg (not_isPrefixOf h), if_neg (not_isPrefixOf h)⟩

theorem decodeCPUName_of_overflows {name : List Char} (hname : isCPUName name = true)
    (h : Overflows (name.drop 3)) (f : ℤ) :
    decodeCPUName f name = .error .outOfRange := by
  have hpos : "cpu".toList.isPrefixOf name = true := hname
  unfold decodeCPUName
  rw [if_pos hpos, h]

/-- The number is read to its end: the name is taken, and its number is the expected one exactly if
it has only digits. -/
theorem decodeCPUName_of_readsWhole {name : List Char} (hname : isCPUName name = true)
    (h : ReadsWhole (name.drop 3) 2147483647) (f : ℤ) :
    (∃ value : ℤ, decodeCPUName f name = .ok (some ⟨value, f⟩) ∧
      (AllDigits (name.drop 3) → ∃ n : ℕ, value = n ∧ cpuNumber name = some n)) ∧
    (¬ AllDigits (name.drop 3) → cpuNumber name = none) := by
  have hpos : "cpu".toList.isPrefixOf name = true := hname
  obtain ⟨value, hstoi, h0, hle⟩ := h
  constructor
  · refine ⟨value, ?_, fun hall => ?_⟩
    · unfold decodeCPUName
      rw [if_pos hpos, hstoi]
      dsimp only
      rw [if_neg]
      simp only [not_or, Int.not_lt, not_not]
      exact ⟨h0, trivial⟩
    · unfold cpuNumber
      rw [if_pos hname]
      exact number_of_allDigits hstoi hle hall
  · intro hall
    unfold cpuNumber
    rw [if_pos hname, number_eq_none_of_not_allDigits hall]
    rfl

theorem decodeCPUName_of_rejected {name : List Char}
    (hover : ¬ Overflows (name.drop 3)) (h : ¬ ReadsWhole (name.drop 3) 2147483647) (f : ℤ) :
    decodeCPUName f name = .ok none ∧ cpuNumber name = none := by
  cases hname : isCPUName name with
  | false => exact decodeCPUName_of_not_name hname f
  | true =>
    have hpos : "cpu".toList.isPrefixOf name = true := hname
    constructor
    · unfold decodeCPUName
      rw [if_pos hpos]
      rcases (stoi_cases (name.drop 3) 2147483647).resolve_left hover |>.resolve_left h with
        hstoi | ⟨value, pos, hstoi, hbad⟩
      · rw [hstoi]
      · rw [hstoi]
        dsimp only
        rw [if_pos]
        have := stoi_le hstoi
        omega
    · unfold cpuNumber
      rw [if_pos hname]
      exact number_eq_none_of_not_readsWhole 2147483647 (by decide) h

/-- The number in the name of a CPU fits an `int`, and is of digits only if it is read to its end. -/
def CPUNameFits (name : List Char) : Prop :=
  isCPUName name = true → ¬ Overflows (name.drop 3) ∧
    (ReadsWhole (name.drop 3) 2147483647 → AllDigits (name.drop 3))

theorem decodeCPUName_eq_iff (name : List Char) (f : ℤ) :
    decodeCPUName f name = .ok ((cpuNumber name).map fun i => ⟨i, f⟩) ↔ CPUNameFits name := by
  unfold CPUNameFits
  cases hname : isCPUName name with
  | false =>
    obtain ⟨hdecode, hnumber⟩ := decodeCPUName_of_not_name hname f
    simp [hdecode, hnumber]
  | true =>
    by_cases hover : Overflows (name.drop 3)
    · simp [decodeCPUName_of_overflows hname hover f, hover]
    · by_cases hwhole : ReadsWhole (name.drop 3) 2147483647
      · obtain ⟨⟨value, hdecode, hdigits⟩, hother⟩ := decodeCPUName_of_readsWhole hname hwhole f
        by_cases hall : AllDigits (name.drop 3)
        · obtain ⟨n, hvalue, hn⟩ := hdigits hall
          simp [hdecode, hn, hvalue, hover, hall]
        · simp [hdecode, hother hall, hwhole, hall]
      · obtain ⟨hdecode, hnumber⟩ := decodeCPUName_of_rejected hover hwhole f
        simp [hdecode, hnumber, hover, hwhole]

theorem decodeCPUName_eq_none_iff (name : List Char) (f : ℤ) :
    decodeCPUName f name = .ok none ↔
      (isCPUName name = true → ¬ Overflows (name.drop 3) ∧
        ¬ ReadsWhole (name.drop 3) 2147483647) := by
  cases hname : isCPUName name with
  | false => simp [(decodeCPUName_of_not_name hname f).1]
  | true =>
    by_cases hover : Overflows (name.drop 3)
    · simp [decodeCPUName_of_overflows hname hover f, hover]
    · by_cases hwhole : ReadsWhole (name.drop 3) 2147483647
      · obtain ⟨⟨value, hdecode, -⟩, -⟩ := decodeCPUName_of_readsWhole hname hwhole f
        simp [hdecode, hwhole]
      · simp [(decodeCPUName_of_rejected hover hwhole f).1, hover, hwhole]

/-! ### Whole paths -/

/-- Each number that `decodePath` comes to fits an `int`, and if it takes the path then its numbers
are of digits only. -/
def PathFits (path : ObjectPath) : Prop :=
  if isCPUName path.filename then CPUNameFits path.filename
  else ¬ Overflows path.filename ∧
    (ReadsWhole path.filename 255 → isCPUName path.parentFilename = true →
      ¬ Overflows (path.parentFilename.drop 3) ∧
        (ReadsWhole (path.parentFilename.drop 3) 2147483647 →
          AllDigits path.filename ∧ AllDigits (path.parentFilename.drop 3)))

theorem decodePath_of_cpuName {path : ObjectPath} (h : isCPUName path.filename = true) :
    decodePath path = decodeCPUName invalidPathComponent path.filename := if_pos h

theorem decodePath_of_overflows {path : ObjectPath} (h : isCPUName path.filename = false)
    (hover : Overflows path.filename) : decodePath path = .error .outOfRange := by
  have hno := not_isPrefixOf h
  unfold decodePath
  rw [if_neg hno, hover]

theorem decodePath_of_readsWhole {path : ObjectPath} (h : isCPUName path.filename = false)
    (hwhole : ReadsWhole path.filename 255) :
    ∃ f : ℤ, decodePath path = decodeCPUName f path.parentFilename ∧
      (AllDigits path.filename → ∃ n : ℕ, f = n ∧ (number path.filename).filter (· ≤ 255) = some n)
      := by
  have hno := not_isPrefixOf h
  obtain ⟨f, hstoi, h0, hle⟩ := hwhole
  refine ⟨f, ?_, fun hall => number_of_allDigits hstoi hle hall⟩
  unfold decodePath
  rw [if_neg hno, hstoi]
  dsimp only
  rw [if_neg]
  simp only [not_or, Int.not_lt, not_not]
  exact ⟨h0, hle, trivial⟩

theorem decodePath_of_rejected {path : ObjectPath} (h : isCPUName path.filename = false)
    (hover : ¬ Overflows path.filename) (hwhole : ¬ ReadsWhole path.filename 255) :
    decodePath path = .ok none ∧ (number path.filename).filter (· ≤ 255) = none := by
  have hno := not_isPrefixOf h
  refine ⟨?_, number_eq_none_of_not_readsWhole 255 (by decide) hwhole⟩
  unfold decodePath
  rw [if_neg hno]
  rcases (stoi_cases path.filename 255).resolve_left hover |>.resolve_left hwhole with
    hstoi | ⟨value, pos, hstoi, hbad⟩
  · rw [hstoi]
  · rw [hstoi]
    dsimp only
    rw [if_pos hbad]

theorem decodePath_eq_iff (path : ObjectPath) :
    decodePath path = .ok (grammar path) ↔ PathFits path := by
  unfold grammar PathFits
  cases hname : isCPUName path.filename with
  | true =>
    rw [if_pos rfl, if_pos rfl, decodePath_of_cpuName hname]
    exact decodeCPUName_eq_iff _ _
  | false =>
    rw [if_neg Bool.false_ne_true, if_neg Bool.false_ne_true]
    by_cases hover : Overflows path.filename
    · simp [decodePath_of_overflows hname hover, hover]
    · by_cases hwhole : ReadsWhole path.filename 255
      · obtain ⟨f, hdecode, hdigits⟩ := decodePath_of_readsWhole hname hwhole
        rw [hdecode]
        by_cases hall : AllDigits path.filename
        · obtain ⟨n, rfl, hn⟩ := hdigits hall
          rw [hn, Option.bind_some, decodeCPUName_eq_iff]
          simp [CPUNameFits, hover, hwhole, hall]
        · rw [number_eq_none_of_not_allDigits hall, Option.filter_none, Option.bind_none,
            decodeCPUName_eq_none_iff]
          simp [hover, hwhole, hall]
      · obtain ⟨hdecode, hnumber⟩ := decodePath_of_rejected hname hover hwhole
        simp [hdecode, hnumber, hover, hwhole]

/-- Where nothing is decoded, nothing was expected. -/
theorem pathFits_of_eq_none {path : ObjectPath} (h : decodePath path = .ok none) :
    PathFits path := by
  unfold PathFits
  cases hname : isCPUName path.filename with
  | true =>
    rw [if_pos rfl]
    rw [decodePath_of_cpuName hname, decodeCPUName_eq_none_iff] at h
    exact fun hpos => ⟨(h hpos).1, fun hwhole => absurd hwhole (h hpos).2⟩
  | false =>
    rw [if_neg Bool.false_ne_true]
    have hover : ¬ Overflows path.filename := by
      intro hover
      rw [decodePath_of_overflows hname hover] at h
      cases h
    refine ⟨hover, fun hwhole hpos => ?_⟩
    obtain ⟨f, hdecode, -⟩ := decodePath_of_readsWhole hname hwhole
    rw [hdecode, decodeCPUName_eq_none_iff] at h
    exact ⟨(h hpos).1, fun hwhole => absurd hwhole (h hpos).2⟩

/-! ### Object paths -/

/-- The operations of `sdbusplus::message::object_path`, with the path of the TPMI objects. `append`
is `/=`, which encodes the name that it appends. -/
structure PathOps (P : Type) where
  tpmi : P
  filename : P → List Char
  parentPath : P → P
  append : P → List Char → P

/-- What is documented of the operations: a name that is appended becomes the last one, and it is
read back as it is if it has only letters and digits. -/
structure PathOps.Lawful {P : Type} (ops : PathOps P) : Prop where
  filename_append : ∀ p name, name ≠ [] → (∀ c ∈ name, c.isAlphanum = true) →
    ops.filename (ops.append p name) = name
  parentPath_append : ∀ p name, name ≠ [] → ops.parentPath (ops.append p name) = p

namespace PathOps

variable {P : Type} (ops : PathOps P)

def object (p : P) : ObjectPath := ⟨ops.filename p, ops.filename (ops.parentPath p)⟩

/-- `std::to_string` of an `int`. -/
def toString (i : ℤ) : List Char :=
  if 0 ≤ i then Nat.toDigits 10 i.toNat else '-' :: Nat.toDigits 10 (-i).toNat

def sstObjectPath (cpuIndex : ℤ) : P :=
  ops.append (ops.append ops.tpmi ("cpu".toList ++ toString cpuIndex)) (toString sstTPMIID)

/-- The CPU object lies directly under the TPMI objects. -/
def InDirectory (p : P) : Prop :=
  if isCPUName (ops.filename p) then ops.parentPath p = ops.tpmi
  else ops.parentPath (ops.parentPath p) = ops.tpmi

instance [DecidableEq P] (p : P) : Decidable (ops.InDirectory p) :=
  inferInstanceAs (Decidable (if isCPUName (ops.filename p) then ops.parentPath p = ops.tpmi
    else ops.parentPath (ops.parentPath p) = ops.tpmi))

/-- What the comment on `decodePath` says: the paths "/com/intel/tpmi/cpu0" and
"/com/intel/tpmi/cpu0/5" with any numbers, and no others. -/
def documented [DecidableEq P] (p : P) : Option PathComponents :=
  if ops.InDirectory p then grammar (ops.object p) else none

theorem decodePath_eq_documented_iff [DecidableEq P] (p : P) :
    decodePath (ops.object p) = .ok (ops.documented p) ↔
      PathFits (ops.object p) ∧ (grammar (ops.object p) ≠ none → ops.InDirectory p) := by
  unfold documented
  by_cases hdir : ops.InDirectory p
  · rw [if_pos hdir, decodePath_eq_iff]
    simp [hdir]
  · rw [if_neg hdir]
    constructor
    · intro h
      have hfits := pathFits_of_eq_none h
      have hgrammar := (decodePath_eq_iff _).mpr hfits
      rw [h] at hgrammar
      simp only [Except.ok.injEq] at hgrammar
      exact ⟨hfits, fun hne => absurd hgrammar.symm hne⟩
    · rintro ⟨hfits, hnone⟩
      rw [(decodePath_eq_iff _).mpr hfits]
      by_contra hne
      exact hdir (hnone fun h => hne (by rw [h]))

variable {ops}

/-- The path of the SST feature is decoded to the index it was made of. -/
theorem Lawful.decodePath_sstObjectPath (h : ops.Lawful) {i : ℤ} (hi : i ≤ 2147483647) :
    decodePath (ops.object (ops.sstObjectPath i)) = .ok (some ⟨i, sstTPMIID⟩) ↔ 0 ≤ i := by
  constructor
  · intro hdecode
    exact decodePath_nonneg hdecode
  · intro h0
    obtain ⟨n, rfl⟩ := Int.eq_ofNat_of_zero_le h0
    have hcpu : toString (n : ℤ) = Nat.toDigits 10 n := by
      unfold toString
      rw [if_pos h0, Int.toNat_natCast]
    have hid : toString sstTPMIID = ['5'] := by decide
    have hdigits : ∀ c ∈ Nat.toDigits 10 n, c.isAlphanum = true := fun c hc => by
      simp [Char.isAlphanum, isDigit_of_mem_toDigits hc]
    have hname : ∀ c ∈ "cpu".toList ++ Nat.toDigits 10 n, c.isAlphanum = true := by
      intro c hc
      rcases List.mem_append.mp hc with hc | hc
      · exact isAlphanum_of_mem_cpu c hc
      · exact hdigits c hc
    have hfive : ∀ c ∈ ['5'], c.isAlphanum = true := by
      intro c hc
      obtain rfl := List.mem_singleton.mp hc
      rfl
    have hobject : ops.object (ops.sstObjectPath n) =
        ⟨['5'], "cpu".toList ++ Nat.toDigits 10 n⟩ := by
      unfold object sstObjectPath
      rw [hcpu, hid, h.filename_append _ _ (List.cons_ne_nil _ _) hfive,
        h.parentPath_append _ _ (List.cons_ne_nil _ _), h.filename_append _ _ (by simp) hname]
    have hstoi : stoi ['5'] = .ok (5, 1) := rfl
    have hread := stoi_toDigits (n := n) (by omega)
    have hpos : "cpu".toList.isPrefixOf ("cpu".toList ++ Nat.toDigits 10 n) = true := by simp
    have hdrop : ("cpu".toList ++ Nat.toDigits 10 n).drop 3 = Nat.toDigits 10 n := rfl
    rw [hobject]
    unfold decodePath decodeCPUName
    dsimp only
    rw [if_neg (by decide), hstoi]
    dsimp only
    rw [if_neg (by decide), if_pos hpos, hdrop, hread]
    dsimp only
    rw [if_neg]
    · rfl
    · simp

/-- `decodePath` returns, and with what the names of a path say, exactly for the paths whose numbers
fit an `int` and, if the path is taken, are of digits only. It is then as documented exactly if the
CPU object is where it should be. The path of the SST feature of a CPU is decoded to the index of
the CPU unless that is negative. -/
theorem decodePath_as_documented_iff [DecidableEq P] (h : ops.Lawful) :
    (∀ p, decodePath (ops.object p) = .ok (grammar (ops.object p)) ↔ PathFits (ops.object p)) ∧
    (∀ p, decodePath (ops.object p) = .ok (ops.documented p) ↔
      PathFits (ops.object p) ∧ (grammar (ops.object p) ≠ none → ops.InDirectory p)) ∧
    ∀ i : ℤ, i ≤ 2147483647 →
      (decodePath (ops.object (ops.sstObjectPath i)) = .ok (some ⟨i, sstTPMIID⟩) ↔ 0 ≤ i) :=
  ⟨fun p => decodePath_eq_iff (ops.object p), ops.decodePath_eq_documented_iff,
    fun _ hi => h.decodePath_sstObjectPath hi⟩

/-- Paths as the lists of their names, none of which needs to be encoded. -/
def names : PathOps (List (List Char)) where
  tpmi := ["com".toList, "intel".toList, "tpmi".toList]
  filename := fun p => p.getLastD []
  parentPath := List.dropLast
  append := fun p name => p ++ [name]

theorem names_lawful : names.Lawful :=
  ⟨fun _ _ _ _ => by simp [names], fun _ _ _ => by simp [names]⟩

theorem decodePath_as_documented_cpu1 :
    decodePath (names.object (names.sstObjectPath 1)) = .ok (some ⟨1, sstTPMIID⟩) :=
  ((decodePath_as_documented_iff names_lawful).2.2 1 (by decide)).mpr (by decide)

/-- "/com/intel/tpmi/cpu99999999999" makes `std::stoi` throw `std::out_of_range`. -/
theorem decodePath_throws :
    decodePath (names.object (names.append names.tpmi ("cpu".toList ++ List.replicate 11 '9'))) =
        .error .outOfRange ∧
      names.documented (names.append names.tpmi ("cpu".toList ++ List.replicate 11 '9')) = none := by
  constructor
  · rfl
  · decide +kernel

end PathOps

end MetaCommon.Tpmi
