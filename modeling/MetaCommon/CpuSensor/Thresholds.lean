import Mathlib.Data.Int.Notation
import MetaCommon.Lib.Runs

/-!
# Thresholds that follow Tcontrol

`handleResponse` reads the threshold attributes when Tcontrol has a new value, and only then. We
keep beside it what the attributes last had since Tcontrol changed. A read that fails at the change
leaves NaN behind or takes the threshold away, and is not made up for before the next change.
-/

namespace MetaCommon.CpuSensor

open Runs

/-- A `double` is NaN, here `none`, or a number. The infinities are left out: the attributes are
integers of the kernel. -/
abbrev Double (α : Type*) := Option α

inductive Level
  | warning
  | critical
deriving DecidableEq

inductive Direction
  | high
  | low
deriving DecidableEq

structure Threshold (α : Type*) where
  level : Level
  direction : Direction
  value : Double α
  hysteresis : Double α
deriving DecidableEq

/-- One row of the table of `parseThresholdsFromAttr`, with the path of the attribute's file in
place of its suffix. -/
structure Attribute (α : Type*) where
  path : String
  level : Level
  direction : Direction
  offset : α

/-- A file that is not there, or what `std::stod` gets from its line; it fails where the resource is
busy and on a line that is no number. -/
inductive File (α : Type*)
  | missing
  | line (stod : Option (Double α))

/-- The comparison of thresholds, which looks at the three members at least. -/
structure Comparison (α : Type*) where
  same : Threshold α → Threshold α → Bool
  agrees : ∀ t u, same t u = true →
    t.level = u.level ∧ t.direction = u.direction ∧ t.value = u.value

variable {α : Type*}

/-- What the thresholds are compared by. -/
def Threshold.key (t : Threshold α) : Level × Direction × Double α :=
  (t.level, t.direction, t.value)

/-- A threshold of some kind with a value is seen from the keys. -/
theorem exists_of_map_key {xs ys : List (Threshold α)}
    (h : xs.map Threshold.key = ys.map Threshold.key) {level : Level} {direction : Direction}
    (hxs : ∃ u ∈ xs, u.level = level ∧ u.direction = direction ∧ u.value.isSome) :
    ∃ u ∈ ys, u.level = level ∧ u.direction = direction ∧ u.value.isSome := by
  obtain ⟨u, hu, rfl, rfl, hvalue⟩ := hxs
  have hkey : u.key ∈ ys.map Threshold.key := h ▸ List.mem_map_of_mem hu
  obtain ⟨v, hv, hvu⟩ := List.mem_map.mp hkey
  have hlevel : v.level = u.level := congrArg Prod.fst hvu
  have hdirection : v.direction = u.direction := congrArg (·.2.1) hvu
  have hsame : v.value = u.value := congrArg (·.2.2) hvu
  exact ⟨v, hv, hlevel, hdirection, hsame ▸ hvalue⟩

theorem Comparison.isEqv_key (cmp : Comparison α) {xs ys : List (Threshold α)}
    (h : xs.isEqv ys cmp.same = true) : xs.map Threshold.key = ys.map Threshold.key := by
  induction xs generalizing ys with
  | nil =>
    cases ys with
    | nil => rfl
    | cons y ys => cases h
  | cons x xs ih =>
    cases ys with
    | nil => cases h
    | cons y ys =>
      rw [List.isEqv, Bool.and_eq_true] at h
      obtain ⟨hlevel, hdirection, hvalue⟩ := cmp.agrees x y h.1
      have hkey : x.key = y.key := by
        unfold Threshold.key
        rw [hlevel, hdirection, hvalue]
      rw [List.map_cons, List.map_cons, hkey, ih h.2]

variable [DecidableEq α] [Add α] [Div α] [OfNat α 0]

namespace Double

/-- `==` of C++, by which NaN equals nothing. -/
def eq : Double α → Double α → Bool
  | some x, some y => decide (x = y)
  | _, _ => false

omit [Add α] [Div α] [OfNat α 0] in
theorem eq_of_eq {x y : Double α} (h : eq x y = true) : x = y := by
  cases x with
  | none => cases h
  | some x =>
    cases y with
    | none => cases h
    | some y => exact congrArg some (of_decide_eq_true h)

def isfinite (x : Double α) : Bool := x.isSome

def add (x : Double α) (offset : α) : Double α := x.map (· + offset)

end Double

/-- The comparison of just the three members. -/
def Comparison.ofMembers : Comparison α where
  same t u := decide (t.level = u.level) && decide (t.direction = u.direction) &&
    Double.eq t.value u.value
  agrees t u h := by
    simp only [Bool.and_eq_true, decide_eq_true_eq] at h
    exact ⟨h.1.1, h.1.2, Double.eq_of_eq h.2⟩

def readFile (thresholdFile : File α) (scaleFactor : α) (nanOk : Bool) : Option (Double α) :=
  match thresholdFile with
  | .missing => none
  | .line (some x) => some (x.map (· / scaleFactor))
  | .line none => if nanOk then some none else none

/-- The rows of the table for the path of the sensor come as a parameter; there are none to go
through if the path cannot be split, and the function fails. -/
def parseThresholdsFromAttr (thresholdVector : List (Threshold α))
    (attributes : Option (List (Attribute α))) (files : String → File α) (scaleFactor : α) :
    Option (List (Threshold α)) :=
  attributes.map fun rows => thresholdVector ++ rows.filterMap fun t =>
    (readFile (files t.path) scaleFactor true).map fun val =>
      ⟨t.level, t.direction, Double.add val t.offset, some 0⟩

structure IntelCPUSensor (α : Type*) where
  attributes : Option (List (Attribute α))
  scaleFactor : α
  thresholds : List (Threshold α)
  privTcontrol : Double α

/-- A response that is an error or no number, or one that is, with the value of the Tcontrol sensor
and the files as they are then. -/
inductive Reading (α : Type*)
  | failed
  | number (gTcontrol : Double α) (files : String → File α)

namespace IntelCPUSensor

def create (attributes : Option (List (Attribute α))) (scaleFactor : α)
    (thresholds : List (Threshold α)) : IntelCPUSensor α :=
  ⟨attributes, scaleFactor, thresholds, none⟩

/-- The part of `handleResponse` after the reading has been stored. -/
def handleResponse (cmp : Comparison α) (s : IntelCPUSensor α) : Reading α → IntelCPUSensor α
  | .failed => s
  | .number gTcontrol files =>
    if Double.isfinite gTcontrol ∧ ¬ Double.eq gTcontrol s.privTcontrol then
      let s :=
        match parseThresholdsFromAttr [] s.attributes files s.scaleFactor with
        | some newThresholds =>
          if ¬ s.thresholds.isEqv newThresholds cmp.same then
            if newThresholds ≠ [] then { s with thresholds := newThresholds } else s
          else s
        | none => s
      { s with privTcontrol := gTcontrol }
    else s

def rows (s : IntelCPUSensor α) : List (Attribute α) := s.attributes.getD []

/-- The value of an attribute that can be read. -/
def reading (s : IntelCPUSensor α) (files : String → File α) (t : Attribute α) : Option α :=
  (readFile (files t.path) s.scaleFactor false).join

/-- A threshold of the sensor is that of an attribute. -/
def HasAttribute (s : IntelCPUSensor α) (t : Threshold α) : Prop :=
  ∃ a ∈ s.rows, a.level = t.level ∧ a.direction = t.direction

/-- The sensor has a threshold of that level and direction, and it is not NaN. -/
def Keeps (s : IntelCPUSensor α) (t : Threshold α) : Prop :=
  ∃ u ∈ s.thresholds, u.level = t.level ∧ u.direction = t.direction ∧ u.value.isSome

/-- The values plus offset of the attributes, once all of them can be read. -/
def readings (s : IntelCPUSensor α) (files : String → File α) : Option (List (Threshold α)) :=
  if s.rows.isEmpty = false ∧ ∀ t ∈ s.rows, (s.reading files t).isSome then
    some (s.rows.map fun t =>
      ⟨t.level, t.direction, Double.add (s.reading files t) t.offset, some 0⟩)
  else none

end IntelCPUSensor

/-- The sensor with the last Tcontrol that was a number, and the values that the attributes had last
since then, where all of them could be read. -/
structure Monitor (α : Type*) where
  sensor : IntelCPUSensor α
  tcontrol : Double α
  current : Option (List (Threshold α))

namespace Monitor

def init (attributes : Option (List (Attribute α))) (scaleFactor : α)
    (thresholds : List (Threshold α)) : Monitor α :=
  ⟨.create attributes scaleFactor thresholds, none, none⟩

def step (cmp : Comparison α) (m : Monitor α) : Reading α → Monitor α
  | .failed => { m with sensor := m.sensor.handleResponse cmp .failed }
  | .number gTcontrol files =>
    let sensor := m.sensor.handleResponse cmp (.number gTcontrol files)
    if Double.isfinite gTcontrol then
      ⟨sensor, gTcontrol, (m.sensor.readings files).or
        (if Double.eq gTcontrol m.tcontrol then m.current else none)⟩
    else { m with sensor := sensor }

/-- No threshold with a value is lost to an attribute that is not read, and the thresholds are what
the attributes had last since Tcontrol changed. -/
structure Sound (cmp : Comparison α) (m : Monitor α) (r : Reading α) : Prop where
  keeps : ∀ t ∈ m.sensor.thresholds, t.value.isSome → m.sensor.HasAttribute t →
    (m.step cmp r).sensor.Keeps t
  current : ∀ ts, (m.step cmp r).current = some ts →
    (m.step cmp r).sensor.thresholds.map Threshold.key = ts.map Threshold.key

/-- At a change of Tcontrol the attributes of the thresholds with a value are read, or there is none
of the files; without a change all attributes are not there to be read, or they have the values of
the thresholds. -/
def ReadsInTime (m : Monitor α) : Reading α → Prop
  | .failed => True
  | .number gTcontrol files => Double.isfinite gTcontrol →
    if Double.eq gTcontrol m.tcontrol then
      ∀ ts, m.sensor.readings files = some ts →
        m.sensor.thresholds.map Threshold.key = ts.map Threshold.key
    else
      (∀ a ∈ m.sensor.rows, files a.path = .missing) ∨
        ∀ t ∈ m.sensor.thresholds, t.value.isSome → m.sensor.HasAttribute t →
          ∃ a ∈ m.sensor.rows, a.level = t.level ∧ a.direction = t.direction ∧
            (m.sensor.reading files a).isSome

end Monitor

/-! ### What a response does to the thresholds -/

namespace IntelCPUSensor

variable (s : IntelCPUSensor α) (files : String → File α)

/-- What the attributes give, NaN included. -/
def newThresholds : List (Threshold α) :=
  s.rows.filterMap fun t => (readFile (files t.path) s.scaleFactor true).map fun val =>
    ⟨t.level, t.direction, Double.add val t.offset, some 0⟩

omit [DecidableEq α] in
theorem parseThresholdsFromAttr_eq :
    parseThresholdsFromAttr [] s.attributes files s.scaleFactor =
      s.attributes.map fun _ => s.newThresholds files := by
  unfold parseThresholdsFromAttr newThresholds rows
  cases s.attributes <;> rfl

theorem handleResponse_same (cmp : Comparison α) {gTcontrol : Double α}
    (h : Double.isfinite gTcontrol → Double.eq gTcontrol s.privTcontrol) :
    s.handleResponse cmp (.number gTcontrol files) = s := by
  refine if_neg fun hchange => hchange.2 (h hchange.1)

/-- A new value of Tcontrol: the thresholds are what the attributes give, unless they give none. -/
theorem handleResponse_new (cmp : Comparison α) {gTcontrol : Double α}
    (hfinite : Double.isfinite gTcontrol) (hne : ¬ Double.eq gTcontrol s.privTcontrol) :
    ∃ ths, s.handleResponse cmp (.number gTcontrol files) =
        { s with thresholds := ths, privTcontrol := gTcontrol } ∧
      (s.newThresholds files = [] → ths = s.thresholds) ∧
      (s.newThresholds files ≠ [] →
        ths.map Threshold.key = (s.newThresholds files).map Threshold.key) := by
  obtain ⟨attributes, scaleFactor, thresholds, privTcontrol⟩ := s
  unfold handleResponse
  dsimp only
  rw [if_pos ⟨hfinite, hne⟩]
  have hparse := (IntelCPUSensor.mk attributes scaleFactor thresholds
    privTcontrol).parseThresholdsFromAttr_eq files
  dsimp only at hparse
  rw [hparse]
  cases attributes with
  | none => exact ⟨thresholds, rfl, fun _ => rfl, fun hne => absurd rfl hne⟩
  | some attributes =>
    rw [Option.map_some]
    dsimp only
    by_cases hsame : thresholds.isEqv ((IntelCPUSensor.mk (some attributes) scaleFactor thresholds
        privTcontrol).newThresholds files) cmp.same = true
    · rw [if_neg (not_not.mpr hsame)]
      exact ⟨_, rfl, fun _ => rfl, fun _ => cmp.isEqv_key hsame⟩
    · rw [if_pos hsame]
      split_ifs with hempty
      · exact ⟨_, rfl, fun hnil => absurd hnil hempty, fun _ => rfl⟩
      · exact ⟨_, rfl, fun _ => rfl, fun hne => absurd hne hempty⟩

omit [DecidableEq α] [Add α] [OfNat α 0] in
/-- The value NaN comes only where the other call gives none. -/
theorem reading_eq_some_iff {t : Attribute α} {x : α} :
    s.reading files t = some x ↔ readFile (files t.path) s.scaleFactor true = some (some x) := by
  unfold reading
  cases files t.path with
  | missing => simp [readFile]
  | line stod => cases stod <;> simp [readFile]

omit [DecidableEq α] [Add α] [OfNat α 0] in
theorem readFile_eq_none_iff {t : Attribute α} :
    readFile (files t.path) s.scaleFactor true = none ↔ files t.path = .missing := by
  cases files t.path with
  | missing => simp [readFile]
  | line stod => cases stod <;> simp [readFile]

omit [DecidableEq α] in
theorem newThresholds_eq_nil_iff :
    s.newThresholds files = [] ↔ ∀ a ∈ s.rows, files a.path = .missing := by
  unfold newThresholds
  rw [List.filterMap_eq_nil_iff]
  refine forall₂_congr fun a _ => ?_
  rw [Option.map_eq_none_iff, readFile_eq_none_iff]

omit [DecidableEq α] in
theorem exists_newThresholds_iff (level : Level) (direction : Direction) :
    (∃ u ∈ s.newThresholds files,
        u.level = level ∧ u.direction = direction ∧ u.value.isSome) ↔
      ∃ a ∈ s.rows, a.level = level ∧ a.direction = direction ∧ (s.reading files a).isSome := by
  unfold newThresholds
  constructor
  · rintro ⟨u, hu, hlevel, hdirection, hvalue⟩
    obtain ⟨a, ha, hau⟩ := List.mem_filterMap.mp hu
    obtain ⟨val, hval, rfl⟩ := Option.map_eq_some_iff.mp hau
    obtain ⟨x, rfl⟩ : ∃ x, val = some x := by
      rw [Double.add, Option.isSome_map] at hvalue
      exact Option.isSome_iff_exists.mp hvalue
    exact ⟨a, ha, hlevel, hdirection,
      Option.isSome_iff_exists.mpr ⟨x, (s.reading_eq_some_iff files).mpr hval⟩⟩
  · rintro ⟨a, ha, hlevel, hdirection, hreading⟩
    obtain ⟨x, hx⟩ := Option.isSome_iff_exists.mp hreading
    have hfile := (s.reading_eq_some_iff files).mp hx
    refine ⟨⟨a.level, a.direction, Double.add (some x) a.offset, some 0⟩, ?_, hlevel, hdirection,
      rfl⟩
    refine List.mem_filterMap.mpr ⟨a, ha, ?_⟩
    rw [hfile, Option.map_some]

omit [DecidableEq α] in
/-- Where all attributes can be read, the thresholds get what was read. -/
theorem newThresholds_of_readings {ts : List (Threshold α)} (h : s.readings files = some ts) :
    s.newThresholds files = ts ∧ ts ≠ [] := by
  unfold readings at h
  split_ifs at h with hall
  obtain ⟨hne, hread⟩ := hall
  cases h
  refine ⟨?_, ?_⟩
  · unfold newThresholds
    rw [← List.filterMap_eq_map]
    refine List.filterMap_congr fun t ht => ?_
    obtain ⟨x, hx⟩ := Option.isSome_iff_exists.mp (hread t ht)
    rw [Function.comp_apply, hx, (s.reading_eq_some_iff files).mp hx]
    rfl
  · intro hnil
    rw [List.map_eq_nil_iff] at hnil
    rw [hnil] at hne
    cases hne

end IntelCPUSensor

/-! ### Every run of responses -/

namespace Monitor

/-- The monitor agrees with the sensor on Tcontrol, and the thresholds are current. -/
structure Inv (m : Monitor α) : Prop where
  tcontrol : m.sensor.privTcontrol = m.tcontrol
  current : ∀ ts, m.current = some ts →
    m.sensor.thresholds.map Threshold.key = ts.map Threshold.key

omit [DecidableEq α] [Add α] [Div α] [OfNat α 0] in
theorem inv_init (attributes : Option (List (Attribute α))) (scaleFactor : α)
    (thresholds : List (Threshold α)) : (init attributes scaleFactor thresholds).Inv :=
  ⟨rfl, nofun⟩

omit [DecidableEq α] [Add α] [Div α] [OfNat α 0] in
theorem keeps_self {m : Monitor α} : ∀ t ∈ m.sensor.thresholds, t.value.isSome →
    m.sensor.HasAttribute t → m.sensor.Keeps t :=
  fun t ht hvalue _ => ⟨t, ht, rfl, rfl, hvalue⟩

variable {m : Monitor α} {gTcontrol : Double α} (cmp : Comparison α) (files : String → File α)

theorem step_of_not_finite (hfinite : ¬ Double.isfinite gTcontrol) :
    m.step cmp (.number gTcontrol files) = m := by
  unfold step
  dsimp only
  rw [m.sensor.handleResponse_same files cmp fun h => absurd h hfinite, if_neg hfinite]

/-- Without a new value of Tcontrol nothing is read. -/
theorem Inv.step_of_same (hm : m.Inv) (hfinite : Double.isfinite gTcontrol)
    (hsame : Double.eq gTcontrol m.tcontrol) :
    m.step cmp (.number gTcontrol files) =
      ⟨m.sensor, gTcontrol, (m.sensor.readings files).or m.current⟩ := by
  unfold step
  dsimp only
  rw [m.sensor.handleResponse_same files cmp fun _ => hm.tcontrol ▸ hsame, if_pos hfinite,
    if_pos hsame]

/-- At a new value of Tcontrol the thresholds are replaced by what is there to be read. -/
theorem Inv.step_of_new (hm : m.Inv) (hfinite : Double.isfinite gTcontrol)
    (hnew : ¬ Double.eq gTcontrol m.tcontrol) :
    ∃ ths, m.step cmp (.number gTcontrol files) =
        ⟨{ m.sensor with thresholds := ths, privTcontrol := gTcontrol }, gTcontrol,
          m.sensor.readings files⟩ ∧
      (m.sensor.newThresholds files = [] → ths = m.sensor.thresholds) ∧
      (m.sensor.newThresholds files ≠ [] →
        ths.map Threshold.key = (m.sensor.newThresholds files).map Threshold.key) := by
  obtain ⟨ths, hsensor, hnil, hcons⟩ := m.sensor.handleResponse_new files cmp hfinite
    (hm.tcontrol ▸ hnew)
  refine ⟨ths, ?_, hnil, hcons⟩
  unfold step
  dsimp only
  rw [hsensor, if_pos hfinite, if_neg hnew, Option.or_none]

variable {cmp files}

theorem Inv.sound_iff_of_same (hm : m.Inv) (hfinite : Double.isfinite gTcontrol)
    (hsame : Double.eq gTcontrol m.tcontrol) :
    m.Sound cmp (.number gTcontrol files) ↔ m.ReadsInTime (.number gTcontrol files) := by
  have hstep := hm.step_of_same cmp files hfinite hsame
  have hreads : m.ReadsInTime (.number gTcontrol files) ↔
      ∀ ts, m.sensor.readings files = some ts →
        m.sensor.thresholds.map Threshold.key = ts.map Threshold.key := by
    unfold ReadsInTime
    dsimp only
    rw [if_pos hsame, forall_prop_of_true hfinite]
  rw [hreads]
  constructor
  · intro hsound ts hts
    have hcurrent := hsound.current ts
    rw [hstep] at hcurrent
    exact hcurrent (by rw [hts, Option.some_or])
  · intro hread
    refine ⟨?_, ?_⟩
    · rw [hstep]
      exact keeps_self
    · rw [hstep]
      dsimp only
      intro ts hts
      cases hreadings : m.sensor.readings files with
      | none =>
        rw [hreadings, Option.none_or] at hts
        exact hm.current ts hts
      | some us =>
        rw [hreadings, Option.some_or] at hts
        exact hread ts (hreadings.trans hts)

theorem Inv.sound_iff_of_new (hm : m.Inv) (hfinite : Double.isfinite gTcontrol)
    (hnew : ¬ Double.eq gTcontrol m.tcontrol) :
    m.Sound cmp (.number gTcontrol files) ↔ m.ReadsInTime (.number gTcontrol files) := by
  obtain ⟨ths, hstep, hnil, hcons⟩ := hm.step_of_new cmp files hfinite hnew
  have hreads : m.ReadsInTime (.number gTcontrol files) ↔
      (∀ a ∈ m.sensor.rows, files a.path = .missing) ∨
        ∀ t ∈ m.sensor.thresholds, t.value.isSome → m.sensor.HasAttribute t →
          ∃ a ∈ m.sensor.rows, a.level = t.level ∧ a.direction = t.direction ∧
            (m.sensor.reading files a).isSome := by
    unfold ReadsInTime
    dsimp only
    rw [if_neg hnew, forall_prop_of_true hfinite]
  rw [hreads, ← m.sensor.newThresholds_eq_nil_iff]
  constructor
  · intro hsound
    by_cases hempty : m.sensor.newThresholds files = []
    · exact .inl hempty
    · refine .inr fun t ht hvalue hattribute => ?_
      have hkeeps := hsound.keeps t ht hvalue hattribute
      rw [hstep] at hkeeps
      exact (m.sensor.exists_newThresholds_iff files _ _).mp
        (exists_of_map_key (hcons hempty) hkeeps)
  · intro hread
    refine ⟨fun t ht hvalue hattribute => ?_, fun ts hts => ?_⟩
    · rw [hstep]
      by_cases hempty : m.sensor.newThresholds files = []
      · rw [hnil hempty]
        exact ⟨t, ht, rfl, rfl, hvalue⟩
      · have hattr := hread.resolve_left hempty t ht hvalue hattribute
        exact exists_of_map_key (hcons hempty).symm
          ((m.sensor.exists_newThresholds_iff files _ _).mpr hattr)
    · rw [hstep] at hts ⊢
      obtain ⟨hts, hne⟩ := m.sensor.newThresholds_of_readings files hts
      subst hts
      exact hcons hne

theorem Inv.sound_iff (hm : m.Inv) (r : Reading α) : m.Sound cmp r ↔ m.ReadsInTime r := by
  cases r with
  | failed => exact iff_of_true ⟨keeps_self, hm.current⟩ trivial
  | number gTcontrol files =>
    by_cases hfinite : Double.isfinite gTcontrol
    · by_cases hsame : Double.eq gTcontrol m.tcontrol
      · exact hm.sound_iff_of_same hfinite hsame
      · exact hm.sound_iff_of_new hfinite hsame
    · have hstep := step_of_not_finite (m := m) cmp files hfinite
      refine iff_of_true ⟨?_, ?_⟩ fun h => absurd h hfinite
      · rw [hstep]
        exact keeps_self
      · rw [hstep]
        exact hm.current

theorem Inv.step (hm : m.Inv) {r : Reading α} (hr : m.ReadsInTime r) : (m.step cmp r).Inv := by
  refine ⟨?_, ((hm.sound_iff r).mpr hr).current⟩
  cases r with
  | failed => exact hm.tcontrol
  | number gTcontrol files =>
    by_cases hfinite : Double.isfinite gTcontrol
    · by_cases hsame : Double.eq gTcontrol m.tcontrol
      · rw [hm.step_of_same cmp files hfinite hsame]
        exact hm.tcontrol.trans (Double.eq_of_eq hsame).symm
      · obtain ⟨ths, hstep, -, -⟩ := hm.step_of_new cmp files hfinite hsame
        rw [hstep]
    · rw [step_of_not_finite cmp files hfinite]
      exact hm.tcontrol

/-- The thresholds are kept and current, in every sequence of responses, exactly if the attributes
are there to be read when Tcontrol changes, and only then have new values. -/
theorem thresholds_current_iff (cmp : Comparison α) (attributes : Option (List (Attribute α)))
    (scaleFactor : α) (thresholds : List (Threshold α)) (rs : List (Reading α)) :
    Guarded (step cmp) (Sound cmp) (init attributes scaleFactor thresholds) rs ↔
      Guarded (step cmp) ReadsInTime (init attributes scaleFactor thresholds) rs :=
  guarded_congr (fun _ _ hm hr => hm.step hr) (fun _ r hm => hm.sound_iff r)
    (inv_init attributes scaleFactor thresholds)

/-- Tcontrol goes to 94 while one of the attributes is busy: its threshold becomes NaN. -/
theorem busy_attribute_gives_nan :
    ¬ Guarded (step .ofMembers) (Sound .ofMembers)
      (init
        (some [⟨"temp2_max", .warning, .high, 0⟩, ⟨"temp2_crit", .critical, .high, 0⟩]) (1000 : ℤ)
        [⟨.warning, .high, some 92, some 0⟩, ⟨.critical, .high, some 100, some 0⟩])
      [.number (some 94) fun path =>
        if path = "temp2_max" then .line (some (some 94000)) else .line none] := by
  rintro ⟨h, -⟩
  obtain ⟨u, hu, hlevel, -, hvalue⟩ := h.keeps ⟨.critical, .high, some 100, some 0⟩ (by decide) rfl
    ⟨⟨"temp2_crit", .critical, .high, 0⟩, by simp [init, IntelCPUSensor.create,
      IntelCPUSensor.rows], rfl, rfl⟩
  revert u
  decide

end Monitor

end MetaCommon.CpuSensor
