import Mathlib.Data.Bool.AllAny
import Mathlib.Data.List.Basic
import Mathlib.Data.Nat.Init
import Mathlib.Tactic.Common

/-!
# The last element of an object path

An element that does not begin with an underscore is taken as it is. In one that does, an underscore
with two hexadecimal digits behind it stands for a byte, and as patched every other character,
underscores included, stands for itself.
-/

namespace MetaCommon.Sdbusplus

def text (s : String) : List UInt8 := s.toList.map fun c => UInt8.ofNat c.toNat

def underscore : UInt8 := 0x5F

def hexValue (c : UInt8) : Option ℕ :=
  if 0x30 ≤ c ∧ c ≤ 0x39 then some (c.toNat - 0x30)
  else if 0x61 ≤ c ∧ c ≤ 0x66 then some (c.toNat - 0x57)
  else if 0x41 ≤ c ∧ c ≤ 0x46 then some (c.toNat - 0x37)
  else none

def Alnum (c : UInt8) : Prop :=
  (0x30 ≤ c ∧ c ≤ 0x39) ∨ (0x41 ≤ c ∧ c ≤ 0x5A) ∨ (0x61 ≤ c ∧ c ≤ 0x7A)

instance : DecidablePred Alnum := fun c =>
  inferInstanceAs (Decidable ((0x30 ≤ c ∧ c ≤ 0x39) ∨ (0x41 ≤ c ∧ c ≤ 0x5A) ∨
    (0x61 ≤ c ∧ c ≤ 0x7A)))

/-- The unpatched parts of the file: the table of the digits, with -1 for everything else, and the
test with which the function returns an element as it is. -/
structure Platform where
  unhex : UInt8 → ℤ
  unhex_eq : ∀ c, unhex c = (hexValue c).elim (-1) Nat.cast
  encoded : List UInt8 → Bool
  encoded_iff : ∀ s, encoded s = true ↔ s.head? = some underscore

/-- An element of an object path, with the characters that D-Bus allows. -/
structure Element where
  chars : List UInt8
  ne_nil : chars ≠ []
  identifier : ∀ c ∈ chars, Alnum c ∨ c = underscore

namespace Platform

variable (P : Platform)

/-- The loop of `filename` from an index on: the characters from there to the end. -/
def decode : List UInt8 → List UInt8
  | [] => []
  | c :: rest =>
    if c ≠ underscore then c :: decode rest
    else
      match rest with
      | h :: l :: rest =>
        let ch := P.unhex h
        let cl := P.unhex l
        if ch = -1 ∨ cl = -1 then c :: decode (h :: l :: rest)
        else UInt8.ofNat (ch.toNat <<< 4 ||| cl.toNat) :: decode rest
      | rest => c :: decode rest

def filename (element : List UInt8) : List UInt8 :=
  if P.encoded element then P.decode element else element

end Platform

/-! ### What an element stands for -/

/-- The text begins with an escape, which stands for the byte. -/
inductive EscapeAt : List UInt8 → UInt8 → List UInt8 → Prop
  | intro {h l : UInt8} {a b : ℕ} {rest : List UInt8} (hh : hexValue h = some a)
    (hl : hexValue l = some b) :
    EscapeAt (underscore :: h :: l :: rest) (UInt8.ofNat (16 * a + b)) rest

/-- The escapes are replaced from the left on, and every other character is copied. -/
inductive Decodes : List UInt8 → List UInt8 → Prop
  | nil : Decodes [] []
  | escape {s rest out : List UInt8} {b : UInt8} (h : EscapeAt s b rest) (hout : Decodes rest out) :
    Decodes s (b :: out)
  | copy {c : UInt8} {rest out : List UInt8} (h : ∀ b after, ¬ EscapeAt (c :: rest) b after)
    (hout : Decodes rest out) : Decodes (c :: rest) (c :: out)

/-- Every byte but a letter or a digit is written as an escape. -/
inductive EncodedBy : List UInt8 → List UInt8 → Prop
  | nil : EncodedBy [] []
  | plain {b : UInt8} {bytes s : List UInt8} (hb : Alnum b) (h : EncodedBy bytes s) :
    EncodedBy (b :: bytes) (b :: s)
  | escape {b hi lo : UInt8} {bytes s : List UInt8} (hb : ¬ Alnum b)
    (hhi : hexValue hi = some (b.toNat / 16)) (hlo : hexValue lo = some (b.toNat % 16))
    (h : EncodedBy bytes s) : EncodedBy (b :: bytes) (underscore :: hi :: lo :: s)

theorem hexValue_lt {c : UInt8} {a : ℕ} (h : hexValue c = some a) : a < 16 := by
  unfold hexValue at h
  simp only [UInt8.le_iff_toNat_le] at h
  split_ifs at h with hdigit hlower hupper
  all_goals
    obtain rfl := Option.some.inj h
    simp only [UInt8.reduceToNat] at *
    omega

theorem EscapeAt.length_lt {s rest : List UInt8} {b : UInt8} (h : EscapeAt s b rest) :
    rest.length < s.length := by
  cases h
  simp only [List.length_cons]
  omega

namespace Platform

variable (P : Platform)

theorem unhex_eq_iff {c : UInt8} : P.unhex c = -1 ↔ hexValue c = none := by
  rw [P.unhex_eq]
  cases hexValue c with
  | none => simp
  | some a => simp

theorem decode_escape {s rest : List UInt8} {b : UInt8} (h : EscapeAt s b rest) :
    P.decode s = b :: P.decode rest := by
  cases h with
  | @intro h l a b rest hh hl =>
    have hor : a <<< 4 ||| b = 16 * a + b := by
      have hlt : b < 2 ^ 4 := hexValue_lt hl
      rw [Nat.shiftLeft_eq, Nat.mul_comm, ← Nat.two_pow_add_eq_or_of_lt hlt]
    rw [decode, if_neg (by simp)]
    simp only [P.unhex_eq, hh, hl]
    rw [if_neg (by simp)]
    simp [hor]

theorem decode_copy {c : UInt8} {rest : List UInt8}
    (h : ∀ b after, ¬ EscapeAt (c :: rest) b after) :
    P.decode (c :: rest) = c :: P.decode rest := by
  by_cases hc : c = underscore
  · subst hc
    rcases rest with _ | ⟨hi, _ | ⟨lo, rest⟩⟩
    · simp [decode]
    · simp [decode]
    · have hno : P.unhex hi = -1 ∨ P.unhex lo = -1 := by
        rw [unhex_eq_iff, unhex_eq_iff]
        by_contra hnot
        rw [not_or] at hnot
        obtain ⟨a, ha⟩ := Option.ne_none_iff_exists'.mp hnot.1
        obtain ⟨b, hb⟩ := Option.ne_none_iff_exists'.mp hnot.2
        exact h _ _ (.intro ha hb)
      rw [decode, if_neg (by simp)]
      exact if_pos hno
  · rw [decode.eq_def]
    exact if_pos hc

/-- The loop gives what the element stands for, and nothing else does. -/
theorem decodes_iff {s out : List UInt8} : Decodes s out ↔ out = P.decode s := by
  constructor
  · intro h
    induction h with
    | nil => simp [decode]
    | escape h _ ih => rw [P.decode_escape h, ih]
    | copy h _ ih => rw [P.decode_copy h, ih]
  · rintro rfl
    induction hn : s.length using Nat.strong_induction_on generalizing s with
    | _ n ih =>
      subst hn
      by_cases hescape : ∃ b rest, EscapeAt s b rest
      · obtain ⟨b, rest, h⟩ := hescape
        rw [P.decode_escape h]
        exact .escape h (ih _ h.length_lt rfl)
      · cases s with
        | nil =>
          rw [decode]
          exact .nil
        | cons c rest =>
          have h : ∀ b after, ¬ EscapeAt (c :: rest) b after := fun b after hat =>
            hescape ⟨b, after, hat⟩
          rw [P.decode_copy h]
          exact .copy h (ih _ (Nat.lt_succ_self _) rfl)

theorem decode_ne_nil {s : List UInt8} (hs : s ≠ []) : P.decode s ≠ [] := by
  intro hnil
  have hdecodes := P.decodes_iff.mpr hnil.symm
  cases hdecodes
  exact hs rfl

/-- What has been encoded is read back. -/
theorem decode_encodedBy {bytes s : List UInt8} (h : EncodedBy bytes s) : P.decode s = bytes := by
  induction h with
  | nil => rw [decode]
  | @plain b bytes s hb _ ih =>
    have hne : b ≠ underscore := by
      rintro rfl
      exact absurd hb (by decide)
    rw [P.decode_copy fun _ _ hat => hne (by cases hat; rfl), ih]
  | @escape b hi lo bytes s _ hhi hlo _ ih =>
    have hb : 16 * (b.toNat / 16) + b.toNat % 16 = b.toNat := Nat.div_add_mod _ _
    rw [P.decode_escape (.intro hhi hlo), ih, hb, UInt8.ofNat_toNat]

/-- Nothing is replaced where there is no escape. -/
theorem decode_eq_self {s : List UInt8} (h : ∀ t, t <:+ s → ∀ b rest, ¬ EscapeAt t b rest) :
    P.decode s = s := by
  induction s with
  | nil => rw [decode]
  | cons c rest ih =>
    have htail : ∀ t, t <:+ rest → ∀ b after, ¬ EscapeAt t b after :=
      fun t ht => h t (ht.trans (List.suffix_cons c rest))
    rw [P.decode_copy (h _ List.suffix_rfl), ih htail]

/-- An element with an underscore in front is decoded, and any other one is taken as it is. None is
dropped, what has been encoded from its first byte on is read back, and an element without an escape
is left alone. -/
theorem filename_decodes (e : Element) :
    (e.chars.head? = some underscore → Decodes e.chars (P.filename e.chars)) ∧
    (e.chars.head? ≠ some underscore → P.filename e.chars = e.chars) ∧
    P.filename e.chars ≠ [] ∧
    (∀ b bytes, ¬ Alnum b → EncodedBy (b :: bytes) e.chars → P.filename e.chars = b :: bytes) ∧
    ((∀ t, t <:+ e.chars → ∀ b rest, ¬ EscapeAt t b rest) → P.filename e.chars = e.chars) := by
  have hencoded : e.chars.head? = some underscore → P.filename e.chars = P.decode e.chars :=
    fun h => if_pos ((P.encoded_iff _).mpr h)
  have hplain : e.chars.head? ≠ some underscore → P.filename e.chars = e.chars :=
    fun h => if_neg (mt (P.encoded_iff _).mp h)
  refine ⟨fun h => P.decodes_iff.mpr (hencoded h), hplain, ?_, fun b bytes hb h => ?_, fun h => ?_⟩
  · by_cases h : e.chars.head? = some underscore
    · rw [hencoded h]
      exact P.decode_ne_nil e.ne_nil
    · rw [hplain h]
      exact e.ne_nil
  · have hhead : e.chars.head? = some underscore := by
      generalize e.chars = s at h
      cases h with
      | plain hb' => exact absurd hb' hb
      | escape => rfl
    rw [hencoded hhead]
    exact P.decode_encodedBy h
  · by_cases hhead : e.chars.head? = some underscore
    · rw [hencoded hhead]
      exact P.decode_eq_self h
    · exact hplain hhead

/-- The table and the test of the unpatched file. -/
def unpatched : Platform where
  unhex c := (hexValue c).elim (-1) Nat.cast
  unhex_eq _ := rfl
  encoded s := s.head? = some underscore
  encoded_iff _ := by simp

example : unpatched.filename (text "_2d") = text "-" := by decide +kernel

/-- `_2dbmc`, which stands for `-bmc`. -/
def dashElement : Element where
  chars := [underscore, 0x32, 0x64, 0x62, 0x6d, 0x63]
  ne_nil := List.cons_ne_nil _ _
  identifier := List.all_iff_forall_prop.mp (by decide)

theorem filename_decodes_dash :
    Decodes dashElement.chars (unpatched.filename dashElement.chars) ∧
      unpatched.filename dashElement.chars = text "-bmc" := by
  obtain ⟨hdecodes, -, -, hencoded, -⟩ := unpatched.filename_decodes dashElement
  refine ⟨hdecodes rfl, hencoded 0x2d [0x62, 0x6d, 0x63] (by decide) ?_⟩
  exact .escape (by decide) rfl rfl <|
    .plain (by decide) <| .plain (by decide) <| .plain (by decide) .nil

/-- An underscore in the middle, with two letters behind it that are digits: the element of the
test. -/
theorem not_decodes_bios_active :
    ¬ Decodes (text "bios_active") (unpatched.filename (text "bios_active")) := by
  rw [unpatched.decodes_iff]
  decide +kernel

end Platform

end MetaCommon.Sdbusplus
