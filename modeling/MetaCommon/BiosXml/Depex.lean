import MetaCommon.BiosXml.Literals

/-!
# The dependency expressions of BIOS knobs

`evaluateExpression` negates the value of a group after `Sif(`, `Gif(` or `Dif(` by a flag that it
sets at the opening word and consults at every operand it pushes in the same place. The flag is
never reset, so the operands that come after the group in the same expression are negated too.
-/

namespace MetaCommon.BiosXml

inductive Opener
  | parenthesis
  | sif
  | gif
  | dif
  | list
  deriving DecidableEq

/-- `Sif(`, `Gif(` or `Dif(`. -/
def Opener.ifForm : Opener → Bool
  | sif | gif | dif => true
  | _ => false

/-- An expression, with the sub-expressions `getSubExpression` takes out of it. -/
inductive Depex
  | nil
  | operator (op : Text) (rest : Depex)
  | word (word : Text) (rest : Depex)
  | group (opener : Opener) (subExpression rest : Depex)

/-- What the patch leaves as it was: the current values of the knobs, and whether the value of a
bare parenthesis, or of an expanded list, is pushed together with those of the words. -/
structure Evaluator where
  getValue : Text → Option ℤ
  parenthesis : Bool
  list : Bool

/-- How the operators of an expression combine the values of its operands, unless there is an
error. -/
abbrev Combine := Depex → List ℤ → Option ℤ

/-- `!value` -/
def negate (value : ℤ) : ℤ := if value = 0 then 1 else 0

namespace Evaluator

variable (ev : Evaluator) (combine : Combine)

def wordValue (word : Text) : Option ℤ :=
  if isNumber word || isHexNotation word then stoi word else ev.getValue word

/-- Whether the operand is pushed where the flag is consulted. -/
def patched : Opener → Bool
  | .parenthesis => ev.parenthesis
  | .list => ev.list
  | _ => true

theorem patched_of_ifForm {opener : Opener} (h : opener.ifForm = true) :
    ev.patched opener = true := by
  cases opener <;> first | rfl | cases h

/-- The values `evaluateExpression` pushes from a place on where `ifFormSetOperator` is `flag`. -/
def operands (flag : Bool) : Depex → Option (List ℤ)
  | .nil => some []
  | .operator _ rest => operands flag rest
  | .word word rest => do
    let value ← ev.wordValue word
    let values ← operands flag rest
    return (if flag then negate value else value) :: values
  | .group opener subExpression rest => do
    let flag' := flag || opener.ifForm
    let value ← combine subExpression (← operands false subExpression)
    let values ← operands flag' rest
    return (if flag' && ev.patched opener then negate value else value) :: values

def evaluateExpression (expression : Depex) : Option ℤ := do
  combine expression (← ev.operands combine false expression)

/-! ### The structure of an expression -/

def wordMeaning (word : Text) : Option ℤ :=
  if isNumber word || isHexNotation word then literal word else ev.getValue word

/-- The values of the operands, where nothing but a group of one of the three forms is negated. -/
def structural : Depex → Option (List ℤ)
  | .nil => some []
  | .operator _ rest => structural rest
  | .word word rest => do
    let value ← ev.wordMeaning word
    let values ← structural rest
    return value :: values
  | .group opener subExpression rest => do
    let value ← combine subExpression (← structural subExpression)
    let values ← structural rest
    return (if opener.ifForm then negate value else value) :: values

def meaning (expression : Depex) : Option ℤ := do
  combine expression (← ev.structural combine expression)

/-! ### Where the two agree -/

/-- Every word has a value. -/
def Readable : Depex → Prop
  | .nil => True
  | .operator _ rest => Readable rest
  | .word word rest => ev.wordValue word ≠ none ∧ Readable rest
  | .group _ subExpression rest => Readable subExpression ∧ Readable rest

/-- No number is read as octal, and only groups of the three forms come after such a group in the
same expression, or what is pushed elsewhere. -/
def Undisturbed (flag : Bool) : Depex → Prop
  | .nil => True
  | .operator _ rest => Undisturbed flag rest
  | .word word rest => flag = false ∧ Plain word ∧ Undisturbed flag rest
  | .group opener subExpression rest =>
    Undisturbed false subExpression ∧
      (opener.ifForm = true ∨ flag = false ∨ ev.patched opener = false) ∧
      Undisturbed (flag || opener.ifForm) rest

theorem wordMeaning_eq {word : Text} (h : Plain word) :
    ev.wordMeaning word = ev.wordValue word := by
  unfold wordMeaning wordValue
  split_ifs with hlit
  · exact (stoi_eq_literal (by simpa using hlit) h).symm
  · rfl

theorem wordMeaning_eq_none {word : Text} (h : ev.wordValue word = none) :
    ev.wordMeaning word = none := by
  unfold wordMeaning
  unfold wordValue at h
  split_ifs with hlit
  · rw [if_pos hlit] at h
    exact literal_eq_none (by simpa using hlit) h
  · rwa [if_neg hlit] at h

theorem plain_of_wordMeaning {word : Text} {v : ℤ} (hvalue : ev.wordValue word = some v)
    (hmeaning : ev.wordMeaning word = some v) : Plain word := by
  intro hnum
  have hlit : (isNumber word || isHexNotation word) = true := by simp [hnum]
  rw [wordValue, if_pos hlit] at hvalue
  rw [wordMeaning, if_pos hlit] at hmeaning
  exact plain_of_stoi_eq hnum hvalue hmeaning hnum

theorem wordMeaning_ne_negate {word : Text} {v : ℤ} (hvalue : ev.wordValue word = some v) :
    ev.wordMeaning word ≠ some (negate v) := by
  intro hmeaning
  have hnegate : negate v = 0 ∧ v ≠ 0 ∨ negate v = 1 ∧ v = 0 := by
    unfold negate
    split_ifs with h <;> simp [h]
  by_cases hplain : Plain word
  · rw [wordMeaning_eq ev hplain, hvalue, Option.some.injEq] at hmeaning
    omega
  · have hnum : isNumber word = true := (Classical.not_imp.mp hplain).1
    rw [wordMeaning, if_pos (by simp [hnum])] at hmeaning
    have h8 := eight_le_literal hplain hmeaning
    omega

/-- What an operand of a group pushes in an undisturbed expression. -/
theorem pushed_eq {opener : Opener} {flag : Bool} (value : ℤ)
    (h : opener.ifForm = true ∨ flag = false ∨ ev.patched opener = false) :
    (if (flag || opener.ifForm) && ev.patched opener then negate value else value) =
      if opener.ifForm then negate value else value := by
  cases opener <;> cases flag <;> simp_all [Opener.ifForm, patched]

theorem operands_eq_structural {expression : Depex} {flag : Bool}
    (h : ev.Undisturbed flag expression) :
    ev.operands combine flag expression = ev.structural combine expression := by
  induction expression generalizing flag with
  | nil => rfl
  | operator _ rest ih => exact ih h
  | word word rest ih =>
    obtain ⟨rfl, hplain, hrest⟩ := h
    simp only [operands, structural, wordMeaning_eq ev hplain, ih hrest, Bool.false_eq_true,
      if_false]
  | group opener subExpression rest ihsub ihrest =>
    obtain ⟨hsub, hopener, hrest⟩ := h
    simp only [operands, structural, ihsub hsub, ihrest hrest, pushed_eq ev _ hopener]

/-- An expression with a word that has no value has no value either way. -/
theorem none_of_not_readable {expression : Depex} (h : ¬ ev.Readable expression) (flag : Bool) :
    ev.operands combine flag expression = none ∧ ev.structural combine expression = none := by
  induction expression generalizing flag with
  | nil => exact absurd trivial h
  | operator _ rest ih => exact ih h flag
  | word word rest ih =>
    by_cases hword : ev.wordValue word = none
    · simp [operands, structural, hword, wordMeaning_eq_none ev hword]
    · have hrest : ¬ ev.Readable rest := fun hrest => h ⟨hword, hrest⟩
      simp [operands, structural, (ih hrest flag).1, (ih hrest flag).2]
  | group opener subExpression rest ihsub ihrest =>
    by_cases hsub : ev.Readable subExpression
    · have hrest : ¬ ev.Readable rest := fun hrest => h ⟨hsub, hrest⟩
      simp [operands, structural, (ihrest hrest _).1, (ihrest hrest flag).2]
    · simp [operands, structural, (ihsub hsub false).1, (ihsub hsub false).2]

/-! ### An operator stack that tells the expressions apart -/

/-- The operands of an expression where every sub-expression has the value 5. -/
def expected : Depex → Option (List ℤ)
  | .nil => some []
  | .operator _ rest => expected rest
  | .word word rest => do
    let value ← ev.wordMeaning word
    let values ← expected rest
    return value :: values
  | .group opener subExpression rest => do
    let _ ← expected subExpression
    let values ← expected rest
    return (if opener.ifForm then 0 else 5) :: values

/-- 5 for the operands that are expected, else 0. -/
def probe : Combine := fun expression values =>
  some (if ev.expected expression = some values then 5 else 0)

theorem structural_probe (expression : Depex) :
    ev.structural ev.probe expression = ev.expected expression := by
  induction expression with
  | nil => rfl
  | operator _ rest ih => exact ih
  | word word rest ih => simp only [structural, expected, ih]
  | group opener subExpression rest ihsub ihrest =>
    cases hsub : ev.expected subExpression with
    | none => simp [structural, expected, ihsub, hsub]
    | some values => cases opener <;> simp [structural, expected, ihsub, ihrest, hsub, probe,
        Opener.ifForm, negate]

/-- What is pushed for a group is what is expected only if its sub-expression has the value 5 and
nothing is negated that should not be. -/
theorem pushed_probe {opener : Opener} {flag : Bool} {p : Prop} [Decidable p]
    (h : (if opener.ifForm then (0 : ℤ) else 5) =
      if (flag || opener.ifForm) && ev.patched opener then negate (if p then 5 else 0)
      else if p then 5 else 0) :
    p ∧ (opener.ifForm = true ∨ flag = false ∨ ev.patched opener = false) := by
  have hform : opener.ifForm = true → ev.patched opener = true := ev.patched_of_ifForm
  cases hopener : opener.ifForm <;> cases flag <;> cases hpatched : ev.patched opener <;>
    by_cases hp : p <;> simp_all [negate]

theorem undisturbed_of_probe {expression : Depex} (hread : ev.Readable expression) (flag : Bool) :
    ∃ values, ev.operands ev.probe flag expression = some values ∧
      (ev.expected expression = some values → ev.Undisturbed flag expression) := by
  induction expression generalizing flag with
  | nil => exact ⟨[], rfl, fun _ => trivial⟩
  | operator _ rest ih => exact ih hread flag
  | word word rest ih =>
    obtain ⟨hword, hrest⟩ := hread
    obtain ⟨value, hvalue⟩ := Option.ne_none_iff_exists'.mp hword
    obtain ⟨values, hvalues, hundisturbed⟩ := ih hrest flag
    refine ⟨(if flag then negate value else value) :: values, ?_, fun h => ?_⟩
    · simp [operands, hvalue, hvalues]
    · obtain ⟨value', hvalue', values', hvalues', heq⟩ : ∃ value',
          ev.wordMeaning word = some value' ∧ ∃ values', ev.expected rest = some values' ∧
            value' :: values' = (if flag then negate value else value) :: values := by
        simpa [expected, Option.bind_eq_some_iff] using h
      obtain ⟨rfl, rfl⟩ := List.cons.inj heq
      cases flag with
      | false => exact ⟨rfl, ev.plain_of_wordMeaning hvalue hvalue', hundisturbed hvalues'⟩
      | true => exact absurd (hvalue' : _ = some (negate value)) (ev.wordMeaning_ne_negate hvalue)
  | group opener subExpression rest ihsub ihrest =>
    obtain ⟨hsub, hrest⟩ := hread
    obtain ⟨inner, hinner, hsubundisturbed⟩ := ihsub hsub false
    obtain ⟨values, hvalues, hundisturbed⟩ := ihrest hrest (flag || opener.ifForm)
    refine ⟨_, by simp only [operands, hinner, hvalues, probe]; rfl, fun h => ?_⟩
    obtain ⟨inner', hinner', values', hvalues', heq⟩ : ∃ inner', ev.expected subExpression =
        some inner' ∧ ∃ values', ev.expected rest = some values' ∧
          (if opener.ifForm then 0 else 5) :: values' = _ := by
      simpa only [expected, Option.bind_eq_bind, Option.bind_eq_some_iff, Option.pure_def,
        Option.some.injEq] using h
    obtain ⟨hhead, rfl⟩ := List.cons.inj heq
    obtain ⟨hexpected, hopener⟩ := ev.pushed_probe hhead
    exact ⟨hsubundisturbed hexpected, hopener, hundisturbed hvalues'⟩

/-- The values of the words tell the two apart, whatever the knobs are. -/
theorem evaluateExpression_eq_meaning_iff (expression : Depex) :
    (∀ combine, ev.evaluateExpression combine expression = ev.meaning combine expression) ↔
      (ev.Readable expression → ev.Undisturbed false expression) := by
  constructor
  · intro h hread
    obtain ⟨values, hvalues, hundisturbed⟩ := ev.undisturbed_of_probe hread false
    have hprobe := h ev.probe
    rw [evaluateExpression, meaning, hvalues, structural_probe] at hprobe
    cases hexpected : ev.expected expression with
    | none => simp [hexpected, probe] at hprobe
    | some values' =>
      have heq : values' = values := by simpa [hexpected, probe] using hprobe
      exact hundisturbed (by rw [hexpected, heq])
  · intro h combine
    by_cases hread : ev.Readable expression
    · rw [evaluateExpression, meaning, ev.operands_eq_structural combine (h hread)]
    · obtain ⟨hoperands, hstructural⟩ := ev.none_of_not_readable combine hread false
      rw [evaluateExpression, meaning, hoperands, hstructural]

end Evaluator

end MetaCommon.BiosXml
