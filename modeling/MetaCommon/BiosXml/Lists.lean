import MetaCommon.BiosXml.Depex

/-!
# Value lists

A list of values after a comparison is rewritten into an expression of its own, which compares the
variable with one value after the other. The separator is chosen by the text of the comparison.
-/

namespace MetaCommon.BiosXml

inductive Comparison
  | EQU
  | NEQ

/-- An operator as it stands before a list. -/
structure ListOperator where
  comparison : Comparison
  underscored : Bool

def Comparison.text : Comparison → Text
  | EQU => "EQU".toList
  | NEQ => "NEQ".toList

def ListOperator.operatorStr (op : ListOperator) : Text :=
  if op.underscored then '_' :: op.comparison.text ++ ['_'] else op.comparison.text

/-- The words ` OR ` and ` AND ` that the expansion writes before a value. -/
def separators (operatorStr : Text) : List Text :=
  (if operatorStr = "_EQU_".toList ∨ operatorStr = "EQU".toList then ["OR".toList] else []) ++
    if operatorStr = "_NEQ_".toList ∨ operatorStr = "NEQ".toList then ["AND".toList] else []

/-- `( name operator value )`, with what follows it. -/
def compare (name operatorStr value : Text) (rest : Depex) : Depex :=
  .group .parenthesis (.word name (.operator operatorStr (.word value .nil))) rest

/-- The sub-expression for a list, from the word with the number `cnt` on. The first value is word
3. -/
def listExpression (name operatorStr : Text) : ℕ → List Text → Depex
  | _, [] => .nil
  | cnt, value :: values =>
    let later := listExpression name operatorStr (cnt + 1) values
    let comparison := compare name operatorStr value later
    if 3 < cnt then (separators operatorStr).foldr .operator comparison else comparison

/-- An expression of the BIOS XML file. -/
inductive Expression
  | nil
  | operator (op : Text) (rest : Expression)
  | word (word : Text) (rest : Expression)
  | group (opener : Opener) (subExpression rest : Expression)
  | list (name : Text) (op : ListOperator) (values : List Text) (rest : Expression)

def Expression.expand : Expression → Depex
  | .nil => .nil
  | .operator op rest => .operator op rest.expand
  | .word w rest => .word w rest.expand
  | .group opener subExpression rest => .group opener subExpression.expand rest.expand
  | .list name op values rest =>
    .group .list (listExpression name op.operatorStr 3 values) rest.expand

/-! ### What a list means -/

/-- The operator between the comparisons with the values of a list. -/
def Comparison.joint : Comparison → Text
  | EQU => "OR".toList
  | NEQ => "AND".toList

/-- The comparisons with each of the values, joined by one operator. -/
def comparisons (name operatorStr joint : Text) : List Text → Depex
  | [] => .nil
  | [value] => compare name operatorStr value .nil
  | value :: values =>
    compare name operatorStr value (.operator joint (comparisons name operatorStr joint values))

def Expression.structure : Expression → Depex
  | .nil => .nil
  | .operator op rest => .operator op rest.structure
  | .word w rest => .word w rest.structure
  | .group opener subExpression rest => .group opener subExpression.structure rest.structure
  | .list name op values rest =>
    .group .list (comparisons name op.operatorStr op.comparison.joint values) rest.structure

theorem separators_operatorStr (op : ListOperator) :
    separators op.operatorStr = [op.comparison.joint] := by
  obtain ⟨comparison, underscored⟩ := op
  cases comparison <;> cases underscored <;> decide

theorem listExpression_eq (name : Text) (op : ListOperator) (values : List Text) :
    listExpression name op.operatorStr 3 values =
      comparisons name op.operatorStr op.comparison.joint values := by
  have hlater : ∀ values cnt, 3 < cnt → values ≠ [] →
      listExpression name op.operatorStr cnt values =
        .operator op.comparison.joint
          (comparisons name op.operatorStr op.comparison.joint values) := by
    intro values
    induction values with
    | nil => exact fun _ _ hne => absurd rfl hne
    | cons value values ih =>
      intro cnt hcnt _
      rw [listExpression, if_pos hcnt, separators_operatorStr]
      cases values with
      | nil => rfl
      | cons next values => rw [ih (cnt + 1) (by omega) (List.cons_ne_nil _ _)]; rfl
  cases values with
  | nil => rfl
  | cons value values =>
    rw [listExpression, if_neg (lt_irrefl 3)]
    cases values with
    | nil => rfl
    | cons next values => rw [hlater _ 4 (by omega) (List.cons_ne_nil _ _)]; rfl

theorem Expression.expand_eq_structure (expression : Expression) :
    expression.expand = expression.structure := by
  induction expression with
  | nil => rfl
  | operator _ rest ih => simp only [expand, Expression.structure, ih]
  | word _ rest ih => simp only [expand, Expression.structure, ih]
  | group _ subExpression rest ihsub ihrest =>
    simp only [expand, Expression.structure, ihsub, ihrest]
  | list name op values rest ih =>
    simp only [expand, Expression.structure, listExpression_eq, ih]

/-- The evaluator computes what the structure of an expression says, for any values of the words and
any operators, exactly if no operand that is consulted after a `Sif(`, `Gif(` or `Dif(` group of the
same expression is anything but such a group, and no number of 8 or more begins with a zero. -/
theorem Evaluator.evaluateExpression_right_iff (ev : Evaluator) (expression : Expression) :
    (∀ combine, ev.evaluateExpression combine expression.expand =
        ev.meaning combine expression.structure) ↔
      (ev.Readable expression.structure → ev.Undisturbed false expression.structure) := by
  rw [expression.expand_eq_structure]
  exact ev.evaluateExpression_eq_meaning_iff expression.structure

/-- Operators that are all `OR`. -/
def disjunction : Combine := fun _ values => some (if values.any (· ≠ 0) then 1 else 0)

/-- `Sif( A ) OR B`, where both knobs are 1. -/
theorem not_evaluateExpression_right :
    ¬ ∀ (ev : Evaluator) (combine : Combine) (expression : Expression),
      ev.evaluateExpression combine expression.expand =
        ev.meaning combine expression.structure := by
  intro h
  have hcase := h ⟨fun _ => some 1, false, false⟩ disjunction
    (.group .sif (.word "A".toList .nil) (.operator "OR".toList (.word "B".toList .nil)))
  exact absurd hcase (by decide +kernel)

end MetaCommon.BiosXml
