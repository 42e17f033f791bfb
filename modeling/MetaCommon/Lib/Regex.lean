import Mathlib.Data.List.Infix
import Mathlib.Tactic.Common

/-!
# Regular expressions as `std::regex` has them

The default grammar is that of ECMAScript, with the classes of brackets that C++ adds in the "C"
locale; a character is one of `char`. Names of collating elements have a single character. A pattern
that the grammar does not have is an error. A matcher gives the states in which it can go on, in
their order of preference. The parser and the loops are given enough steps: each takes a character
of the pattern or, but for the least number of rounds, of the text.
-/

namespace Regex

/-! ### Matching -/

inductive Node
  | empty
  | one (accepts : Char → Bool)
  | lineBegin
  | lineEnd
  | wordBoundary (negated : Bool)
  | lookahead (negated : Bool) (r : Node)
  | group (n : ℕ) (r : Node)
  | backreference (n : ℕ)
  | cat (r t : Node)
  | alt (r t : Node)
  /-- `lo` and `hi` are how many groups begin before the node and before its end. -/
  | loop (least : ℕ) (most : Option ℕ) (greedy : Bool) (lo hi : ℕ) (r : Node)

/-- The character before the place, the text behind it, and what the groups have captured. -/
structure State where
  previous : Option Char
  after : List Char
  captures : List (ℕ × List Char)

def isWord (c : Char) : Bool := c.isAlphanum || c == '_'

namespace State

/-- The text is gone on by so many characters. -/
def advance (s : State) (n : ℕ) : State :=
  { s with previous := (s.after.take n).getLast?.or s.previous, after := s.after.drop n }

def atWordBoundary (s : State) : Bool :=
  (s.previous.any isWord) != (s.after.head?.any isWord)

/-- The groups from `lo` on up to `hi` have captured nothing. -/
def clear (s : State) (lo hi : ℕ) : State :=
  { s with captures := s.captures.filter fun c => c.1 ≤ lo || hi < c.1 }

end State

/-- The rounds of a loop. One that takes nothing ends it, once there have been enough. -/
def rounds (round : State → List State) (greedy : Bool) : ℕ → ℕ → Option ℕ → State → List State
  | 0, _, _, _ => []
  | _ + 1, _, some 0, s => [s]
  | steps + 1, least, most, s =>
    let again := (round s).flatMap fun t =>
      if least = 0 ∧ t.after.length = s.after.length then []
      else rounds round greedy steps (least - 1) (most.map (· - 1)) t
    if least ≠ 0 then again
    else if greedy then again ++ [s]
    else s :: again

def run : Node → State → List State
  | .empty, s => [s]
  | .one accepts, s => match s.after with
    | c :: _ => if accepts c then [s.advance 1] else []
    | [] => []
  | .lineBegin, s => if s.previous.isNone then [s] else []
  | .lineEnd, s => if s.after.isEmpty then [s] else []
  | .wordBoundary negated, s => if s.atWordBoundary != negated then [s] else []
  | .lookahead negated r, s => match run r s with
    | [] => if negated then [s] else []
    | t :: _ => if negated then [] else [{ s with captures := t.captures }]
  | .group n r, s => (run r s).map fun t =>
    { t with captures := (n, s.after.take (s.after.length - t.after.length)) :: t.captures }
  | .backreference n, s => match s.captures.lookup n with
    | none => [s]
    | some text => if text.isPrefixOf s.after then [s.advance text.length] else []
  | .cat r t, s => (run r s).flatMap (run t)
  | .alt r t, s => run r s ++ run t s
  | .loop least most greedy lo hi r, s =>
    rounds (fun s => run r (s.clear lo hi)) greedy (least + s.after.length + 1) least most s

/-- There is a match from some place of the text on. -/
def found (r : Node) : Option Char → List Char → Bool
  | previous, [] => !(run r ⟨previous, [], []⟩).isEmpty
  | previous, c :: text => !(run r ⟨previous, c :: text, []⟩).isEmpty || found r (some c) text

/-! ### Patterns -/

/-- The characters that do not stand for themselves. -/
def special : List Char := "^$\\.*+?()[]\x7b\x7d|".toList

def classOf : String → Option (Char → Bool)
  | "alnum" => some Char.isAlphanum
  | "alpha" => some Char.isAlpha
  | "blank" => some fun c => c == ' ' || c == '\t'
  | "cntrl" => some fun c => c.toNat < 32 || c.toNat == 127
  | "digit" => some Char.isDigit
  | "d" => some Char.isDigit
  | "graph" => some fun c => 33 ≤ c.toNat && c.toNat < 127
  | "lower" => some Char.isLower
  | "print" => some fun c => 32 ≤ c.toNat && c.toNat < 127
  | "punct" => some fun c => 33 ≤ c.toNat && c.toNat < 127 && !c.isAlphanum
  | "space" => some fun c => c == ' ' || (9 ≤ c.toNat && c.toNat ≤ 13)
  | "s" => some fun c => c == ' ' || (9 ≤ c.toNat && c.toNat ≤ 13)
  | "upper" => some Char.isUpper
  | "w" => some isWord
  | "xdigit" => some fun c => c.isDigit || (c.toLower.toNat ≥ 97 && c.toLower.toNat ≤ 102)
  | _ => none

def hexDigit (c : Char) : Option ℕ :=
  if c.isDigit then some (c.toNat - 48)
  else if 97 ≤ c.toLower.toNat ∧ c.toLower.toNat ≤ 102 then some (c.toLower.toNat - 87)
  else none

def hexCode (digits : List Char) : Option Char :=
  (digits.mapM hexDigit).map fun values => Char.ofNat (values.foldl (16 * · + ·) 0)

/-- `\d` and the like. -/
def classEscape : List Char → Option ((Char → Bool) × List Char)
  | c :: cs =>
    if c == 'd' || c == 's' || c == 'w' then
      (classOf (String.singleton c)).map fun accepts => (accepts, cs)
    else if c == 'D' || c == 'S' || c == 'W' then
      (classOf (String.singleton c.toLower)).map fun accepts => (fun d => !accepts d, cs)
    else none
  | [] => none

/-- A backslash and what follows stand for one character. -/
def characterEscape : List Char → Option (Char × List Char)
  | 'f' :: cs => some ('\x0c', cs)
  | 'n' :: cs => some ('\n', cs)
  | 'r' :: cs => some ('\r', cs)
  | 't' :: cs => some ('\t', cs)
  | 'v' :: cs => some ('\x0b', cs)
  | 'c' :: c :: cs => if c.isAlpha then some (Char.ofNat (c.toNat % 32), cs) else none
  | 'x' :: c :: d :: cs => (hexCode [c, d]).map fun code => (code, cs)
  | 'u' :: c :: d :: e :: f :: cs => (hexCode [c, d, e, f]).map fun code => (code, cs)
  | '0' :: cs => if cs.head?.any Char.isDigit then none else some ('\x00', cs)
  | c :: cs => if isWord c then none else some (c, cs)
  | [] => none

/-- A character of a bracket, or a class. -/
def classAtom : List Char → Option ((Char ⊕ (Char → Bool)) × List Char)
  | '[' :: ':' :: cs =>
    match cs.dropWhile (· ≠ ':') with
    | ':' :: ']' :: rest =>
      (classOf (String.ofList (cs.takeWhile (· ≠ ':')))).map fun accepts => (.inr accepts, rest)
    | _ => none
  | '[' :: '=' :: c :: '=' :: ']' :: cs => some (.inr (· == c), cs)
  | '[' :: '.' :: c :: '.' :: ']' :: cs => some (.inl c, cs)
  | '\\' :: 'b' :: cs => some (.inl '\x08', cs)
  | '\\' :: cs => match classEscape cs with
    | some (accepts, cs) => some (.inr accepts, cs)
    | none => (characterEscape cs).map fun c => (.inl c.1, c.2)
  | c :: cs => some (.inl c, cs)
  | [] => none

/-- What follows `[` or `[^`, to the end of the bracket. -/
def classRanges : ℕ → List Char → Option ((Char → Bool) × List Char)
  | 0, _ => none
  | _ + 1, ']' :: cs => some (fun _ => false, cs)
  | steps + 1, cs => do
    let (a, cs) ← classAtom cs
    let (accepts, cs) ← match a, cs with
      | .inl a, '-' :: ']' :: cs => some ((· == a), '-' :: ']' :: cs)
      | .inr accepts, '-' :: ']' :: cs => some (accepts, '-' :: ']' :: cs)
      | .inl a, '-' :: cs => match classAtom cs with
        | some (.inl b, cs) => if a ≤ b then some ((fun c => a ≤ c && c ≤ b), cs) else none
        | _ => none
      | .inr _, '-' :: _ => none
      | .inl a, cs => some ((· == a), cs)
      | .inr accepts, cs => some (accepts, cs)
    let (others, cs) ← classRanges steps cs
    return (fun c => accepts c || others c, cs)

def decimal (cs : List Char) : ℕ := cs.foldl (fun n c => 10 * n + (c.toNat - 48)) 0

/-- The least and the greatest number of rounds, if there is a quantifier. -/
def quantifier : List Char → Option (Option (ℕ × Option ℕ) × List Char)
  | '*' :: cs => some (some (0, none), cs)
  | '+' :: cs => some (some (1, none), cs)
  | '?' :: cs => some (some (0, some 1), cs)
  | '\x7b' :: cs =>
    let least := cs.takeWhile Char.isDigit
    if least = [] then none
    else match cs.dropWhile Char.isDigit with
      | '\x7d' :: cs => some (some (decimal least, some (decimal least)), cs)
      | ',' :: '\x7d' :: cs => some (some (decimal least, none), cs)
      | ',' :: cs =>
        let most := cs.takeWhile Char.isDigit
        match cs.dropWhile Char.isDigit with
        | '\x7d' :: cs =>
          if most = [] ∨ decimal most < decimal least then none
          else some (some (decimal least, some (decimal most)), cs)
        | _ => none
      | _ => none
  | cs => some (none, cs)

section Terms

-- a parser counts the groups that have begun
variable (disjunction : ℕ → List Char → Option (Node × ℕ × List Char))

/-- What follows an opening bracket, and the closing one. -/
def closed (groups : ℕ) (cs : List Char) : Option (Node × ℕ × List Char) :=
  match disjunction groups cs with
  | some (r, groups, ')' :: cs) => some (r, groups, cs)
  | _ => none

def atom (groups : ℕ) : List Char → Option (Node × ℕ × List Char)
  | '.' :: cs => some (.one fun c => c ≠ '\n' && c ≠ '\r', groups, cs)
  | '(' :: '?' :: ':' :: cs => closed disjunction groups cs
  | '(' :: '?' :: '=' :: cs =>
    (closed disjunction groups cs).map fun (r, rest) => (.lookahead false r, rest)
  | '(' :: '?' :: '!' :: cs =>
    (closed disjunction groups cs).map fun (r, rest) => (.lookahead true r, rest)
  | '(' :: cs =>
    (closed disjunction (groups + 1) cs).map fun (r, rest) => (.group (groups + 1) r, rest)
  | '[' :: '^' :: cs =>
    (classRanges (cs.length + 1) cs).map fun (accepts, cs) =>
      (.one fun c => !accepts c, groups, cs)
  | '[' :: cs =>
    (classRanges (cs.length + 1) cs).map fun (accepts, cs) => (.one accepts, groups, cs)
  | '\\' :: cs =>
    match classEscape cs with
    | some (accepts, cs) => some (.one accepts, groups, cs)
    | none =>
      if cs.head?.any fun c => c.isDigit && c ≠ '0' then
        some (.backreference (decimal (cs.takeWhile Char.isDigit)), groups,
          cs.dropWhile Char.isDigit)
      else (characterEscape cs).map fun (c, cs) => (.one (· == c), groups, cs)
  | c :: cs => if c ∈ special then none else some (.one (· == c), groups, cs)
  | [] => none

def term (groups : ℕ) : List Char → Option (Node × ℕ × List Char)
  | '^' :: cs => some (.lineBegin, groups, cs)
  | '$' :: cs => some (.lineEnd, groups, cs)
  | '\\' :: 'b' :: cs => some (.wordBoundary false, groups, cs)
  | '\\' :: 'B' :: cs => some (.wordBoundary true, groups, cs)
  | cs => do
    let (r, groups', cs) ← atom disjunction groups cs
    match ← quantifier cs with
    | (none, cs) => return (r, groups', cs)
    | (some (least, most), '?' :: cs) =>
      return (.loop least most false groups groups' r, groups', cs)
    | (some (least, most), cs) => return (.loop least most true groups groups' r, groups', cs)

def alternative : ℕ → ℕ → List Char → Option (Node × ℕ × List Char)
  | 0, _, _ => none
  | _ + 1, groups, [] => some (.empty, groups, [])
  | _ + 1, groups, '|' :: cs => some (.empty, groups, '|' :: cs)
  | _ + 1, groups, ')' :: cs => some (.empty, groups, ')' :: cs)
  | steps + 1, groups, cs => do
    let (r, groups, cs) ← term disjunction groups cs
    let (t, groups, cs) ← alternative steps groups cs
    return (.cat r t, groups, cs)

end Terms

def disjunction : ℕ → ℕ → List Char → Option (Node × ℕ × List Char)
  | 0, _, _ => none
  | steps + 1, groups, cs => do
    let (r, groups, cs) ← alternative (disjunction steps) (cs.length + 1) groups cs
    match cs with
    | '|' :: cs => do
      let (t, groups, cs) ← disjunction steps groups cs
      return (.alt r t, groups, cs)
    | cs => return (r, groups, cs)

/-- There are as many groups as are referred to. -/
def Node.refersTo (groups : ℕ) : Node → Bool
  | .backreference n => n ≤ groups
  | .lookahead _ r => r.refersTo groups
  | .group _ r => r.refersTo groups
  | .cat r t => r.refersTo groups && t.refersTo groups
  | .alt r t => r.refersTo groups && t.refersTo groups
  | .loop _ _ _ _ _ r => r.refersTo groups
  | _ => true

/-- `none` is an error of the pattern. -/
def compile (pattern : List Char) : Option Node :=
  match disjunction (pattern.length + 1) 0 pattern with
  | some (r, groups, []) => if r.refersTo groups then some r else none
  | _ => none

/-- `std::regex_search`, where the pattern is constructed first. -/
def search (pattern text : String) : Option Bool :=
  (compile pattern.toList).map fun r => found r none text.toList

/-! ### Plain patterns -/

/-- The node of a pattern of characters that stand for themselves, up to the end of the text. -/
def literal : List Char → Node
  | [] => .cat .lineEnd .empty
  | c :: cs => .cat (.one (· == c)) (literal cs)

variable {cs : List Char}

theorem quantifier_plain (h : ∀ c ∈ cs.head?, c ∉ special ∨ c = '$') :
    quantifier cs = some (none, cs) := by
  unfold quantifier
  split
  case h_5 => rfl
  all_goals exact absurd (h _ rfl) (by decide)

section Plain

variable {disjunction : ℕ → List Char → Option (Node × ℕ × List Char)} {groups : ℕ} {c : Char}

theorem atom_plain (hc : c ∉ special) :
    atom disjunction groups (c :: cs) = some (.one (· == c), groups, cs) := by
  unfold atom
  split
  case h_9 c' cs' heq =>
    obtain ⟨rfl, rfl⟩ := List.cons.inj heq
    rw [if_neg hc]
  case h_10 heq => exact absurd heq (List.cons_ne_nil _ _)
  all_goals
    rename_i heq
    obtain ⟨rfl, -⟩ := List.cons.inj heq
    exact absurd (by decide) hc

theorem term_plain (hc : c ∉ special) (h : ∀ d ∈ cs.head?, d ∉ special ∨ d = '$') :
    term disjunction groups (c :: cs) = some (.one (· == c), groups, cs) := by
  unfold term
  split
  case h_5 =>
    rw [atom_plain hc]
    simp [quantifier_plain h]
  all_goals
    rename_i heq
    obtain ⟨rfl, -⟩ := List.cons.inj heq
    exact absurd (by decide) hc

theorem head?_plain (hcs : ∀ c ∈ cs, c ∉ special) :
    ∀ d ∈ (cs ++ ['$']).head?, d ∉ special ∨ d = '$' := by
  intro d hd
  cases cs with
  | nil => exact .inr (Option.some.inj hd).symm
  | cons c cs =>
    obtain rfl : c = d := Option.some.inj hd
    exact .inl (hcs c List.mem_cons_self)

theorem alternative_plain (hcs : ∀ c ∈ cs, c ∉ special) {steps : ℕ}
    (hsteps : cs.length + 1 < steps) :
    alternative disjunction steps groups (cs ++ ['$']) = some (literal cs, groups, []) := by
  induction cs generalizing steps with
  | nil =>
    match steps, hsteps with
    | _ + 2, _ => rfl
  | cons c cs ih =>
    cases steps with
    | zero => exact absurd hsteps (Nat.not_lt_zero _)
    | succ steps =>
      have hc : c ∉ special := hcs c List.mem_cons_self
      have hrest : ∀ d ∈ cs, d ∉ special := fun d hd => hcs d (List.mem_cons_of_mem c hd)
      rw [List.cons_append]
      unfold alternative
      split
      case h_5 =>
        rename_i heq _ _ _
        obtain rfl := Nat.succ.inj heq
        rw [term_plain hc (head?_plain hrest)]
        simp [ih hrest (Nat.lt_of_succ_lt_succ hsteps), literal]
      all_goals
        rename_i heq
        first
        | exact absurd heq (List.cons_ne_nil _ _)
        | exact absurd heq (Nat.succ_ne_zero _)
        | obtain ⟨rfl, -⟩ := List.cons.inj heq
          exact absurd (by decide) hc

theorem refersTo_literal (cs : List Char) (groups : ℕ) : (literal cs).refersTo groups = true := by
  induction cs with
  | nil => rfl
  | cons c cs ih => simpa [literal, Node.refersTo] using ih

theorem compile_plain (hcs : ∀ c ∈ cs, c ∉ special) :
    compile (cs ++ ['$']) = some (literal cs) := by
  have hdisjunction : disjunction ((cs ++ ['$']).length + 1) 0 (cs ++ ['$']) =
      some (literal cs, 0, []) := by
    unfold disjunction
    rw [alternative_plain hcs (by simp)]
    rfl
  unfold compile
  rw [hdisjunction]
  exact if_pos (refersTo_literal cs 0)

/-! ### What a plain pattern finds -/

theorem run_literal_isEmpty (cs : List Char) (s : State) :
    (run (literal cs) s).isEmpty = false ↔ s.after = cs := by
  induction cs generalizing s with
  | nil =>
    simp only [literal, run]
    cases s.after <;> simp
  | cons c cs ih =>
    simp only [literal, run]
    cases hafter : s.after with
    | nil => simp
    | cons d text =>
      by_cases hd : d = c
      · have hih := ih (s.advance 1)
        simp only [State.advance, hafter, List.drop_succ_cons, List.drop_zero] at hih
        simpa [hd, State.advance, hafter] using hih
      · simp [hd]

theorem found_literal_iff (cs text : List Char) (previous : Option Char) :
    found (literal cs) previous text = true ↔ cs <:+ text := by
  induction text generalizing previous with
  | nil =>
    unfold found
    rw [Bool.not_eq_true', run_literal_isEmpty, List.suffix_nil]
    exact eq_comm
  | cons c text ih =>
    unfold found
    rw [Bool.or_eq_true, Bool.not_eq_true', run_literal_isEmpty, ih, List.suffix_cons_iff]
    exact or_congr_left eq_comm

/-- Characters that stand for themselves, up to the end, are found exactly if the text ends with
them. -/
theorem search_plain {pattern text : String} (h : ∀ c ∈ pattern.toList, c ∉ special) :
    search (pattern ++ "$") text = some (decide (pattern.toList <:+ text.toList)) := by
  unfold search
  rw [String.toList_append, show "$".toList = ['$'] from rfl, compile_plain h, Option.map_some,
    Option.some_inj, Bool.eq_iff_iff, found_literal_iff, decide_eq_true_iff]

end Plain

end Regex
