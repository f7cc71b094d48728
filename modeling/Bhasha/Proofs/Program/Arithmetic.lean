import Bhasha.Proofs.Evaluation.Course
import Bhasha.Proofs.Parser.Acceptance
import Bhasha.Proofs.Token.Layout
import Mathlib.Data.Int.ModEq

/-!
# Arithmetic in the usual notation

An arithmetic tree is made of numbers, signs and the four operations.  It is
written in the usual notation: products bind more tightly than sums, signs more
tightly than products, operations of one level are grouped from the left, and
parentheses stand only where another tree would be read without them.

A program that consists of such a text is read as the tree and gives its value
in the arithmetic of 64 bits: every intermediate value is wrapped around, and a
quotient goes toward zero.  Without divisions this is the exact value of the
tree, wrapped around once.  The only failure is a division by zero.
-/

namespace Bhasha

open Lexeme (ofSymbol)
open Step

/-! ## Trees -/

/-- The operations of arithmetic. -/
inductive Operation where
  | add
  | subtract
  | multiply
  | divide
deriving DecidableEq

/-- A tree of operations and signs over numbers that can be written. -/
inductive Arithmetic where
  | number (value : Fin (2 ^ 63))
  | negate (operand : Arithmetic)
  | apply (operation : Operation) (left right : Arithmetic)

/-- The operator of an operation. -/
def Operation.operator : Operation → BinaryOp
  | .add => .add
  | .subtract => .subtract
  | .multiply => .multiply
  | .divide => .divide

namespace Arithmetic

/-- The expression that a tree is read as. -/
def toExpr : Arithmetic → Expr
  | number value => .integer (.ofNat value)
  | negate operand => .unary .negate operand.toExpr
  | apply operation left right =>
    .binary operation.operator left.toExpr right.toExpr

/-- A tree is another one or stands somewhere inside it. -/
inductive IsPart : Arithmetic → Arithmetic → Prop where
  | refl : IsPart tree tree
  | negate : IsPart part operand → IsPart part (.negate operand)
  | left : IsPart part left → IsPart part (.apply operation left right)
  | right : IsPart part right → IsPart part (.apply operation left right)

end Arithmetic

/-! ## Notation -/

/-- Sums are on the first level and products on the second. -/
def Operation.level : Operation → Nat
  | .add | .subtract => 1
  | .multiply | .divide => 2

namespace Arithmetic

/-- Signs are on the third level and numbers on the last. -/
def level : Arithmetic → Nat
  | number _ => 4
  | negate _ => 3
  | apply operation _ _ => operation.level

/-- A phrase of some level where another one is needed. -/
def enclose (needed level : Nat) (phrase : List Lexeme) : List Lexeme :=
  if level < needed then
    ofSymbol .leftParen :: (phrase ++ [ofSymbol .rightParen])
  else
    phrase

/--
The usual notation of a tree: the right operand of an operation is on a higher
level than the operation, the left one may be on the same.
-/
def phrase : Arithmetic → List Lexeme
  | number value => [⟨.integer, value.val.repr⟩]
  | negate operand =>
    ofSymbol .minus :: enclose 3 operand.level operand.phrase
  | apply operation left right =>
    enclose operation.level left.level left.phrase ++
      ofSymbol operation.operator.symbol ::
        enclose (operation.level + 1) right.level right.phrase

/-- A phrase in parentheses, where they are needed, fits its place. -/
theorem enclose_derives
    {stratum place : Stratum} {needed level : Nat} {phrase : List Lexeme}
    {tree : Expr}
    (derives : Phrase.Expression stratum phrase tree)
    (isLevel : stratum.rank = level + 2)
    (isPlace : place.rank = needed + 2) :
    Phrase.Expression place (enclose needed level phrase) tree := by
  rw [enclose]
  split
  · have tightest : place.rank ≤ Stratum.applied.rank := by
      cases place <;> decide
    exact .tighter tightest (.grouped derives.loosest)
  · next enough =>
    exact .tighter (by omega) derives

theorem derives_number (value : Fin (2 ^ 63)) :
    Phrase.Expression .applied [⟨.integer, value.val.repr⟩]
      (.integer (.ofNat value)) :=
  .integer (Numeral.denotes_repr_iff.2 (Numeral.toInt_ofNat value.isLt))

/-- The notation of a tree derives it, on the stratum of its level. -/
theorem phrase_derives (tree : Arithmetic) :
    ∃ stratum, stratum.rank = tree.level + 2 ∧
      Phrase.Expression stratum tree.phrase tree.toExpr := by
  induction tree with
  | number value => exact ⟨.applied, rfl, derives_number value⟩
  | negate operand induction =>
      rcases induction with ⟨stratum, isLevel, derives⟩
      have inner : Phrase.Expression .signed
          (enclose 3 operand.level operand.phrase) operand.toExpr :=
        enclose_derives derives isLevel rfl
      have whole : Phrase.Expression .signed
          (ofSymbol UnaryOp.negate.symbol ::
            enclose 3 operand.level operand.phrase)
          (.unary .negate operand.toExpr) :=
        .unary inner
      exact ⟨.signed, rfl, whole⟩
  | apply operation left right first second =>
      rcases first with ⟨stratum, isLevel, derives⟩
      rcases second with ⟨stratumRight, isLevelRight, derivesRight⟩
      have isPlace :
          operation.operator.stratum.rank = operation.level + 2 := by
        cases operation <;> rfl
      have above : ∃ tight : Stratum, tight.rank = operation.level + 1 + 2 := by
        cases operation with
        | add | subtract => exact ⟨.product, rfl⟩
        | multiply | divide => exact ⟨.signed, rfl⟩
      rcases above with ⟨tight, isTight⟩
      refine ⟨operation.operator.stratum, isPlace, ?_⟩
      exact .binary (by omega) (enclose_derives derives isLevel isPlace)
        (enclose_derives derivesRight isLevelRight isTight)

end Arithmetic

/-! ## Blanks -/

/-- A text that writes some lexemes in order, with or without blanks. -/
inductive Spaced : List Lexeme → List Char → Prop where
  | nil (gap : List Char) :
      IsGap gap → Spaced [] gap
  | cons {lexeme : Lexeme} {rest : List Lexeme} {text : List Char}
      (gap : List Char) :
      IsGap gap → Spaced rest text →
      Spaced (lexeme :: rest) (gap ++ (lexeme.written.toList ++ text))

/--
Lexemes that are told apart without blanks: each one is read the same whatever
follows, or the next one starts with a separator.
-/
inductive Apart : List Lexeme → Prop where
  | nil : Apart []
  | delimited {lexeme : Lexeme} {rest : List Lexeme} :
      Delimits lexeme.written [lexeme] → Apart rest → Apart (lexeme :: rest)
  | separated {lexeme : Lexeme} {rest : List Lexeme} :
      Spells lexeme.written [lexeme] →
      (∀ next ∈ rest.head?, opensSeparated next.written = true) →
      Apart rest → Apart (lexeme :: rest)

theorem Spaced.separated
    {phrase : List Lexeme} {text : List Char}
    (spaced : Spaced phrase text)
    (opens : ∀ next ∈ phrase.head?, opensSeparated next.written = true) :
    Separated text := by
  cases spaced with
  | nil _ blank =>
      exact fun next member =>
        isSeparator_of_isBlank (blank next (List.mem_of_mem_head? member))
  | @cons lexeme rest text gap blank spaced =>
      cases gap with
      | nil => exact separated_append (opens lexeme rfl) text
      | cons first gap => exact blank.separated_append nofun _

/-- Lexemes that are told apart are read from each text that writes them. -/
theorem Spaced.scan_eq
    {phrase : List Lexeme} {text : List Char}
    (spaced : Spaced phrase text)
    (apart : Apart phrase) :
    scan text = phrase := by
  induction spaced with
  | nil _ blank =>
      have nothing := blank.scan_append []
      rwa [List.append_nil, scan_nil] at nothing
  | cons _ blank spaced induction =>
      rw [blank.scan_append]
      cases apart with
      | delimited delimits apart =>
          rw [delimits, induction apart, List.singleton_append]
      | separated spells opens apart =>
          rw [spells _ (spaced.separated opens), induction apart,
            List.singleton_append]

namespace Arithmetic

/-- The symbols of the notation. -/
def symbols : List Symbol :=
  [.plus, .minus, .asterisk, .slash, .leftParen, .rightParen]

theorem opensSeparated_symbol
    {symbol : Symbol}
    (member : symbol ∈ symbols) :
    opensSeparated (ofSymbol symbol).written = true := by
  revert member
  cases symbol <;> decide

theorem apart_symbol
    {symbol : Symbol} {rest : List Lexeme}
    (member : symbol ∈ symbols)
    (apart : Apart rest) :
    Apart (ofSymbol symbol :: rest) := by
  have fixed : symbol ∉ Symbol.extensible := by
    revert member
    cases symbol <;> decide
  refine .delimited (fun after => ?_) apart
  show scan (symbol.spelling.toList ++ after) = _
  rw [Symbol.spelling, String.toList_ofList]
  exact scan_symbol symbol (absurd · fixed)

/-- What stands behind a phrase starts with no numeral. -/
def Follows (rest : List Lexeme) : Prop :=
  (∀ next ∈ rest.head?, opensSeparated next.written = true) ∧ Apart rest

theorem follows_symbol
    {symbol : Symbol} {rest : List Lexeme}
    (member : symbol ∈ symbols)
    (apart : Apart rest) :
    Follows (ofSymbol symbol :: rest) := by
  refine ⟨?_, apart_symbol member apart⟩
  rintro _ ⟨⟩
  exact opensSeparated_symbol member

theorem enclose_apart
    {needed level : Nat} {phrase : List Lexeme}
    (apart : ∀ {rest}, Follows rest → Apart (phrase ++ rest))
    {rest : List Lexeme}
    (follows : Follows rest) :
    Apart (enclose needed level phrase ++ rest) := by
  rw [enclose]
  split
  · have closing : Follows (ofSymbol .rightParen :: rest) :=
      follows_symbol (by decide) follows.2
    rw [List.cons_append, List.append_assoc]
    exact apart_symbol (by decide) (apart closing)
  · exact apart follows

theorem phrase_apart
    (tree : Arithmetic) {rest : List Lexeme}
    (follows : Follows rest) :
    Apart (tree.phrase ++ rest) := by
  induction tree generalizing rest with
  | number value => exact .separated (spells_numeral value) follows.1 follows.2
  | negate operand induction =>
      exact apart_symbol (by decide) (enclose_apart induction follows)
  | apply operation left right first second =>
      have isSymbol : operation.operator.symbol ∈ symbols := by
        cases operation <;> decide
      rw [phrase, List.append_assoc, List.cons_append]
      exact enclose_apart first
        (follows_symbol isSymbol (enclose_apart second follows))

/-- A text in the usual notation is read as the tree. -/
theorem parse_spaced
    {tree : Arithmetic} {source : String}
    (spaced : Spaced tree.phrase source.toList) :
    parse source = ⟨[.expression tree.toExpr], []⟩ := by
  have apart : Apart (tree.phrase ++ []) :=
    tree.phrase_apart ⟨by simp, .nil⟩
  rw [List.append_nil] at apart
  rcases tree.phrase_derives with ⟨stratum, -, derives⟩
  rw [parse, lexemes_eq_scan, spaced.scan_eq apart]
  exact parseLexemes_of_derives derives.sequence

end Arithmetic

/-! ## Values -/

/-- The integer of 64 bits that is congruent to an integer. -/
def wrap (value : Int) : Int :=
  value.bmod (2 ^ 64)

/-- The exact result of an operation that always has an integer result. -/
def Operation.exactValue? : Operation → Int → Int → Option Int
  | .add, left, right => some (left + right)
  | .subtract, left, right => some (left - right)
  | .multiply, left, right => some (left * right)
  | .divide, _, _ => none

/-- The result of an operation in 64 bits, unless it divides by zero. -/
def Operation.wrapped? : Operation → Int → Int → Option Int
  | .add, left, right => some (wrap (left + right))
  | .subtract, left, right => some (wrap (left - right))
  | .multiply, left, right => some (wrap (left * right))
  | .divide, left, right =>
    if right = 0 then none else some (wrap (left.tdiv right))

namespace Arithmetic

/-- The exact value of a tree without divisions. -/
def exactValue? : Arithmetic → Option Int
  | number value => some value.val
  | negate operand => operand.exactValue?.map (- ·)
  | apply operation left right => do
    operation.exactValue? (← left.exactValue?) (← right.exactValue?)

/-- The value of a tree in 64 bits, if no division in it is by zero. -/
def wrapped? : Arithmetic → Option Int
  | number value => some value.val
  | negate operand => operand.wrapped?.map fun value => wrap (-value)
  | apply operation left right => do
    operation.wrapped? (← left.wrapped?) (← right.wrapped?)

end Arithmetic

/-! ### Wrapping around -/

theorem wrap_modEq (value : Int) : wrap value ≡ value [ZMOD 2 ^ 64] := by
  have same : value.bmod (2 ^ 64) % ((2 ^ 64 : Nat) : Int) =
      value % ((2 ^ 64 : Nat) : Int) :=
    Int.bmod_emod
  exact_mod_cast same

/-- Congruent integers are wrapped around to the same one. -/
theorem wrap_congr
    {value other : Int}
    (congruent : value ≡ other [ZMOD 2 ^ 64]) :
    wrap value = wrap other := by
  have same : value % ((2 ^ 64 : Nat) : Int) =
      other % ((2 ^ 64 : Nat) : Int) := by
    exact_mod_cast congruent
  rw [wrap, wrap, Int.bmod_def, Int.bmod_def, same]

/-- An integer of 64 bits is not changed. -/
theorem wrap_toInt (value : Int64) : wrap value.toInt = value.toInt :=
  value.toInt_bmod

/-- Only one integer of 64 bits is congruent to a given integer. -/
theorem eq_of_toInt_modEq
    {value other : Int64}
    (congruent : value.toInt ≡ other.toInt [ZMOD 2 ^ 64]) :
    value = other := by
  rw [← Int64.toInt_inj, ← wrap_toInt value, ← wrap_toInt other]
  exact wrap_congr congruent

/-- Wrapping around the operands does not change a result without a quotient. -/
theorem Operation.wrapped?_of_exactValue?
    {operation : Operation} {left right value : Int}
    (found : operation.exactValue? left right = some value) :
    operation.wrapped? (wrap left) (wrap right) = some (wrap value) := by
  have first := wrap_modEq left
  have second := wrap_modEq right
  cases operation with
  | add =>
      cases found
      exact congrArg some (wrap_congr (first.add second))
  | subtract =>
      cases found
      exact congrArg some (wrap_congr (first.sub second))
  | multiply =>
      cases found
      exact congrArg some (wrap_congr (first.mul second))
  | divide => cases found

namespace Arithmetic

/-- A tree without divisions has its exact value, wrapped around. -/
theorem wrapped?_of_exactValue?
    {tree : Arithmetic} {value : Int}
    (found : tree.exactValue? = some value) :
    tree.wrapped? = some (wrap value) := by
  induction tree generalizing value with
  | number number =>
      cases found
      have isValue : (Int64.ofNat number).toInt = number.val :=
        Numeral.toInt_ofNat number.isLt
      rw [wrapped?, ← isValue, wrap_toInt]
  | negate operand induction =>
      rcases Option.map_eq_some_iff.1 found with ⟨inner, foundInner, rfl⟩
      rw [wrapped?, induction foundInner]
      exact congrArg some (wrap_congr (wrap_modEq inner).neg)
  | apply operation left right first second =>
      rcases Option.bind_eq_some_iff.1 found with ⟨inner, foundLeft, found⟩
      rcases Option.bind_eq_some_iff.1 found with ⟨other, foundRight, found⟩
      rw [wrapped?, first foundLeft, second foundRight]
      exact Operation.wrapped?_of_exactValue? found

/-- The quotient of the least integer and minus one is wrapped around. -/
theorem wrapped?_divide_least
    {left right : Arithmetic}
    (isLeast : left.wrapped? = some (-2 ^ 63))
    (isNegative : right.wrapped? = some (-1)) :
    (apply .divide left right).wrapped? = some (-2 ^ 63) := by
  rw [wrapped?, isLeast, isNegative]
  decide

end Arithmetic

/-! ### Division by zero -/

theorem Operation.wrapped?_eq_none_iff
    {operation : Operation} {left right : Int} :
    operation.wrapped? left right = none ↔ operation = .divide ∧ right = 0 := by
  cases operation with
  | divide => simp [wrapped?]
  | _ => simp [wrapped?]

namespace Arithmetic

theorem wrapped?_apply_eq_none_iff
    {operation : Operation} {left right : Arithmetic} :
    (apply operation left right).wrapped? = none ↔
      left.wrapped? = none ∨ right.wrapped? = none ∨
        operation = .divide ∧ right.wrapped? = some 0 := by
  rw [wrapped?]
  cases left.wrapped? with
  | none => simp
  | some first =>
      cases right.wrapped? with
      | none => simp
      | some second => simp [Operation.wrapped?_eq_none_iff]

/-- A tree has no value exactly when a division in it is by zero. -/
theorem wrapped?_eq_none_iff (tree : Arithmetic) :
    tree.wrapped? = none ↔
      ∃ left right, IsPart (apply .divide left right) tree ∧
        right.wrapped? = some 0 := by
  constructor
  · intro undefined
    induction tree with
    | number value => cases undefined
    | negate operand induction =>
        rcases induction (Option.map_eq_none_iff.1 undefined) with
          ⟨left, right, part, zero⟩
        exact ⟨left, right, .negate part, zero⟩
    | apply operation left right first second =>
        rcases wrapped?_apply_eq_none_iff.1 undefined with
          inLeft | inRight | ⟨rfl, zero⟩
        · rcases first inLeft with ⟨dividend, divisor, part, zero⟩
          exact ⟨dividend, divisor, .left part, zero⟩
        · rcases second inRight with ⟨dividend, divisor, part, zero⟩
          exact ⟨dividend, divisor, .right part, zero⟩
        · exact ⟨left, right, .refl, zero⟩
  · rintro ⟨dividend, divisor, part, zero⟩
    induction part with
    | refl => exact wrapped?_apply_eq_none_iff.2 (.inr (.inr ⟨rfl, zero⟩))
    | negate _ induction =>
        rw [wrapped?, induction, Option.map_none]
    | left _ induction =>
        exact wrapped?_apply_eq_none_iff.2 (.inl induction)
    | right _ induction =>
        exact wrapped?_apply_eq_none_iff.2 (.inr (.inl induction))

end Arithmetic

/-! ## Evaluation -/

/-- An operator on integers computes the operation in 64 bits. -/
theorem Operation.apply_of_wrapped?
    {operation : Operation} {left right : Int64} {value : Int}
    (found : operation.wrapped? left.toInt right.toInt = some value) :
    ∃ result : Int64, result.toInt = value ∧
      operation.operator.apply (.integer left) (.integer right) =
        .ok (.integer result) := by
  cases operation with
  | add =>
      cases found
      exact ⟨left + right, Int64.toInt_add left right, rfl⟩
  | subtract =>
      cases found
      exact ⟨left - right, Int64.toInt_sub left right, rfl⟩
  | multiply =>
      cases found
      exact ⟨left * right, Int64.toInt_mul left right, rfl⟩
  | divide =>
      rw [wrapped?] at found
      split at found
      · cases found
      · next nonzero =>
        cases found
        have other : right ≠ 0 := by
          rintro rfl
          exact nonzero Int64.toInt_zero
        refine ⟨left / right, Int64.toInt_div left right, ?_⟩
        show BinaryOp.applyIntegers .divide left right = _
        rw [BinaryOp.applyIntegers, if_neg other]

theorem Operation.apply_of_undefined
    {operation : Operation} {left right : Int64}
    (undefined : operation.wrapped? left.toInt right.toInt = none) :
    operation.operator.apply (.integer left) (.integer right) =
      .error .divisionByZero := by
  rcases wrapped?_eq_none_iff.1 undefined with ⟨rfl, zero⟩
  have isZero : right = 0 := by
    rw [← Int64.toInt_inj, zero, Int64.toInt_zero]
  subst isZero
  rfl

namespace Arithmetic

variable {tree : Arithmetic} (application : Application) (scope : ScopeId)
variable (machine : Machine)

/-- A tree that has a value is evaluated to it, and nothing else happens. -/
theorem expr_of_wrapped?
    {value : Int}
    (found : tree.wrapped? = some value) :
    ∃ result : Int64, result.toInt = value ∧
      Evaluation.expr application scope tree.toExpr machine =
        .ok (.integer result) machine := by
  induction tree generalizing value with
  | number number =>
      cases found
      exact ⟨.ofNat number, Numeral.toInt_ofNat number.isLt, by
        rw [toExpr, Evaluation.expr]; rfl⟩
  | negate operand induction =>
      rcases Option.map_eq_some_iff.1 found with ⟨inner, foundInner, rfl⟩
      rcases induction foundInner with ⟨result, rfl, evaluates⟩
      refine ⟨-result, Int64.toInt_neg result, ?_⟩
      rw [toExpr, Evaluation.expr, bind_ok evaluates]
      rfl
  | apply operation left right first second =>
      rcases Option.bind_eq_some_iff.1 found with ⟨inner, foundLeft, found⟩
      rcases Option.bind_eq_some_iff.1 found with ⟨other, foundRight, found⟩
      rcases first foundLeft with ⟨leftResult, rfl, evaluatesLeft⟩
      rcases second foundRight with ⟨rightResult, rfl, evaluatesRight⟩
      rcases Operation.apply_of_wrapped? found with ⟨result, isValue, applies⟩
      refine ⟨result, isValue, ?_⟩
      rw [toExpr, Evaluation.expr, bind_ok evaluatesLeft,
        bind_ok evaluatesRight, applies]
      rfl

/-- A tree that has no value is stopped by a division by zero. -/
theorem expr_of_undefined
    (undefined : tree.wrapped? = none) :
    Evaluation.expr application scope tree.toExpr machine =
      .error (.failed .divisionByZero) machine := by
  induction tree with
  | number value => cases undefined
  | negate operand induction =>
      rw [toExpr, Evaluation.expr,
        bind_error (induction (Option.map_eq_none_iff.1 undefined))]
  | apply operation left right first second =>
      rw [toExpr, Evaluation.expr]
      cases foundLeft : left.wrapped? with
      | none => rw [bind_error (first foundLeft)]
      | some inner =>
          rcases expr_of_wrapped? application scope machine foundLeft with
            ⟨leftResult, rfl, evaluatesLeft⟩
          rw [bind_ok evaluatesLeft]
          cases foundRight : right.wrapped? with
          | none => rw [bind_error (second foundRight)]
          | some other =>
              rcases expr_of_wrapped? application scope machine foundRight with
                ⟨rightResult, rfl, evaluatesRight⟩
              rw [wrapped?, foundLeft, foundRight] at undefined
              rw [bind_ok evaluatesRight,
                Operation.apply_of_undefined undefined]
              rfl

end Arithmetic

/--
A text in the usual notation, with blanks or without, is read as one expression,
which is the tree.  It is evaluated without an effect, in every machine and under
every limit.  A tree without divisions gives the only integer of 64 bits that is
congruent to its exact value.  Other trees give their value in 64 bits, where a
quotient of wrapped operands goes toward zero and that of the least integer and
minus one is wrapped around; they fail exactly when a divisor in them is zero,
and with no other failure than that.
-/
theorem Arithmetic.eval_spaced
    (tree : Arithmetic) (source : String)
    (spaced : Spaced tree.phrase source.toList)
    (config : Config) (machine : Machine) :
    let answer := (parse source).program.eval config machine
    parse source = ⟨[.expression tree.toExpr], []⟩ ∧
    answer.2 = machine ∧
    (∀ exact, tree.exactValue? = some exact →
      ∃ result : Int64, answer.1 = some (.integer result) ∧
        result.toInt ≡ exact [ZMOD 2 ^ 64] ∧
        ∀ other : Int64, other.toInt ≡ exact [ZMOD 2 ^ 64] →
          other = result) ∧
    (∀ value, tree.wrapped? = some value →
      ∃ result : Int64, answer.1 = some (.integer result) ∧
        result.toInt = value) ∧
    (∀ left right : Arithmetic,
      left.wrapped? = some (-2 ^ 63) → right.wrapped? = some (-1) →
        (apply .divide left right).wrapped? = some (-2 ^ 63)) ∧
    (answer.1 = some (.error .divisionByZero) ↔
      ∃ left right, IsPart (apply .divide left right) tree ∧
        right.wrapped? = some 0) ∧
    ((∃ result, answer.1 = some (.integer result)) ∨
      answer.1 = some (.error .divisionByZero)) := by
  intro answer
  have isParsed := parse_spaced spaced
  have isAnswer : answer =
      Program.eval config [.expression tree.toExpr] machine := by
    show (parse source).program.eval config machine = _
    rw [isParsed]
  cases found : tree.wrapped? with
  | none =>
      rw [isAnswer, Program.eval_expression_failed
        (expr_of_undefined _ Scopes.global machine found)]
      refine ⟨isParsed, rfl, ?_, nofun, fun _ _ => wrapped?_divide_least, ?_,
        .inr rfl⟩
      · intro exact isExact
        rw [wrapped?_of_exactValue? isExact] at found
        cases found
      · exact iff_of_true rfl ((wrapped?_eq_none_iff tree).1 found)
  | some value =>
      rcases expr_of_wrapped?
        (applyWithin config.maxDepth (config.maxDepth - machine.depth))
        Scopes.global machine found with ⟨result, isValue, evaluates⟩
      rw [isAnswer, Program.eval_expression evaluates]
      refine ⟨isParsed, rfl, ?_, ?_, fun _ _ => wrapped?_divide_least, ?_,
        .inl ⟨result, rfl⟩⟩
      · intro exact isExact
        rw [wrapped?_of_exactValue? isExact, Option.some.injEq] at found
        have congruent : result.toInt ≡ exact [ZMOD 2 ^ 64] := by
          rw [isValue, ← found]
          exact wrap_modEq exact
        exact ⟨result, rfl, congruent, fun other same =>
          eq_of_toInt_modEq (same.trans congruent.symm)⟩
      · rintro other ⟨⟩
        exact ⟨result, rfl, isValue⟩
      · refine iff_of_false nofun fun divides => ?_
        rw [(wrapped?_eq_none_iff tree).2 divides] at found
        cases found

/--
A sign in front of a difference, a product that does not fit into 64 bits, and a
negative divisor; parentheses stand around the two differences only.
-/
theorem Arithmetic.eval_spaced_quotient :
    let tree : Arithmetic :=
      .apply .divide
        (.apply .multiply
          (.negate (.apply .subtract (.number 2)
            (.number 9223372036854775807)))
          (.number 3))
        (.apply .subtract (.number 7) (.number 9))
    let source := "-(2-9223372036854775807) * 3 /(7-9)"
    let value := wrap ((wrap (9223372036854775805 * 3)).tdiv (-2))
    Spaced tree.phrase source.toList ∧
      tree.wrapped? = some value ∧
      (parse source).diagnostics = [] ∧
      ∃ result : Int64,
        ((parse source).program.eval {} .initial).1 =
            some (.integer result) ∧
          result.toInt = value := by
  intro tree source value
  have isPhrase : tree.phrase =
      [ofSymbol .minus, ofSymbol .leftParen, ⟨.integer, "2"⟩, ofSymbol .minus,
        ⟨.integer, "9223372036854775807"⟩, ofSymbol .rightParen,
        ofSymbol .asterisk, ⟨.integer, "3"⟩, ofSymbol .slash,
        ofSymbol .leftParen, ⟨.integer, "7"⟩, ofSymbol .minus,
        ⟨.integer, "9"⟩, ofSymbol .rightParen] := by
    decide +kernel
  have spaced : Spaced tree.phrase source.toList := by
    rw [isPhrase]
    show Spaced _ "-(2-9223372036854775807) * 3 /(7-9)".toList
    refine .cons [] (by decide) ?_
    refine .cons [] (by decide) ?_
    refine .cons [] (by decide) ?_
    refine .cons [] (by decide) ?_
    refine .cons [] (by decide) ?_
    refine .cons [] (by decide) ?_
    refine .cons [' '] (by decide) ?_
    refine .cons [' '] (by decide) ?_
    refine .cons [' '] (by decide) ?_
    refine .cons [] (by decide) ?_
    refine .cons [] (by decide) ?_
    refine .cons [] (by decide) ?_
    refine .cons [] (by decide) ?_
    refine .cons [] (by decide) ?_
    exact .nil [] (by decide)
  have isValue : tree.wrapped? = some value := by
    decide +kernel
  rcases eval_spaced tree source spaced {} .initial with
    ⟨isParsed, -, -, gives, -⟩
  exact ⟨spaced, isValue, congrArg Parsed.diagnostics isParsed,
    gives _ isValue⟩

end Bhasha
