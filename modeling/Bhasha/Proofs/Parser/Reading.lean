import Bhasha.Proofs.Grammar.Derivation
import Bhasha.Proofs.Parser.Progress

/-!
# What a parser reads

A parser reads some lexemes when it moves over exactly these, one after the
other, and stands on the last of them; its diagnostics stay as they are.  Both
directions of the correspondence between the parser and the grammar are about
this relation.  The second part relates the order of precedences, in which the
parser decides, to the strata of the grammar.
-/

namespace Bhasha

/-! ## Lexemes that are read -/

theorem Lexeme.eq_mk
    {lexeme : Lexeme} {kind : Kind}
    (isKind : lexeme.kind = kind) :
    lexeme = ⟨kind, lexeme.literal⟩ := by
  rw [← isKind]

namespace Parser

/-- One parser is another one after it has moved over some lexemes. -/
inductive Reads : Parser → List Lexeme → Parser → Prop where
  | done : Reads parser [] parser
  | next
      (rest : Reads ⟨first, later, found⟩ phrase after) :
      Reads ⟨place, first :: later, found⟩ (first :: phrase) after

namespace Reads

variable {before middle after : Parser} {phrase second : List Lexeme}

theorem trans
    (left : before.Reads phrase middle)
    (right : middle.Reads second after) :
    before.Reads (phrase ++ second) after := by
  induction left with
  | done => exact right
  | next _ induction => exact .next (induction right)

/-- Reading two phrases in a row stops between them. -/
theorem split
    (whole : before.Reads (phrase ++ second) after) :
    ∃ middle, before.Reads phrase middle ∧ middle.Reads second after := by
  induction phrase generalizing before with
  | nil => exact ⟨before, .done, whole⟩
  | cons first phrase induction =>
      cases whole with
      | next rest =>
          rcases induction rest with ⟨middle, left, right⟩
          exact ⟨middle, .next left, right⟩

/-- The first lexeme that is read is the next one of the parser. -/
theorem uncons
    {kind : Kind} {literal : String}
    (whole : before.Reads (⟨kind, literal⟩ :: phrase) after) :
    before.peek = kind ∧ before.advance.current = ⟨kind, literal⟩ ∧
      before.advance.Reads phrase after := by
  cases whole with
  | next rest => exact ⟨rfl, rfl, rest⟩

/-- Reading a single lexeme is moving over it. -/
theorem single
    {kind : Kind} {literal : String}
    (reads : before.Reads [⟨kind, literal⟩] after) :
    before.peek = kind ∧ before.advance.current = ⟨kind, literal⟩ ∧
      after = before.advance := by
  cases reads with
  | next rest =>
      cases rest
      exact ⟨rfl, rfl, rfl⟩

/-- Reading leaves as many lexemes as are not read. -/
theorem length_eq
    (reads : before.Reads phrase after) :
    before.upcoming.length = phrase.length + after.upcoming.length := by
  induction reads with
  | done => simp
  | next _ induction =>
      simp only [List.length_cons] at induction ⊢
      omega

/-- Reading adds no diagnostic. -/
theorem diagnostics_eq
    (reads : before.Reads phrase after) :
    after.diagnostics = before.diagnostics := by
  induction reads with
  | done => rfl
  | next _ induction => exact induction

/-- The lexemes that are read and those that are left are the later ones. -/
theorem upcoming_eq
    (reads : before.Reads phrase after) :
    before.upcoming = phrase ++ after.upcoming := by
  induction reads with
  | done => rfl
  | next _ induction => simpa using induction

end Reads

/-- A parser can read every initial part of its later lexemes. -/
theorem exists_reads
    (current : Lexeme) (phrase rest : List Lexeme)
    (diagnostics : Array Diagnostic) :
    ∃ after, Reads ⟨current, phrase ++ rest, diagnostics⟩ phrase after ∧
      after.upcoming = rest := by
  induction phrase generalizing current with
  | nil => exact ⟨⟨current, rest, diagnostics⟩, .done, rfl⟩
  | cons first phrase induction =>
      rcases induction first with ⟨after, reads, left⟩
      exact ⟨after, .next reads, left⟩

/-- A parser with a next lexeme moves over it. -/
theorem reads_advance
    {parser : Parser} {first : Lexeme} {rest : List Lexeme}
    (next : parser.upcoming = first :: rest) :
    parser.advance.current = first ∧ parser.Reads [first] parser.advance := by
  rcases parser with ⟨current, upcoming, diagnostics⟩
  cases next
  exact ⟨rfl, .next .done⟩

/-- A kind other than the end of the input is that of a next lexeme. -/
theorem exists_of_peek
    {parser : Parser} {kind : Kind}
    (found : parser.peek = kind)
    (inside : kind ≠ .endOfInput) :
    ∃ literal, parser.advance.current = ⟨kind, literal⟩ ∧
      parser.Reads [⟨kind, literal⟩] parser.advance := by
  rcases parser with ⟨current, upcoming, diagnostics⟩
  cases upcoming with
  | nil => exact (inside found.symm).elim
  | cons first rest =>
      rcases first with ⟨firstKind, literal⟩
      change firstKind = kind at found
      subst found
      exact ⟨literal, rfl, .next .done⟩

end Parser

/-! ## Lexemes that are expected -/

namespace ParseM

/-- An expected lexeme that is there is read. -/
theorem expect_ok
    {parser : Parser} {wanted : Kind}
    (found : parser.peek = wanted) :
    expect wanted parser = .ok () parser.advance := by
  rw [expect, peek_bind, if_pos found]
  rfl

/-- A lexeme that was expected and read is the one that is wanted. -/
theorem reads_of_expect
    {parser after : Parser} {wanted : Kind}
    (inside : wanted ≠ .endOfInput)
    (outcome : expect wanted parser = .ok () after) :
    ∃ literal, after.current = ⟨wanted, literal⟩ ∧
      parser.Reads [⟨wanted, literal⟩] after := by
  rw [expect, peek_bind] at outcome
  split at outcome
  · next found =>
    cases outcome
    exact Parser.exists_of_peek found inside
  · cases outcome

end ParseM

/-! ## Precedence and strata -/

namespace Precedence

/-- The stratum of the expressions that are read above a level. -/
def stratum : Precedence → Stratum
  | .lowest => .equality
  | .equality => .comparison
  | .comparison => .sum
  | .sum => .product
  | .product | .unary | .call => .signed

/-- The precedence of an operator is the rank of its stratum. -/
@[simp]
theorem rank_ofSymbol (operator : BinaryOp) :
    (ofSymbol operator.symbol).rank = operator.stratum.rank := by
  cases operator <;> rfl

theorem rank_ofKind_le (kind : Kind) :
    (ofKind kind).rank ≤ Stratum.applied.rank := by
  cases ofKind kind <;> decide

/-- The kinds with which an expression goes on are those above the lowest. -/
theorem continues_iff (kind : Kind) :
    kind.Continues ↔ 0 < (ofKind kind).rank := by
  constructor
  · intro continues
    cases continues with
    | call => decide
    | index => decide
    | binary operator => cases operator <;> decide
  · intro above
    cases kind with
    | symbol symbol =>
        cases symbol with
        | leftParen => exact .call
        | leftBracket => exact .index
        | plus => exact .binary .add
        | minus => exact .binary .subtract
        | asterisk => exact .binary .multiply
        | slash => exact .binary .divide
        | less => exact .binary .less
        | greater => exact .binary .greater
        | lessEqual => exact .binary .lessEqual
        | greaterEqual => exact .binary .greaterEqual
        | equal => exact .binary .equal
        | notEqual => exact .binary .notEqual
        | _ => exact absurd above (by decide)
    | _ => exact absurd above (Nat.lt_irrefl 0)

end Precedence

end Bhasha
