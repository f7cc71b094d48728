import Bhasha.Proofs.Parser.Truncation

/-!
# Unclosed hashes

Where the input ends inside a block, its closing brace is reported as missing.
A hash has no such report of its own: its entries are read one after the other,
and at the end of the input each step asks for what would come next inside an
entry.  So where the innermost bracket that is open is the brace of a hash, the
first diagnostic is for something else, and a missing brace is reported for the
blocks around the hash only.

Which bracket is open is told by counting: the brackets of a source that is
accepted are nested, and so are those in a block of which only the closing brace
is missing.
-/

namespace Bhasha

/-! ## Open brackets -/

/--
The places of the brackets that are open behind some lexemes, innermost first.
The first lexeme stands at the given place, and the brackets that are open in
front of it are given as well.
-/
def openBrackets : List Nat → Nat → List Lexeme → List Nat
  | opened, _, [] => opened
  | opened, place, lexeme :: rest =>
    match lexeme.kind.bracket? with
    | some .opening => openBrackets (place :: opened) (place + 1) rest
    | some .closing => openBrackets opened.tail (place + 1) rest
    | none => openBrackets opened (place + 1) rest

/-- The place of the innermost bracket that is open behind some lexemes. -/
def innermostBracket? (input : List Lexeme) : Option Nat :=
  (openBrackets [] 0 input).head?

theorem openBrackets_append
    (opened : List Nat) (place : Nat) (first second : List Lexeme) :
    openBrackets opened place (first ++ second) =
      openBrackets (openBrackets opened place first) (place + first.length)
        second := by
  induction first generalizing opened place with
  | nil => rfl
  | cons lexeme first induction =>
      rw [List.cons_append, List.length_cons, openBrackets, openBrackets,
        ← Nat.add_assoc, Nat.add_right_comm]
      split
      · exact induction _ _
      · exact induction _ _
      · exact induction _ _

theorem openBrackets_opening
    {lexeme : Lexeme}
    (opens : lexeme.kind.bracket? = some .opening)
    (opened : List Nat) (place : Nat) (rest : List Lexeme) :
    openBrackets opened place (lexeme :: rest) =
      openBrackets (place :: opened) (place + 1) rest := by
  rw [openBrackets, opens]

/-- Nested brackets are closed again, whatever was open in front of them. -/
theorem Phrase.Nested.openBrackets_eq
    {phrase : List Lexeme}
    (nested : Phrase.Nested phrase) (opened : List Nat) (place : Nat) :
    openBrackets opened place phrase = opened := by
  induction nested generalizing opened place with
  | nil => rfl
  | cons plain _ _ induction =>
      rw [openBrackets, plain]
      exact induction opened (place + 1)
  | numeral => rfl
  | enclose opens _ closes _ inner rest =>
      rw [openBrackets_opening opens, openBrackets_append, inner, openBrackets,
        closes]
      exact rest opened _
  | append _ _ first second =>
      rw [openBrackets_append, first, second]

theorem innermostBracket?_of_nested
    {input : List Lexeme}
    (nested : Phrase.Nested input) :
    innermostBracket? input = none := by
  rw [innermostBracket?, nested.openBrackets_eq]
  rfl

theorem innermostBracket?_of_opening
    {before inner : List Lexeme} {lexeme : Lexeme}
    (opens : lexeme.kind.bracket? = some .opening)
    (nested : Phrase.Nested inner) :
    innermostBracket? (before ++ lexeme :: inner) = some before.length := by
  rw [innermostBracket?, openBrackets_append, openBrackets_opening opens,
    nested.openBrackets_eq, Nat.zero_add]
  rfl

/-! ## Braces of blocks and hashes -/

/-- Whether a visit is to a block at a place of an input of the given length. -/
def Visit.isBlockAt (total place : Nat) (visit : Visit) : Bool :=
  match visit.part with
  | .block => place + 1 + visit.start.upcoming.length = total
  | _ => false

/--
Whether the first tokens of a source end inside a hash, and not in brackets
within: the innermost bracket that is open behind them is a brace with which no
block starts.  In a source that is accepted, all other braces are those of
hashes.
-/
def endsInHash (source : String) (count : Nat) : Bool :=
  match innermostBracket? ((lexemes source).take count) with
  | some place =>
    (lexemes source)[place]?.any (·.kind = .symbol .leftBrace) &&
      !(Visit.all (Visit.ofSource source)).any
        (Visit.isBlockAt (lexemes source).length place)
  | none => false

theorem exists_of_endsInHash
    {source : String} {count : Nat}
    (inHash : endsInHash source count = true) :
    ∃ place, innermostBracket? ((lexemes source).take count) = some place ∧
      ∀ visit ∈ Visit.all (Visit.ofSource source), visit.part = .block →
        place + 1 + visit.start.upcoming.length ≠ (lexemes source).length := by
  rw [endsInHash] at inHash
  split at inHash
  · next place innermost =>
    refine ⟨place, innermost, fun visit member isBlock here => ?_⟩
    have none := (Bool.and_eq_true_iff.1 inHash).2
    rw [Bool.not_eq_true', List.any_eq_false] at none
    refine none visit member ?_
    rw [Visit.isBlockAt, isBlock]
    exact decide_eq_true here
  · cases inHash

/-! ## Where an input ends inside a hash -/

/-- The brackets of accepted tokens of a source are nested. -/
theorem nested_of_accepted
    {source : String} {count : Nat}
    (accepted :
      (parseLexemes ((lexemes source).take count)).diagnostics = []) :
    Phrase.Nested ((lexemes source).take count) := by
  have derives : Phrase.Sequence ((lexemes source).take count)
      (parseLexemes ((lexemes source).take count)).program := by
    refine derives_of_parseLexemes (fun lexeme member => ?_) ?_
    · exact kind_ne_endOfInput_of_mem_lexemes (List.mem_of_mem_take member)
    · rw [← accepted]
  exact derives.nested

/-- A block stands on its opening brace, in front of its lexemes. -/
theorem suffix_of_block
    {source : String} {visit : Visit}
    (member : visit ∈ Visit.all (Visit.ofSource source))
    (isBlock : visit.part = .block) :
    visit.start.current :: visit.start.upcoming <:+ lexemes source := by
  have opens := (braces_of_block member isBlock).1
  have inside : visit.start.current.kind ≠ .endOfInput := by
    rw [opens]
    nofun
  have stands :=
    (Visit.path_ofLexemes (lexemes source)).stands visit member inside
  generalize lexemes source = input at stands ⊢
  cases input with
  | cons first rest => exact stands
  | nil =>
      -- A parser without lexemes stands at the end of the input.
      rcases List.suffix_cons_iff.1 stands with same | within
      · injection same with isCurrent
        exact absurd (congrArg Lexeme.kind isCurrent) inside
      · exact within

/-- The innermost bracket that is open where only a block is interrupted. -/
theorem innermostBracket?_of_enclosed
    {source : String} {count : Nat} {visit : Visit}
    {inner : List Lexeme}
    (member : visit ∈ Visit.all (Visit.ofSource source))
    (isBlock : visit.part = .block)
    (upcoming : visit.start.upcoming = inner ++ (lexemes source).drop count)
    (nested : Phrase.Nested inner) :
    ∃ place, innermostBracket? ((lexemes source).take count) = some place ∧
      place + 1 + visit.start.upcoming.length = (lexemes source).length := by
  rcases suffix_of_block member isBlock with ⟨before, whole⟩
  refine ⟨before.length, ?_, ?_⟩
  · have kept : (lexemes source).take count =
        before ++ visit.start.current :: inner := by
      have same : (lexemes source).take count ++ (lexemes source).drop count =
          before ++ visit.start.current :: inner ++
            (lexemes source).drop count := by
        rw [List.take_append_drop, List.append_assoc, List.cons_append,
          ← upcoming, whole]
      exact List.append_cancel_right same
    rw [kept]
    refine innermostBracket?_of_opening ?_ nested
    rw [(braces_of_block member isBlock).1]
    rfl
  · rw [← whole, List.length_append, List.length_cons]
    omega

/-- Something else than a closing brace is missing first. -/
theorem exists_interruption
    {source : String} {count : Nat}
    (accepted : (parse source).diagnostics = [])
    (inHash : endsInHash source count = true) :
    ∃ missing ∈ Watched.interruptions,
      (parseLexemes ((lexemes source).take count)).diagnostics =
        missing ::
          List.replicate (openBlocks source count) Watched.missingBrace := by
  rcases exists_of_endsInHash inHash with ⟨place, innermost, noBlock⟩
  have whole := List.take_append_drop count (lexemes source)
  have notAccepted :
      (parseLexemes ((lexemes source).take count)).diagnostics ≠ [] := by
    intro accepted
    rw [innermostBracket?_of_nested (nested_of_accepted accepted)] at innermost
    cases innermost
  have nonempty : (lexemes source).drop count ≠ [] := by
    intro nothing
    rw [nothing, List.append_nil] at whole
    exact notAccepted (whole.symm ▸ accepted)
  have reports := reports_of_append nonempty (by rw [whole]; exact accepted)
  rw [whole, List.length_drop] at reports
  rw [openBlocks, Visit.openBlocks_eq, ← Nat.zero_add (List.length _)]
  generalize (parseLexemes ((lexemes source).take count)).diagnostics = found
    at reports notAccepted
  cases reports with
  | interrupted missing => exact ⟨_, missing, rfl⟩
  | between enclosed =>
      -- Without a block nothing is wrong; with one, its brace is innermost.
      cases last : (Visit.opened ((lexemes source).length - count)
          (Visit.ofSource source)).getLast? with
      | none =>
          rw [List.getLast?_eq_none_iff] at last
          exact (notAccepted (by rw [← Visit.ofSource, last]; rfl)).elim
      | some block =>
          have opened := List.mem_filter.1 (List.mem_of_getLast? last)
          have isBlock := Visit.part_of_isOpen opened.2
          rcases enclosed block last with ⟨inner, upcoming, nested⟩
          rcases innermostBracket?_of_enclosed opened.1 isBlock upcoming nested
            with ⟨found, isInnermost, here⟩
          rw [innermost] at isInnermost
          cases isInnermost
          exact (noBlock block opened.1 isBlock here).elim

/--
The tokens of an accepted source up to a place inside a hash have one diagnostic
for what would come next there, which is never the closing brace of the hash,
and then one for every block that is open.  So a missing brace is reported if
and only if the hash stands inside a block that is open as well.
-/
theorem unclosed_hash_diagnostics
    (source : String) (count : Nat)
    (accepted : (parse source).diagnostics = [])
    (inHash : endsInHash source count = true) :
    ∃ missing ∈ Watched.interruptions,
      (parseLexemes ((lexemes source).take count)).diagnostics =
        missing ::
          List.replicate (openBlocks source count) Watched.missingBrace ∧
      ("expected next token to be \x7d, got EOF instead" ∈
          (parseLexemes ((lexemes source).take count)).messages ↔
        0 < openBlocks source count) := by
  rcases exists_interruption accepted inHash with ⟨missing, listed, found⟩
  have message : Watched.missingBrace.message =
      "expected next token to be \x7d, got EOF instead" := by decide +kernel
  have others : ∀ other ∈ Watched.interruptions,
      "expected next token to be \x7d, got EOF instead" ≠ other.message := by
    decide +kernel
  refine ⟨missing, listed, found, ?_⟩
  rw [Parsed.messages, found, List.map_cons, List.map_replicate, message,
    List.mem_cons, List.mem_replicate]
  simp [others missing listed, Nat.pos_iff_ne_zero]

/-- Behind the first value of a hash, only a comma is missed. -/
theorem unclosed_hash_diagnostics_alone :
    let source := "\x7b1: 2\x7d"
    (parse source).diagnostics = [] ∧ endsInHash source 4 = true ∧
    openBlocks source 4 = 0 ∧
    (parseLexemes ((lexemes source).take 4)).messages =
      ["expected next token to be ,, got EOF instead"] ∧
    "expected next token to be \x7d, got EOF instead" ∉
      (parseLexemes ((lexemes source).take 4)).messages := by
  intro source
  have accepted : (parse source).diagnostics = [] := by decide +kernel
  have inHash : endsInHash source 4 = true := by decide +kernel
  have noBlock : openBlocks source 4 = 0 := by decide +kernel
  refine ⟨accepted, inHash, noBlock, by decide +kernel, ?_⟩
  rcases unclosed_hash_diagnostics source 4 accepted inHash with
    ⟨missing, -, -, reported⟩
  rw [reported, noBlock]
  exact Nat.lt_irrefl 0

/-- Inside a function the brace that is reported is the one of its body. -/
example :
    let source := "फन() \x7b \x7b1: 2\x7d \x7d"
    endsInHash source 8 = true ∧ openBlocks source 8 = 1 ∧
    (parseLexemes ((lexemes source).take 8)).messages =
      ["expected next token to be ,, got EOF instead",
        "expected next token to be \x7d, got EOF instead"] := by
  decide +kernel

end Bhasha
