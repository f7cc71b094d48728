import Bhasha.Proofs.Text.Quoted
import Bhasha.Proofs.Token.LongestMatch
import Mathlib.Data.List.Forall2

/-!
# Listings of tokens

A token is listed by its line, its column, its kind and its quoted literal, with a
mark behind each of the first three that these do not contain.  None of the four
contains a line break.  So a listing has one line for each token, and the lines
tell what was listed: two sources have the same listing exactly if their tokens
agree in these four.
-/

namespace Bhasha

/-! ## Kinds -/

namespace Kind

/-- Every kind of token. -/
def all : List Kind :=
  [.endOfInput, .illegal, .identifier, .integer, .string] ++
    Symbol.longestFirst.map .symbol ++ Keyword.all.map .keyword

theorem mem_all (kind : Kind) : kind ∈ all := by
  cases kind with
  | symbol symbol =>
      refine List.mem_append_left _ (List.mem_append_right _ ?_)
      exact List.mem_map_of_mem (Symbol.mem_longestFirst symbol)
  | keyword keyword =>
      refine List.mem_append_right _ (List.mem_map_of_mem ?_)
      cases keyword <;> decide
  | _ => decide

/-- Different kinds are named differently. -/
theorem display_injective
    {first second : Kind}
    (same : first.display = second.display) :
    first = second := by
  have known : (all.map display).Nodup := by decide +kernel
  exact List.inj_on_of_nodup_map known (mem_all first) (mem_all second) same

theorem display_plain (kind : Kind) :
    ' ' ∉ kind.display.toList ∧ '\n' ∉ kind.display.toList := by
  have known : ∀ kind ∈ all,
      ' ' ∉ kind.display.toList ∧ '\n' ∉ kind.display.toList := by
    decide +kernel
  exact known kind (mem_all kind)

end Kind

/-! ## Lines -/

theorem isDigit_of_mem_toString
    {number : Nat} {character : Char}
    (member : character ∈ (toString number).toList) :
    character.isDigit = true := by
  rw [Nat.toString_eq_ofList_toDigits, String.toList_ofList] at member
  exact Nat.isDigit_of_mem_toDigits (by decide) (by decide) member

/-- A number is written without marks that are no digits. -/
theorem not_mem_toString
    (mark : Char) (number : Nat)
    (other : mark.isDigit = false) :
    mark ∉ (toString number).toList := by
  intro member
  rw [isDigit_of_mem_toString member] at other
  cases other

/-- A number is told by its digits. -/
theorem eq_of_toString_eq
    {first second : Nat}
    (same : toString first = toString second) :
    first = second := by
  rw [Nat.toString_eq_ofList_toDigits, Nat.toString_eq_ofList_toDigits,
    String.ofList_inj] at same
  have values := congrArg (Nat.ofDigitChars 10 · 0) same
  simpa only [Nat.ofDigitChars_ten_toDigits] using values

/-- A text is split at the first place of a mark. -/
theorem append_mark_inj
    {mark : Char} {front other back behind : List Char}
    (absent : mark ∉ front) (absentOther : mark ∉ other)
    (same : front ++ mark :: back = other ++ mark :: behind) :
    front = other ∧ back = behind := by
  have parts : ∀ run after : List Char, mark ∉ run →
      (run ++ mark :: after).takeWhile (· ≠ mark) = run ∧
        (run ++ mark :: after).dropWhile (· ≠ mark) = mark :: after := by
    intro run after absent
    refine takeWhile_of_stop ?_ ?_
    · intro character member
      exact decide_eq_true (ne_of_mem_of_not_mem member absent)
    · rintro next ⟨⟩
      exact decide_eq_false (not_not_intro rfl)
  rcases parts front back absent with ⟨isFront, isBack⟩
  rcases parts other behind absentOther with ⟨isOther, isBehind⟩
  rw [same] at isFront isBack
  exact ⟨isFront.symm.trans isOther,
    (List.cons.inj (isBack.symm.trans isBehind)).2⟩

namespace Token

/-- Two tokens agree in all that is listed of them. -/
structure Agrees (first second : Token) : Prop where
  line : first.position.line = second.position.line
  column : first.position.column = second.position.column
  kind : first.kind = second.kind
  literal : first.literal = second.literal

theorem toList_describe (token : Token) :
    token.describe.toList =
      (toString token.position.line).toList ++ ':' ::
        ((toString token.position.column).toList ++ ' ' ::
          (token.kind.display.toList ++ ' ' ::
            (Text.quote token.literal).toList)) := by
  simp [describe]

theorem break_not_mem_describe (token : Token) :
    '\n' ∉ token.describe.toList := by
  have line := not_mem_toString '\n' token.position.line rfl
  have column := not_mem_toString '\n' token.position.column rfl
  have kind := token.kind.display_plain.2
  have literal := Text.break_not_mem_quote token.literal
  rw [toList_describe]
  simp only [List.mem_append, List.mem_cons, line, column, kind, literal,
    or_false]
  decide

/-- The line of a token tells all that is listed of it. -/
theorem describe_eq_iff {first second : Token} :
    first.describe = second.describe ↔ first.Agrees second := by
  constructor
  · intro same
    have letters := congrArg String.toList same
    rw [toList_describe, toList_describe] at letters
    rcases append_mark_inj (not_mem_toString ':' _ rfl)
      (not_mem_toString ':' _ rfl) letters with ⟨line, letters⟩
    rcases append_mark_inj (not_mem_toString ' ' _ rfl)
      (not_mem_toString ' ' _ rfl) letters with ⟨column, letters⟩
    rcases append_mark_inj first.kind.display_plain.1
      second.kind.display_plain.1 letters with ⟨kind, literal⟩
    rw [String.toList_inj] at line column kind literal
    exact ⟨eq_of_toString_eq line, eq_of_toString_eq column,
      Kind.display_injective kind, Text.quote_injective literal⟩
  · rintro ⟨line, column, kind, literal⟩
    rw [describe, describe, line, column, kind, literal]

end Token

/-! ## Sources -/

/-- A listing has one line for each token, in order. -/
theorem splitOn_tokenListing
    {source : String}
    (nonempty : tokens source ≠ []) :
    (tokenListing source).toList.splitOn '\n' =
      (tokens source).map fun token => token.describe.toList := by
  rw [tokenListing, String.toList_intercalate, List.map_map]
  refine List.splitOn_intercalate '\n' ?_ ?_
  · intro line member
    rcases List.mem_map.1 member with ⟨token, -, rfl⟩
    exact token.break_not_mem_describe
  · exact fun nothing => nonempty (List.map_eq_nil_iff.1 nothing)

theorem tokenListing_eq_empty_iff {source : String} :
    tokenListing source = "" ↔ tokens source = [] := by
  constructor
  · intro empty
    by_contra nonempty
    have lines := splitOn_tokenListing nonempty
    rw [empty] at lines
    rcases List.map_eq_singleton_iff.1 lines.symm with ⟨token, -, nothing⟩
    rw [token.toList_describe] at nothing
    cases (List.append_eq_nil_iff.1 nothing).2
  · intro nothing
    rw [tokenListing, nothing]
    rfl

/-- The lines of a listing are told by the listing. -/
theorem describe_of_tokenListing_eq
    {first second : String}
    (same : tokenListing first = tokenListing second) :
    (tokens first).map Token.describe = (tokens second).map Token.describe := by
  by_cases nothing : tokens first = []
  · rw [tokenListing_eq_empty_iff.2 nothing, eq_comm,
      tokenListing_eq_empty_iff] at same
    rw [nothing, same]
  · have nonempty : tokens second ≠ [] := by
      rwa [Ne, ← tokenListing_eq_empty_iff, ← same, tokenListing_eq_empty_iff]
    have lines := splitOn_tokenListing nothing
    rw [same, splitOn_tokenListing nonempty] at lines
    refine List.map_injective_iff.2 (fun _ _ => String.toList_inj.1) ?_
    rw [List.map_map, List.map_map]
    exact lines.symm

/--
A listing of tokens has one line for each of them, in order.  Two sources have the
same listing exactly if their tokens agree, one by one, in line, column, kind and
literal.  Whatever a literal holds, it is read back from its quoted form.
-/
theorem tokenListing_faithful :
    (∀ source, tokens source ≠ [] →
      ((tokenListing source).toList.splitOn '\n').map String.ofList =
        (tokens source).map Token.describe) ∧
    (∀ first second, tokenListing first = tokenListing second ↔
      List.Forall₂ Token.Agrees (tokens first) (tokens second)) ∧
    ∀ literal, Text.unquote? (Text.quote literal) = some literal := by
  refine ⟨?_, ?_, Text.unquote?_quote⟩
  · intro source nonempty
    rw [splitOn_tokenListing nonempty, List.map_map]
    exact List.map_congr_left fun token _ => String.ofList_toList
  · intro first second
    have lines : (tokens first).map Token.describe =
        (tokens second).map Token.describe ↔
          List.Forall₂ Token.Agrees (tokens first) (tokens second) := by
      rw [← List.forall₂_eq_eq_eq, List.forall₂_map_left_iff,
        List.forall₂_map_right_iff]
      simp only [Token.describe_eq_iff]
    rw [← lines]
    refine ⟨describe_of_tokenListing_eq, fun same => ?_⟩
    rw [tokenListing, tokenListing, same]

end Bhasha
