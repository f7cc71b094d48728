import Bhasha.Token.Lexer

/-!
# Lexemes without positions

The lexemes of a source depend on its characters only.  Reading them one piece
after the other, without a cursor, gives the same lexemes, so facts about a
text are proved by induction on what is left of it.
-/

namespace Bhasha

/-- The lexemes of a text. -/
def scan (input : List Char) : List Lexeme :=
  match input with
  | [] => []
  | first :: rest =>
    if isBlank first then
      scan rest
    else
      (Piece.read first rest).lexeme :: scan (Piece.read first rest).rest
termination_by input.length
decreasing_by
  · exact Nat.lt_succ_self rest.length
  · exact Piece.read_rest_length first rest

@[simp]
theorem scan_nil : scan [] = [] := by
  rw [scan]

theorem scan_blank
    {first : Char} {rest : List Char}
    (blank : isBlank first = true) :
    scan (first :: rest) = scan rest := by
  rw [scan, if_pos blank]

theorem scan_piece
    {first : Char} {rest : List Char}
    (visible : isBlank first = false) :
    scan (first :: rest) =
      (Piece.read first rest).lexeme :: scan (Piece.read first rest).rest := by
  rw [scan, if_neg (Bool.not_eq_true _ ▸ visible)]

/-- The blanks in front of a text add no lexemes. -/
theorem scan_dropWhile (input : List Char) :
    scan (input.dropWhile isBlank) = scan input := by
  induction input with
  | nil => rfl
  | cons first rest induction =>
      rw [List.dropWhile_cons]
      split
      · next blank => rw [scan_blank blank, induction]
      · rfl

/-! ## The cursor reads the same lexemes -/

namespace Cursor

theorem scan_of_next?_none
    {cursor : Cursor}
    (atEnd : cursor.next? = none) :
    scan cursor.input = [] := by
  rw [next?, skipBlanks] at atEnd
  dsimp only at atEnd
  split at atEnd
  · next nothing =>
    rw [← scan_dropWhile, nothing, scan_nil]
  · cases atEnd

theorem scan_of_next?_some
    {cursor after : Cursor} {token : Token}
    (step : cursor.next? = some (token, after)) :
    scan cursor.input = token.toLexeme :: scan after.input := by
  rw [next?, skipBlanks] at step
  dsimp only at step
  split at step
  · cases step
  · next first rest found =>
    cases step
    have visible : isBlank first = false := by
      have stopped := List.head?_dropWhile_not isBlank cursor.input
      rw [found] at stopped
      simpa using stopped
    rw [← scan_dropWhile, found, scan_piece visible]

/-- The tokens that are collected spell the lexemes of the text. -/
theorem collect_lexemes (cursor : Cursor) (seen : Array Token) :
    (cursor.collect seen).1.toList.map Token.toLexeme =
      seen.toList.map Token.toLexeme ++ scan cursor.input := by
  fun_induction collect cursor seen with
  | case1 cursor seen token after step induction =>
      rw [induction, scan_of_next?_some step]
      simp
  | case2 cursor seen atEnd =>
      rw [scan_of_next?_none atEnd]
      simp

end Cursor

/-- The lexemes of a source are those of its characters. -/
theorem lexemes_eq_scan (source : String) :
    lexemes source = scan source.toList := by
  rw [lexemes, tokens, Cursor.collect_lexemes]
  simp [Cursor.ofSource]

/-! ## Tokens up to the end of the input -/

/-- The tokens of a source without their places, the end of the input last. -/
def stream (source : String) : List Lexeme :=
  (tokenize source).map Token.toLexeme

theorem stream_eq (source : String) :
    stream source = lexemes source ++ [.endOfInput] := by
  simp [stream, tokenize, Cursor.drain, lexemes, tokens, Cursor.endToken]

/-! ## No lexeme stands for the end of the input -/

theorem Piece.read_kind_ne_endOfInput (first : Char) (rest : List Char) :
    (read first rest).lexeme.kind ≠ .endOfInput := by
  intro equal
  rw [read] at equal
  split at equal
  · cases equal
  · split at equal
    · rw [quoted] at equal
      split at equal <;> cases equal
    · split at equal
      · rw [word, plain, Kind.ofWord] at equal
        dsimp only at equal
        split at equal <;> cases equal
      · split at equal <;> cases equal

theorem kind_ne_endOfInput_of_mem_scan
    {input : List Char} {lexeme : Lexeme}
    (member : lexeme ∈ scan input) :
    lexeme.kind ≠ .endOfInput := by
  fun_induction scan input with
  | case1 => cases member
  | case2 first rest blank induction => exact induction member
  | case3 first rest visible induction =>
      rcases List.mem_cons.1 member with rfl | later
      · exact Piece.read_kind_ne_endOfInput first rest
      · exact induction later

theorem kind_ne_endOfInput_of_mem_lexemes
    {source : String} {lexeme : Lexeme}
    (member : lexeme ∈ lexemes source) :
    lexeme.kind ≠ .endOfInput := by
  rw [lexemes_eq_scan] at member
  exact kind_ne_endOfInput_of_mem_scan member

end Bhasha
