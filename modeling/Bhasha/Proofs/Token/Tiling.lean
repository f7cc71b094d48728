import Bhasha.Proofs.Token.Scan

/-!
# Where tokens stand

The tokens of a source tile it.  In front of each token, and in front of the
end of the input, there are only blanks; each token covers its own spelling;
nothing else is in the source.  The position that a token carries is found by
counting in the text in front of it: bytes for the offset, line feeds for the
line, and characters since the last line feed for the column.

The cursor moves its three counters one character at a time, and this module
compares them with the counts once.  What holds of the tokens of a source is
then read off their tiling, without the cursor.
-/

namespace Bhasha

/-! ## Counting -/

/-- The place behind a text, found by counting. -/
def Position.behind (text : List Char) : Position where
  offset := (String.ofList text).utf8ByteSize
  line := 1 + text.count '\n'
  column := 1 + (text.reverse.takeWhile (· ≠ '\n')).length

namespace Position

theorem behind_nil : behind [] = start :=
  rfl

/-- One more character is counted as a cursor counts it. -/
theorem step_behind (text : List Char) (character : Char) :
    (behind text).step character = behind (text ++ [character]) := by
  rw [step]
  split
  · next isBreak =>
    subst isBreak
    simp [behind, Nat.add_assoc]
    rfl
  · next other =>
    simp [behind, other, Nat.add_assoc, Nat.add_comm 1]

/-- A cursor that has moved over a text counts what is in the text. -/
theorem after_behind (text more : List Char) :
    (behind text).after more = behind (text ++ more) := by
  induction more generalizing text with
  | nil => simp
  | cons first rest induction =>
      show ((behind text).step first).after rest = behind (text ++ first :: rest)
      rw [step_behind, induction, List.append_assoc, List.singleton_append]

theorem offset_behind_append (text more : List Char) :
    (behind (text ++ more)).offset =
      (behind text).offset + (String.ofList more).utf8ByteSize := by
  simp [behind]

theorem offset_behind_lt
    (text : List Char) {more : List Char}
    (nonempty : more ≠ []) :
    (behind text).offset < (behind (text ++ more)).offset := by
  rw [offset_behind_append]
  have positive : 0 < (String.ofList more).utf8ByteSize := by
    rw [Nat.pos_iff_ne_zero, Ne, String.utf8ByteSize_eq_zero_iff,
      String.ofList_eq_empty_iff]
    exact nonempty
  omega

end Position

/-! ## Spellings -/

/--
A lexeme covers its literal; a string also covers the quotation marks around
it, of which the closing one may be missing at the end of the input.
-/
def Lexeme.Covers (lexeme : Lexeme) (text rest : List Char) : Prop :=
  if lexeme.kind = .string then
    text = '"' :: (lexeme.literal.toList ++ ['"']) ∨
      text = '"' :: lexeme.literal.toList ∧ rest = []
  else
    text = lexeme.literal.toList

namespace Piece

theorem plain_covers
    {kind : Kind}
    (other : kind ≠ .string)
    (text rest : List Char) :
    (plain kind text rest).lexeme.Covers text rest := by
  rw [plain, Lexeme.Covers, if_neg other, String.toList_ofList]

theorem quoted_covers (input : List Char) :
    (quoted input).lexeme.Covers (quoted input).text (quoted input).rest := by
  rw [quoted]
  split
  · rw [Lexeme.Covers, if_pos rfl, String.toList_ofList]
    exact .inr ⟨rfl, rfl⟩
  · next mark rest found =>
    have isMark : mark = '"' := by
      have stopped := List.head?_dropWhile_not (· ≠ '"') input
      rw [found] at stopped
      simpa using stopped
    rw [Lexeme.Covers, if_pos rfl, String.toList_ofList, isMark]
    exact .inl rfl

theorem ofWord_ne_string (word : String) : Kind.ofWord word ≠ .string := by
  rw [Kind.ofWord]
  split <;> rintro ⟨⟩

/-- A piece of the source is what its lexeme covers. -/
theorem read_covers (first : Char) (rest : List Char) :
    (read first rest).lexeme.Covers (read first rest).text
      (read first rest).rest := by
  rw [read]
  split
  · exact plain_covers (by rintro ⟨⟩) _ _
  · split
    · exact quoted_covers rest
    · split
      · exact plain_covers (ofWord_ne_string _) _ _
      · split
        · exact plain_covers (by rintro ⟨⟩) _ _
        · exact plain_covers (by rintro ⟨⟩) _ _

end Piece

/-! ## Tilings -/

/--
Behind some text, the tokens make up what is left: blanks and then a token, as
long as there are tokens, and blanks in front of the end of the input.
-/
inductive Tiles : List Char → List Char → List Token → Prop where
  | done
      (blank : ∀ character ∈ gap, isBlank character = true) :
      Tiles before gap [⟨.endOfInput, .behind (before ++ gap)⟩]
  | next
      (blank : ∀ character ∈ gap, isBlank character = true)
      (covers : Lexeme.Covers lexeme text rest)
      (nonempty : text ≠ [])
      (inside : lexeme.kind ≠ .endOfInput)
      (more : Tiles (before ++ gap ++ text) rest later) :
      Tiles before (gap ++ (text ++ rest))
        (⟨lexeme, .behind (before ++ gap)⟩ :: later)

namespace Tiles

variable {before left : List Char} {tiles : List Token}

/-- No token stands in front of the text that is left. -/
theorem offset_le
    (tiling : Tiles before left tiles) :
    ∀ token ∈ tiles,
      (Position.behind before).offset ≤ token.position.offset := by
  induction tiling with
  | done blank =>
      intro token member
      rw [List.mem_singleton.1 member, Position.offset_behind_append]
      exact Nat.le_add_right _ _
  | next blank covers nonempty inside more induction =>
      intro token member
      rcases List.mem_cons.1 member with rfl | later
      · rw [Position.offset_behind_append]
        exact Nat.le_add_right _ _
      · have front := induction token later
        rw [Position.offset_behind_append, Position.offset_behind_append]
          at front
        omega

/-- The offsets of the tokens increase. -/
theorem increasing
    (tiling : Tiles before left tiles) :
    tiles.Pairwise fun first second =>
      first.position.offset < second.position.offset := by
  induction tiling with
  | done blank => exact List.pairwise_singleton _ _
  | next blank covers nonempty inside more induction =>
      refine List.pairwise_cons.2 ⟨fun token member => ?_, induction⟩
      exact Nat.lt_of_lt_of_le (Position.offset_behind_lt _ nonempty)
        (more.offset_le token member)

/-- The last token, and only it, stands for the end of the input. -/
theorem ends
    (tiling : Tiles before left tiles) :
    ∃ front, (∀ token ∈ front, token.kind ≠ .endOfInput) ∧
      tiles = front ++ [⟨.endOfInput, .behind (before ++ left)⟩] := by
  induction tiling with
  | done blank => exact ⟨[], nofun, rfl⟩
  | @next gap lexeme text rest before later blank covers nonempty inside more
      induction =>
      rcases induction with ⟨front, others, rfl⟩
      refine ⟨⟨lexeme, .behind (before ++ gap)⟩ :: front,
        List.forall_mem_cons.2 ⟨inside, others⟩, ?_⟩
      simp

/-- A token carries the position of the text that it covers. -/
theorem places
    (tiling : Tiles before left tiles) :
    ∀ token ∈ tiles, ∃ front text rest,
      left = front ++ (text ++ rest) ∧
      token.position = .behind (before ++ front) ∧
      token.toLexeme.Covers text rest := by
  induction tiling with
  | done blank =>
      intro token member
      rw [List.mem_singleton.1 member]
      exact ⟨_, [], [], by simp, rfl, rfl⟩
  | next blank covers nonempty inside more induction =>
      intro token member
      rcases List.mem_cons.1 member with rfl | later
      · exact ⟨_, _, _, rfl, rfl, covers⟩
      · rcases induction token later with
          ⟨front, text, rest, rfl, isPlace, covered⟩
        rw [List.append_assoc, List.append_assoc] at isPlace
        exact ⟨_, text, rest, by simp, isPlace, covered⟩

end Tiles

/-! ## The cursor -/

namespace Cursor

/-- At the end of the input there are only blanks in front of the cursor. -/
theorem blank_of_next?_none
    {cursor : Cursor}
    (atEnd : cursor.next? = none) :
    (∀ character ∈ cursor.input, isBlank character = true) ∧
      cursor.skipBlanks = ⟨cursor.position.after cursor.input, []⟩ := by
  rw [next?, skipBlanks] at atEnd
  dsimp only at atEnd
  split at atEnd
  · next nothing =>
    have whole : cursor.input.takeWhile isBlank = cursor.input := by
      have parts := List.takeWhile_append_dropWhile (p := isBlank)
        (l := cursor.input)
      rwa [nothing, List.append_nil] at parts
    have blank := List.all_takeWhile (p := isBlank) (l := cursor.input)
    rw [whole, List.all_eq_true] at blank
    refine ⟨blank, ?_⟩
    rw [skipBlanks, nothing, whole]
  · cases atEnd

/-- The next token comes after blanks, and the cursor moves over both. -/
theorem piece_of_next?_some
    {cursor after : Cursor} {token : Token}
    (step : cursor.next? = some (token, after)) :
    ∃ gap first rest,
      cursor.input = gap ++ first :: rest ∧
      (∀ character ∈ gap, isBlank character = true) ∧
      token = ⟨(Piece.read first rest).lexeme, cursor.position.after gap⟩ ∧
      after = ⟨(cursor.position.after gap).after (Piece.read first rest).text,
        (Piece.read first rest).rest⟩ := by
  rw [next?, skipBlanks] at step
  dsimp only at step
  split at step
  · cases step
  · next first rest found =>
    cases step
    refine ⟨cursor.input.takeWhile isBlank, first, rest, ?_, ?_, rfl, rfl⟩
    · rw [← found, List.takeWhile_append_dropWhile]
    · exact List.all_eq_true.1 List.all_takeWhile

/-- The tokens that are collected, and the end behind them, tile the text. -/
theorem collect_tiles
    (cursor : Cursor) (seen : Array Token) {before : List Char}
    (counts : cursor.position = .behind before) :
    ∃ tiles, (cursor.collect seen).1.toList = seen.toList ++ tiles ∧
      Tiles before cursor.input
        (tiles ++ [(cursor.collect seen).2.endToken]) := by
  fun_induction collect cursor seen generalizing before with
  | case1 cursor seen token after step induction =>
      rcases piece_of_next?_some step with
        ⟨gap, first, rest, isInput, blank, rfl, rfl⟩
      have whole := Piece.read_append first rest
      generalize isPiece : Piece.read first rest = piece at *
      have counted : (cursor.position.after gap).after piece.text =
          .behind (before ++ gap ++ piece.text) := by
        rw [counts, Position.after_behind, Position.after_behind]
      rcases induction counted with ⟨tiles, collected, tiling⟩
      refine ⟨⟨piece.lexeme, cursor.position.after gap⟩ :: tiles, ?_, ?_⟩
      · rw [collected]
        simp
      · rw [counts, Position.after_behind] at tiling ⊢
        rw [isInput, ← whole]
        refine .next blank ?_ ?_ ?_ tiling
        · rw [← isPiece]
          exact Piece.read_covers first rest
        · rw [← isPiece]
          exact Piece.read_text_ne_nil first rest
        · rw [← isPiece]
          exact Piece.read_kind_ne_endOfInput first rest
  | case2 cursor seen atEnd =>
      rcases blank_of_next?_none atEnd with ⟨blank, skipped⟩
      refine ⟨[], (List.append_nil _).symm, ?_⟩
      have isEnd : cursor.skipBlanks.endToken =
          ⟨.endOfInput, .behind (before ++ cursor.input)⟩ := by
        rw [skipped, counts, Position.after_behind]
        rfl
      rw [isEnd]
      exact .done blank

end Cursor

/-! ## Sources -/

/-- The tokens of a source tile it. -/
theorem tiles_tokenize (source : String) :
    Tiles [] source.toList (tokenize source) := by
  rcases (Cursor.ofSource source).collect_tiles #[] Position.behind_nil.symm
    with ⟨tiles, collected, tiling⟩
  have isTiles : tokenize source =
      tiles ++ [((Cursor.ofSource source).collect #[]).2.endToken] := by
    rw [tokenize, Cursor.drain]
    simpa using collected
  rw [isTiles]
  exact tiling

/--
The tokens of a source are a tiling of it, with offsets that increase.  The
last token and no other one stands for the end of the input, behind the last
byte.  Every token is found in the source at its offset, on the line and in the
column that are counted in the text in front of it.
-/
theorem tokenize_lossless (source : String) :
    Tiles [] source.toList (tokenize source) ∧
    ((tokenize source).Pairwise fun first second =>
      first.position.offset < second.position.offset) ∧
    (∃ front last, tokenize source = front ++ [last] ∧
      (∀ token ∈ front, token.kind ≠ .endOfInput) ∧
      last.toLexeme = .endOfInput ∧
      last.position.offset = source.utf8ByteSize) ∧
    ∀ token ∈ tokenize source, ∃ before text rest,
      source.toList = before ++ (text ++ rest) ∧
      token.toLexeme.Covers text rest ∧
      token.position.offset = (String.ofList before).utf8ByteSize ∧
      token.position.line = 1 + before.count '\n' ∧
      token.position.column =
        1 + (before.reverse.takeWhile (· ≠ '\n')).length := by
  have tiling := tiles_tokenize source
  refine ⟨tiling, tiling.increasing, ?_, ?_⟩
  · rcases tiling.ends with ⟨front, others, isTiles⟩
    refine ⟨front, _, isTiles, others, rfl, ?_⟩
    show (String.ofList source.toList).utf8ByteSize = source.utf8ByteSize
    rw [String.ofList_toList]
  · intro token member
    rcases tiling.places token member with
      ⟨before, text, rest, whole, isPlace, covers⟩
    rw [List.nil_append] at isPlace
    rw [isPlace]
    exact ⟨before, text, rest, whole, covers, rfl, rfl, rfl⟩

end Bhasha
