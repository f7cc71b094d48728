import Bhasha.Proofs.Token.LongestMatch
import Bhasha.Proofs.Token.Tiling
import Mathlib.Data.List.DropRight

/-!
# Pulling tokens

A cursor gives its tokens one at a time, one at a time up to the end of the
input, or all that are left at once.  Each of these calls takes the next tokens
of one stream: the tokens of the source, and then the end-of-input token, which
stands at the same place however often it is given.  So calls may be mixed, and
what they give together is a start of the stream.

What a cursor has still to give is told by two things, the tokens that are ahead
of it and the end-of-input token that it comes to.  A call takes tokens away from
the former and never changes the latter.
-/

namespace Bhasha

namespace Cursor

/-! ## What is ahead of a cursor -/

/-- The tokens between a cursor and the end of the input. -/
def ahead (cursor : Cursor) : List Token :=
  (cursor.collect #[]).1.toList

/-- The end-of-input token that a cursor comes to. -/
def ending (cursor : Cursor) : Token :=
  (cursor.collect #[]).2.endToken

variable {cursor middle after : Cursor} {token : Token}

/-- The tokens that were seen before are kept in front. -/
theorem collect_append (cursor : Cursor) (front seen : Array Token) :
    cursor.collect (front ++ seen) =
      (front ++ (cursor.collect seen).1, (cursor.collect seen).2) := by
  fun_induction collect cursor seen with
  | case1 cursor seen token after step induction =>
      rw [collect_of_next?_some step, ← Array.append_push, induction]
  | case2 cursor seen atEnd => rw [collect_of_next?_none atEnd]

theorem ahead_of_next?_some
    (step : cursor.next? = some (token, after)) :
    cursor.ahead = token :: after.ahead ∧ cursor.ending = after.ending := by
  have more : cursor.collect #[] =
      (#[token] ++ (after.collect #[]).1, (after.collect #[]).2) :=
    (collect_of_next?_some step #[]).trans (collect_append after #[token] #[])
  rw [ahead, ending, more]
  exact ⟨Array.toList_append, rfl⟩

/-! ## The end of the input -/

/-- Blanks are skipped once. -/
theorem skipBlanks_skipBlanks (cursor : Cursor) :
    cursor.skipBlanks.skipBlanks = cursor.skipBlanks := by
  have nothing :
      (cursor.input.dropWhile isBlank).takeWhile isBlank = [] :=
    List.takeWhile_eq_nil_iff.2 (List.dropWhile_get_zero_not _ _)
  rw [skipBlanks, skipBlanks]
  dsimp only
  rw [nothing, List.dropWhile_idempotent]
  rfl

theorem next?_skipBlanks (cursor : Cursor) :
    cursor.skipBlanks.next? = cursor.next? := by
  rw [next?, skipBlanks_skipBlanks, ← next?]

theorem endToken_skipBlanks (cursor : Cursor) :
    cursor.skipBlanks.endToken = cursor.endToken := by
  rw [endToken, skipBlanks_skipBlanks, ← endToken]

theorem ahead_of_next?_none
    (atEnd : cursor.next? = none) :
    cursor.ahead = [] ∧ cursor.ending = cursor.endToken := by
  rw [ahead, ending, collect_of_next?_none atEnd]
  exact ⟨rfl, endToken_skipBlanks cursor⟩

/-- A cursor that has collected all tokens is at the end of the input. -/
theorem next?_collect (cursor : Cursor) (seen : Array Token) :
    (cursor.collect seen).2.next? = none := by
  fun_induction collect cursor seen with
  | case1 cursor seen token after step induction => exact induction
  | case2 cursor seen atEnd => rwa [next?_skipBlanks]

theorem kind_of_next?_some
    (step : cursor.next? = some (token, after)) :
    token.kind ≠ .endOfInput := by
  rcases piece_of_next?_some step with ⟨gap, first, rest, -, -, rfl, -⟩
  exact Piece.read_kind_ne_endOfInput first rest

/-! ## Calls -/

/--
A cursor gives some tokens and becomes another one: the tokens are the next ones
ahead of it, continued by the end-of-input token, and no others are lost.
-/
structure Gives (cursor : Cursor) (read : List Token) (after : Cursor) :
    Prop where
  tokens (index : Nat) : index < read.length →
    read[index]? = some (cursor.ahead[index]?.getD cursor.ending)
  ahead_eq : after.ahead = cursor.ahead.drop read.length
  ending_eq : after.ending = cursor.ending

theorem Gives.nil (cursor : Cursor) : cursor.Gives [] cursor where
  tokens _ inside := absurd inside (Nat.not_lt_zero _)
  ahead_eq := rfl
  ending_eq := rfl

theorem Gives.append
    {read more : List Token}
    (first : cursor.Gives read middle)
    (second : middle.Gives more after) :
    cursor.Gives (read ++ more) after where
  tokens index inside := by
    rw [List.length_append] at inside
    by_cases early : index < read.length
    · rw [List.getElem?_append_left early]
      exact first.tokens index early
    · have late := Nat.le_of_not_lt early
      rw [List.getElem?_append_right late, second.tokens _ (by omega),
        first.ahead_eq, first.ending_eq, List.getElem?_drop,
        Nat.add_sub_cancel' late]
  ahead_eq := by
    rw [second.ahead_eq, first.ahead_eq, List.drop_drop, List.length_append]
  ending_eq := second.ending_eq.trans first.ending_eq

theorem Gives.singleton
    (isNext : token = cursor.ahead.head?.getD cursor.ending)
    (ahead_eq : after.ahead = cursor.ahead.tail)
    (ending_eq : after.ending = cursor.ending) :
    cursor.Gives [token] after where
  tokens index inside := by
    cases Nat.lt_one_iff.1 inside
    rw [← List.head?_eq_getElem? (l := cursor.ahead), ← isNext]
    rfl
  ahead_eq := ahead_eq.trans List.drop_one.symm
  ending_eq := ending_eq

theorem next_gives (cursor : Cursor) :
    cursor.Gives [cursor.next.1] cursor.next.2 := by
  rw [next]
  cases step : cursor.next? with
  | some pair =>
      rcases ahead_of_next?_some step with ⟨isAhead, isEnding⟩
      exact .singleton (by rw [isAhead]; rfl) (by rw [isAhead]; rfl)
        isEnding.symm
  | none =>
      rcases ahead_of_next?_none step with ⟨isAhead, isEnding⟩
      rcases ahead_of_next?_none ((next?_skipBlanks cursor).trans step) with
        ⟨stays, staysEnding⟩
      refine .singleton (by rw [isAhead, isEnding]; rfl) ?_ ?_
      · rw [stays, isAhead]
        rfl
      · rw [staysEnding, isEnding, endToken_skipBlanks]

/-- An iteration gives the next token that is ahead, and nothing at the end. -/
theorem iterate_eq (cursor : Cursor) :
    cursor.iterate = (cursor.ahead.head?, cursor.next.2) := by
  rw [iterate, next]
  cases step : cursor.next? with
  | some pair =>
      dsimp only
      rw [if_neg (kind_of_next?_some step), (ahead_of_next?_some step).1]
      rfl
  | none =>
      rw [(ahead_of_next?_none step).1]
      rfl

theorem iterate_gives (cursor : Cursor) :
    cursor.Gives [cursor.iterate.1.getD cursor.ending] cursor.iterate.2 := by
  have next := cursor.next_gives
  rw [iterate_eq]
  refine .singleton rfl ?_ next.ending_eq
  rw [next.ahead_eq]
  exact List.drop_one

theorem drain_eq (cursor : Cursor) :
    cursor.drain.1 = cursor.ahead ++ [cursor.ending] := by
  rw [drain, ahead, ending]
  exact Array.toList_push

theorem drain_gives (cursor : Cursor) :
    cursor.Gives cursor.drain.1 cursor.drain.2 := by
  rcases ahead_of_next?_none (cursor.next?_collect #[]) with
    ⟨stays, staysEnding⟩
  rw [drain_eq]
  constructor
  · intro index inside
    rw [List.getElem?_append]
    split
    · next early => rw [List.getElem?_eq_getElem early, Option.getD_some]
    · next late =>
      rw [List.length_append, List.length_singleton] at inside
      rw [List.getElem?_eq_none (Nat.le_of_not_lt late), Option.getD_none,
        show index - cursor.ahead.length = 0 by omega]
      rfl
  · rw [List.drop_eq_nil_of_le (by simp)]
    exact stays
  · exact staysEnding

end Cursor

/-! ## Sequences of calls -/

/-- The ways to ask a cursor for tokens. -/
inductive Pull where
  | next
  | iterate
  | drain

/-- What a cursor gives for a call. -/
inductive Pull.Answer where
  | next (token : Token)
  | iterate (token : Option Token)
  | drain (tokens : List Token)

/-- The tokens of an answer; nothing is read as a given token. -/
def Pull.Answer.tokens (last : Token) : Answer → List Token
  | .next token => [token]
  | .iterate token => [token.getD last]
  | .drain tokens => tokens

namespace Cursor

/-- Ask for tokens. -/
def pull (cursor : Cursor) : Pull → Pull.Answer × Cursor
  | .next => (.next cursor.next.1, cursor.next.2)
  | .iterate => (.iterate cursor.iterate.1, cursor.iterate.2)
  | .drain => (.drain cursor.drain.1, cursor.drain.2)

/-- Ask for tokens again and again. -/
def pulls (cursor : Cursor) : List Pull → List Pull.Answer × Cursor
  | [] => ([], cursor)
  | call :: calls =>
    let (answer, after) := cursor.pull call
    let (answers, last) := after.pulls calls
    (answer :: answers, last)

theorem pull_gives (cursor : Cursor) (call : Pull) :
    cursor.Gives ((cursor.pull call).1.tokens cursor.ending)
      (cursor.pull call).2 := by
  cases call with
  | next => exact cursor.next_gives
  | iterate => exact cursor.iterate_gives
  | drain => exact cursor.drain_gives

theorem pulls_gives (cursor : Cursor) (calls : List Pull) :
    cursor.Gives
      ((cursor.pulls calls).1.flatMap (Pull.Answer.tokens cursor.ending))
      (cursor.pulls calls).2 := by
  induction calls generalizing cursor with
  | nil => exact .nil cursor
  | cons call calls induction =>
      have first := cursor.pull_gives call
      have rest := induction (cursor.pull call).2
      rw [first.ending_eq] at rest
      exact first.append rest

/-- Tokens that a cursor gives are a start of what is ahead of it. -/
theorem Gives.prefix_replicate
    {cursor after : Cursor} {read : List Token}
    (gives : cursor.Gives read after) :
    read <+: cursor.ahead ++ List.replicate read.length cursor.ending := by
  rw [List.prefix_iff_getElem?]
  intro index inside
  rw [← List.getElem?_eq_getElem inside, gives.tokens index inside,
    List.getElem?_append]
  split
  · next early => rw [List.getElem?_eq_getElem early, Option.getD_some]
  · next late =>
    rw [List.getElem?_eq_none (Nat.le_of_not_lt late), Option.getD_none,
      List.getElem?_replicate, if_pos (by omega)]

end Cursor

/--
Whatever calls are made of the cursor of a source, in any order and beyond the end
of the input, what they give together is a start of the tokens of the source with
one and the same end-of-input token behind them again and again.  After the calls,
the next token is the one behind those that were given, or the end-of-input token;
an iteration gives the former or nothing; and all that are left are the tokens
behind those that were given with the end-of-input token behind them, and only the
latter when there are no others.
-/
theorem pulls_agree (source : String) :
    ∃ last, last.toLexeme = .endOfInput ∧
      tokenize source = tokens source ++ [last] ∧
      (∀ token ∈ tokens source, token.kind ≠ .endOfInput) ∧
      ∀ calls,
        let answers := (Cursor.ofSource source).pulls calls
        let read := answers.1.flatMap (Pull.Answer.tokens last)
        (∃ count, read <+: tokens source ++ List.replicate count last) ∧
        answers.2.next.1 = (tokens source)[read.length]?.getD last ∧
        answers.2.iterate.1 = (tokens source)[read.length]? ∧
        answers.2.drain.1 = (tokens source).drop read.length ++ [last] ∧
        ((tokens source).length ≤ read.length →
          answers.2.drain.1 = [last]) := by
  refine ⟨(Cursor.ofSource source).ending, rfl, Cursor.drain_eq _, ?_, ?_⟩
  · intro token member
    exact kind_ne_endOfInput_of_mem_lexemes (List.mem_map_of_mem member)
  · intro calls answers read
    have gives : Cursor.Gives _ read answers.2 :=
      (Cursor.ofSource source).pulls_gives calls
    have next := answers.2.next_gives.tokens 0 Nat.one_pos
    have drain := answers.2.drain_eq
    rw [gives.ahead_eq, gives.ending_eq] at next drain
    rw [List.getElem?_drop, Nat.add_zero] at next
    refine ⟨⟨_, gives.prefix_replicate⟩, Option.some.inj next, ?_, drain, ?_⟩
    · rw [Cursor.iterate_eq, gives.ahead_eq, List.head?_drop]
      rfl
    · intro exhausted
      rw [drain]
      exact congrArg (· ++ [_]) (List.drop_eq_nil_of_le exhausted)

end Bhasha
