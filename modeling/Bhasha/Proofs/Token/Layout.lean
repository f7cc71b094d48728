import Bhasha.Parser.Grammar
import Bhasha.Proofs.Token.Separation

/-!
# The layout of a source

A program is the sequence of its lexemes, and blanks only keep them apart.  The
lexemes of any source, a faulty one included, can be written again with other
blanks: at least one between two lexemes, and as many as one likes in front and
behind.  Each lexeme is then read as itself, since a blank makes no lexeme in
front of it longer.
-/

namespace Bhasha

/-! ## Blanks -/

/-- A run of blanks, which may be empty. -/
def IsGap (text : List Char) : Prop :=
  ∀ character ∈ text, isBlank character = true

instance : DecidablePred IsGap := fun _ =>
  decidable_of_iff _ List.all_eq_true

/-- A gap adds no lexemes to the text behind it. -/
theorem IsGap.scan_append
    {gap : List Char}
    (blank : IsGap gap)
    (after : List Char) :
    scan (gap ++ after) = scan after := by
  rw [← scan_dropWhile, List.dropWhile_append_of_pos blank, scan_dropWhile]

/-- A blank is a boundary for every lexeme. -/
theorem isSeparator_of_isBlank
    {character : Char}
    (blank : isBlank character = true) :
    isSeparator character = true := by
  simp only [isBlank, Bool.or_eq_true, decide_eq_true_eq] at blank
  rcases blank with ((rfl | rfl) | rfl) | rfl <;> decide

theorem IsGap.separated_append
    {gap : List Char}
    (blank : IsGap gap)
    (nonempty : gap ≠ [])
    (after : List Char) :
    Separated (gap ++ after) := by
  intro next member
  cases gap with
  | nil => exact absurd rfl nonempty
  | cons first rest =>
      cases member
      exact isSeparator_of_isBlank (blank next List.mem_cons_self)

/-! ## Layouts -/

/--
A text that writes some lexemes in order: with gaps at both ends, which may be
empty, and gaps between the lexemes, which may not.
-/
inductive Layout : List Lexeme → List Char → Prop where
  | empty (gap : List Char) :
      IsGap gap → Layout [] gap
  | last {lexeme : Lexeme} (front back : List Char) :
      IsGap front → IsGap back →
      Layout [lexeme] (front ++ lexeme.written.toList ++ back)
  | next {lexeme : Lexeme} {lexemes : List Lexeme} {text : List Char}
      (front gap : List Char) :
      IsGap front → IsGap gap → gap ≠ [] →
      lexemes ≠ [] → Layout lexemes text →
      Layout (lexeme :: lexemes)
        (front ++ lexeme.written.toList ++ (gap ++ text))

/-- Lexemes that can be written on their own are read again from a layout. -/
theorem Layout.scan_eq
    {phrase : List Lexeme} {text : List Char}
    (layout : Layout phrase text)
    (spells : ∀ lexeme ∈ phrase, Spells lexeme.written [lexeme]) :
    scan text = phrase := by
  induction layout with
  | empty gap blank =>
      have nothing := blank.scan_append []
      rwa [List.append_nil, scan_nil] at nothing
  | @last lexeme front back blank blankBack =>
      have separated : Separated back := fun next member =>
        isSeparator_of_isBlank (blankBack next (List.mem_of_mem_head? member))
      have nothing := blankBack.scan_append []
      rw [List.append_nil, scan_nil] at nothing
      rw [List.append_assoc, blank.scan_append,
        spells lexeme List.mem_cons_self back separated, nothing,
        List.append_nil]
  | next front gap blank blankGap nonempty _ _ induction =>
      rcases List.forall_mem_cons.1 spells with ⟨first, others⟩
      have separated := blankGap.separated_append nonempty
      rw [List.append_assoc, blank.scan_append, first _ (separated _),
        blankGap.scan_append, induction others, List.singleton_append]

/-! ## Sources -/

/--
A text that writes the lexemes of a source with other blanks has the same tokens
apart from their places, and it is read as the same program with the same
diagnostics.
-/
theorem parse_layout
    (source text : String)
    (layout : Layout (lexemes source) text.toList) :
    stream text = stream source ∧ parse text = parse source := by
  have same : lexemes text = lexemes source := by
    rw [lexemes_eq_scan text]
    refine layout.scan_eq fun lexeme member => ?_
    rw [lexemes_eq_scan] at member
    exact spells_of_mem_scan member
  refine ⟨?_, ?_⟩
  · rw [stream_eq, stream_eq, same]
  · rw [parse, parse, same]

/--
An unterminated string behind adjacent operators, an illegal character and
numerals of two scripts that touch: the lexemes are written on lines of their
own, with the string closed.
-/
theorem parse_layout_unterminated :
    Layout (lexemes "-!1१@ \"a b")
        "\t-\n!\n1\n१\r\n@ \t \"a b\"".toList ∧
      stream "\t-\n!\n1\n१\r\n@ \t \"a b\"" = stream "-!1१@ \"a b" ∧
      parse "\t-\n!\n1\n१\r\n@ \t \"a b\"" = parse "-!1१@ \"a b" ∧
      (parse "-!1१@ \"a b").diagnostics = [.noOperand .illegal] := by
  have isSource : lexemes "-!1१@ \"a b" =
      [⟨.symbol .minus, "-"⟩, ⟨.symbol .bang, "!"⟩, ⟨.integer, "1"⟩,
        ⟨.integer, "१"⟩, ⟨.illegal, "@"⟩, ⟨.string, "a b"⟩] := by
    decide +kernel
  have layout : Layout (lexemes "-!1१@ \"a b")
      "\t-\n!\n1\n१\r\n@ \t \"a b\"".toList := by
    rw [isSource]
    refine .next ['\t'] ['\n'] (by decide) (by decide) nofun nofun ?_
    refine .next [] ['\n'] (by decide) (by decide) nofun nofun ?_
    refine .next [] ['\n'] (by decide) (by decide) nofun nofun ?_
    refine .next [] ['\r', '\n'] (by decide) (by decide) nofun nofun ?_
    refine .next [] [' ', '\t', ' '] (by decide) (by decide) nofun nofun ?_
    exact .last [] [] (by decide) (by decide)
  rcases parse_layout _ _ layout with ⟨sameTokens, sameProgram⟩
  exact ⟨layout, sameTokens, sameProgram, by decide +kernel⟩

end Bhasha
