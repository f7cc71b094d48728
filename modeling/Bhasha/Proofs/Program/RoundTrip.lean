import Bhasha.Program.Printer
import Bhasha.Proofs.Parser.Acceptance
import Bhasha.Proofs.Token.Spelling

/-!
# Reading a printed program

The text of a program is read as the program that was printed.  It holds for
the programs whose names, integers and strings the language can write, at any
size and nesting.

A printed expression is a phrase of the tightest stratum: operators and index
expressions stand in parentheses, and every other form is an atom or a call.
So the phrase is derived in the same way wherever the expression stands, and
the lexemes around it are looked at only where a word, a numeral or an operator
could become longer.
-/

namespace Bhasha

/-! ## Programs that can be written -/

mutual

/-- The names, integers and strings of an expression can be written. -/
def Expr.Printable : Expr → Prop
  | .name name => IsName name ∨ name = Keyword.print.spelling
  | .integer value => 0 ≤ value
  | .string text => '"' ∉ text.toList
  | .boolean _ => True
  | .array items => Expr.PrintableList items
  | .hash entries => Expr.PrintablePairs entries
  | .unary _ operand => Expr.Printable operand
  | .binary _ left right => Expr.Printable left ∧ Expr.Printable right
  | .conditional condition consequence alternative =>
    Expr.Printable condition ∧ Stmt.PrintableList consequence ∧
      Stmt.PrintableAlternative alternative
  | .function parameters body =>
    (∀ name ∈ parameters, IsName name) ∧ Stmt.PrintableList body
  | .call callee arguments =>
    Expr.Printable callee ∧ Expr.PrintableList arguments
  | .index collection position =>
    Expr.Printable collection ∧ Expr.Printable position

/-- Every item of a list can be written. -/
def Expr.PrintableList : List Expr → Prop
  | [] => True
  | item :: items => Expr.Printable item ∧ Expr.PrintableList items

/-- Every key and every value can be written. -/
def Expr.PrintablePairs : List (Expr × Expr) → Prop
  | [] => True
  | (key, value) :: entries =>
    Expr.Printable key ∧ Expr.Printable value ∧ Expr.PrintablePairs entries

/-- A statement can be written; a nested block is not read back as one. -/
def Stmt.Printable : Stmt → Prop
  | .define name value => IsName name ∧ Expr.Printable value
  | .result value => Expr.Printable value
  | .expression value => Expr.Printable value
  | .block _ => False

/-- Every statement of a list can be written. -/
def Stmt.PrintableList : List Stmt → Prop
  | [] => True
  | statement :: statements =>
    Stmt.Printable statement ∧ Stmt.PrintableList statements

/-- The second branch of a conditional, if there is one, can be written. -/
def Stmt.PrintableAlternative : Option (List Stmt) → Prop
  | none => True
  | some body => Stmt.PrintableList body

end

/-- Every statement of a program can be written. -/
def Program.Printable (program : Program) : Prop :=
  Stmt.PrintableList program

/-! ## Constructs -/

open Lexeme (ofSymbol ofKeyword)

/-- In front of a separator the text is read as a phrase that derives a tree. -/
def Renders (text : String) (derives : List Lexeme → Prop) : Prop :=
  ∃ phrase, Spells text phrase ∧ derives phrase

/-- Whatever follows, the text is read as a phrase that derives a tree. -/
def RendersAlone (text : String) (derives : List Lexeme → Prop) : Prop :=
  ∃ phrase, Delimits text phrase ∧ derives phrase

/-- A text with a mark behind it. -/
theorem Spells.mark
    {text : String} {phrase last : List Lexeme}
    (spells : Spells text phrase)
    (closing : String)
    (closes : punctuation? closing.toList = some last)
    (separates : opensSeparated closing = true) :
    Delimits (text ++ closing) (phrase ++ last) :=
  spells.close (delimits_punctuation closes) separates

/-- A text between two marks. -/
theorem Spells.enclose
    {text opening closing : String} {phrase first last : List Lexeme}
    (spells : Spells text phrase)
    (opens : punctuation? opening.toList = some first)
    (closes : punctuation? closing.toList = some last)
    (separates : opensSeparated closing = true) :
    Delimits (opening ++ text ++ closing) (first ++ (phrase ++ last)) := by
  rw [← List.append_assoc]
  exact ((delimits_punctuation opens).append_spells spells).mark closing
    closes separates

/-- Two texts with a mark between them. -/
theorem Spells.separate
    {text next : String} {phrase middle second : List Lexeme}
    (left : Spells text phrase)
    (mark : String)
    (separates : punctuation? mark.toList = some middle)
    (opens : opensSeparated mark = true)
    (right : Spells next second) :
    Spells (text ++ mark ++ next) (phrase ++ (middle ++ second)) := by
  rw [← List.append_assoc]
  exact (left.mark mark separates opens).append_spells right

/-- Two texts with a symbol between blanks between them. -/
theorem Spells.around
    {text next : String} {phrase second : List Lexeme}
    (left : Spells text phrase)
    (symbol : Symbol)
    (right : Spells next second) :
    Spells (text ++ " " ++ symbol.spelling ++ " " ++ next)
      (phrase ++ ofSymbol symbol :: second) := by
  have blank : punctuation? " ".toList = some [] := rfl
  have front := left.separate " " blank rfl (spells_symbol symbol)
  simpa using front.separate " " blank rfl right

/-- A text with statements behind it, up to the closing brace. -/
theorem Spells.braces
    {text block : String} {phrase first inner : List Lexeme}
    (front : Spells text phrase)
    (opening : String)
    (opens : punctuation? opening.toList = some first)
    (separates : opensSeparated opening = true)
    (delimits : Delimits block inner) :
    Delimits (text ++ opening ++ block ++ " \x7d")
      (phrase ++ (first ++ (inner ++ [ofSymbol .rightBrace]))) := by
  have body := (front.mark opening opens separates).append delimits
  simpa using body.spells.mark " \x7d" rfl rfl

/-- The symbols with which an expression can start. -/
theorem mem_of_starts
    {symbol : Symbol}
    (starts : Kind.Starts (.symbol symbol)) :
    symbol ∈
      [.bang, .minus, .leftParen, .leftBracket, (.leftBrace : Symbol)] := by
  generalize isSymbol : Kind.symbol symbol = kind at starts
  cases starts with
  | unary operator =>
      cases isSymbol
      cases operator <;> decide
  | _ => cases isSymbol <;> decide

/-- What starts with an equals sign is no expression. -/
theorem scan_assign
    {text : List Char} {first : Lexeme} {rest : List Lexeme}
    (found : scan ('=' :: text) = first :: rest) :
    ¬ first.kind.Starts := by
  by_cases twice : text.head? = some '='
  · rcases List.head?_eq_some_iff.1 twice with ⟨more, rfl⟩
    have whole : scan ('=' :: '=' :: more) = ofSymbol .equal :: scan more :=
      scan_symbol .equal (absurd · (by decide))
    rw [whole] at found
    cases found
    intro starts
    exact absurd (mem_of_starts starts) (by decide)
  · have whole : scan ('=' :: text) = ofSymbol .assign :: scan text :=
      scan_symbol .assign fun _ => twice
    rw [whole] at found
    cases found
    intro starts
    exact absurd (mem_of_starts starts) (by decide)

/-- An operator in front of an expression is not read as a longer one. -/
theorem Spells.unary
    {text : String} {phrase : List Lexeme}
    (operator : UnaryOp)
    (spells : Spells text phrase)
    (starts : ∃ first rest, phrase = first :: rest ∧ first.kind.Starts) :
    Spells (operator.spelling ++ text)
      (ofSymbol operator.symbol :: phrase) := by
  intro after separated
  rw [UnaryOp.spelling, Symbol.spelling, String.toList_append,
    String.toList_ofList, List.append_assoc, List.cons_append,
    ← spells after separated]
  apply scan_symbol
  intro _ head
  rcases starts with ⟨first, rest, rfl, isStart⟩
  rcases List.head?_eq_some_iff.1 head with ⟨more, characters⟩
  have same := spells after separated
  rw [characters] at same
  exact scan_assign same isStart

/-! ## Parameters -/

theorem intercalate_renders :
    ∀ {names : List String}, (∀ name ∈ names, IsName name) →
      Renders (", ".intercalate names) (Phrase.Parameters · names)
  | [], _ => ⟨[], Delimits.empty.spells, .none⟩
  | [name], isName => by
    rw [String.intercalate_singleton]
    exact ⟨[⟨.identifier, name⟩], spells_name (isName name (by simp)),
      .some .none⟩
  | name :: next :: names, isName => by
    rcases intercalate_renders fun name member =>
      isName name (List.mem_cons_of_mem _ member) with
      ⟨phrase, spells, derives⟩
    cases derives with
    | some more =>
        rw [String.intercalate_cons_cons]
        exact ⟨_, (spells_name (isName name (by simp))).separate ", "
          rfl rfl spells, .some (.some more)⟩

/-! ## Expressions -/

/-- The text is read as a phrase of the tightest stratum. -/
def RendersExpression (text : String) (tree : Expr) : Prop :=
  Renders text (Phrase.Expression .applied · tree)

namespace RendersExpression

variable {text : String} {tree : Expr}

theorem name
    {name : String}
    (writable : IsName name ∨ name = Keyword.print.spelling) :
    RendersExpression name (.name name) := by
  rcases writable with isName | rfl
  · exact ⟨_, spells_name isName, .name⟩
  · exact ⟨_, spells_keyword .print, .print⟩

theorem natural
    {number : Nat} {value : Int64}
    (same : value.toInt = number) :
    RendersExpression number.repr (.integer value) :=
  ⟨_, spells_numeral _, .integer (Numeral.denotes_repr_iff.2 same)⟩

theorem integer
    {value : Int64}
    (positive : 0 ≤ value) :
    RendersExpression (Numeral.write value) (.integer value) := by
  rw [Numeral.write_eq_repr positive]
  rw [Int64.le_iff_toInt_le, Int64.toInt_zero] at positive
  exact natural (Int.toNat_of_nonneg positive).symm

theorem string
    (unquoted : '"' ∉ text.toList) :
    RendersExpression ("\"" ++ text ++ "\"") (.string text) :=
  ⟨_, (delimits_string unquoted).spells, .string⟩

theorem array
    {trees : List Expr}
    (items : Renders text (Phrase.Items · trees)) :
    RendersExpression ("[" ++ text ++ "]") (.array trees) := by
  rcases items with ⟨phrase, spells, derives⟩
  exact ⟨_, (spells.enclose rfl rfl rfl).spells, .array derives⟩

theorem hash
    {pairs : List (Expr × Expr)}
    (entries : Renders text (Phrase.Entries · pairs)) :
    RendersExpression ("\x7b" ++ text ++ "\x7d") (.hash pairs) := by
  rcases entries with ⟨phrase, spells, derives⟩
  exact ⟨_, (spells.enclose rfl rfl rfl).spells, .hash derives⟩

/-- An expression of any stratum is tight between parentheses. -/
theorem grouped
    {stratum : Stratum}
    (inner : Renders text (Phrase.Expression stratum · tree)) :
    RendersExpression ("(" ++ text ++ ")") tree := by
  rcases inner with ⟨phrase, spells, derives⟩
  exact ⟨_, (spells.enclose rfl rfl rfl).spells, .grouped derives.loosest⟩

theorem signed
    (operator : UnaryOp)
    (operand : RendersExpression text tree) :
    Renders (operator.spelling ++ text)
      (Phrase.Expression .signed · (.unary operator tree)) := by
  rcases operand with ⟨phrase, spells, derives⟩
  exact ⟨_, spells.unary operator derives.starts,
    .unary (.tighter (by decide) derives)⟩

theorem unary
    (operator : UnaryOp)
    (operand : RendersExpression text tree) :
    RendersExpression ("(" ++ operator.spelling ++ text ++ ")")
      (.unary operator tree) := by
  simpa only [String.append_assoc] using grouped (operand.signed operator)

theorem binary
    {next : String} {right : Expr}
    (operator : BinaryOp)
    (first : RendersExpression text tree)
    (second : RendersExpression next right) :
    RendersExpression
      ("(" ++ text ++ " " ++ operator.spelling ++ " " ++ next ++ ")")
      (.binary operator tree right) := by
  rcases first with ⟨phrase, spells, derives⟩
  rcases second with ⟨phraseRight, spellsRight, derivesRight⟩
  have order : operator.stratum.rank < Stratum.applied.rank := by
    cases operator <;> decide
  have inner :
      Renders (text ++ " " ++ operator.spelling ++ " " ++ next)
        (Phrase.Expression operator.stratum · (.binary operator tree right)) :=
    ⟨_, spells.around operator.symbol spellsRight,
      .binary order (.tighter order.le derives) derivesRight⟩
  simpa only [String.append_assoc] using grouped inner

theorem call
    {next : String} {trees : List Expr}
    (callee : RendersExpression text tree)
    (arguments : Renders next (Phrase.Items · trees)) :
    RendersExpression (text ++ "(" ++ next ++ ")") (.call tree trees) := by
  rcases callee with ⟨phrase, spells, derives⟩
  rcases arguments with ⟨items, spellsItems, derivesItems⟩
  have whole :=
    ((spells.mark "(" rfl rfl).append_spells spellsItems).mark ")" rfl rfl
  exact ⟨phrase ++ ofSymbol .leftParen :: (items ++ [ofSymbol .rightParen]),
    by simpa using whole.spells, .call derives derivesItems⟩

theorem index
    {next : String} {position : Expr}
    (collection : RendersExpression text tree)
    (inner : RendersExpression next position) :
    RendersExpression ("(" ++ text ++ "[" ++ next ++ "])")
      (.index tree position) := by
  rcases collection with ⟨phrase, spells, derives⟩
  rcases inner with ⟨item, spellsItem, derivesItem⟩
  have whole :=
    ((spells.mark "[" rfl rfl).append_spells spellsItem).mark "]" rfl rfl
  have applied : RendersExpression (text ++ "[" ++ next ++ "]")
      (.index tree position) :=
    ⟨phrase ++ ofSymbol .leftBracket :: (item ++ [ofSymbol .rightBracket]),
      by simpa using whole.spells,
      .index derives derivesItem.loosest⟩
  have closing : "])" = "]" ++ ")" := by
    decide
  rw [closing]
  simpa only [String.append_assoc] using grouped applied

/-! ### Blocks -/

theorem conditional
    {branch rest : String} {body : List Stmt} {other : Option (List Stmt)}
    (condition : RendersExpression text tree)
    (consequence : RendersAlone branch (Phrase.Sequence · body))
    (alternative : RendersAlone rest (Phrase.Alternative · other)) :
    RendersExpression
      (Keyword.conditional.spelling ++ " " ++ text ++ " \x7b" ++ branch ++
        " \x7d" ++ rest)
      (.conditional tree body other) := by
  rcases condition with ⟨phrase, spells, derives⟩
  rcases consequence with ⟨block, spellsBlock, derivesBlock⟩
  rcases alternative with ⟨last, spellsLast, derivesLast⟩
  have front :=
    ((spells_keyword .conditional).mark " " rfl rfl).append_spells spells
  have whole := (front.braces " \x7b" rfl rfl spellsBlock).append spellsLast
  exact ⟨ofKeyword .conditional :: (phrase ++
      (ofSymbol .leftBrace :: (block ++ [ofSymbol .rightBrace]) ++ last)),
    by simpa using whole.spells,
    .conditional derives.loosest (.braces derivesBlock) derivesLast⟩

/-- A function literal, whatever blanks stand at its braces. -/
theorem function
    {block opening closing : String} {names : List String} {body : List Stmt}
    (opens : punctuation? opening.toList =
      some [ofSymbol .rightParen, ofSymbol .leftBrace])
    (separates : opensSeparated opening = true)
    (closes : punctuation? closing.toList = some [ofSymbol .rightBrace])
    (parameters : Renders text (Phrase.Parameters · names))
    (statements : RendersAlone block (Phrase.Sequence · body)) :
    RendersExpression
      (Keyword.function.spelling ++ "(" ++ text ++ opening ++ block ++ closing)
      (.function names body) := by
  rcases parameters with ⟨phrase, spells, derives⟩
  rcases statements with ⟨inner, delimits, derivesInner⟩
  have front :=
    ((spells_keyword .function).mark "(" rfl rfl).append_spells spells
  have whole := ((front.mark opening opens separates).append delimits).append
    (delimits_punctuation closes)
  exact ⟨ofKeyword .function :: ofSymbol .leftParen :: (phrase ++
      ofSymbol .rightParen ::
        ofSymbol .leftBrace :: (inner ++ [ofSymbol .rightBrace])),
    by simpa using whole.spells, .function derives (.braces derivesInner)⟩

end RendersExpression

theorem RendersAlone.alternative
    {block : String} {body : List Stmt}
    (statements : RendersAlone block (Phrase.Sequence · body)) :
    RendersAlone
      (" " ++ Keyword.alternative.spelling ++ " \x7b" ++ block ++ " \x7d")
      (Phrase.Alternative · (some body)) := by
  rcases statements with ⟨phrase, delimits, derives⟩
  have blank : Delimits " " [] := delimits_punctuation rfl
  have front := blank.append_spells (spells_keyword .alternative)
  have whole := front.braces " \x7b" rfl rfl delimits
  exact ⟨ofKeyword .alternative ::
      ofSymbol .leftBrace :: (phrase ++ [ofSymbol .rightBrace]),
    by simpa using whole, .some (.braces derives)⟩

/-! ## Items, entries and statements -/

theorem Phrase.Items.more
    {comma : String} {phrase : List Lexeme} {tree : Expr} {trees : List Expr}
    (items : Items phrase (tree :: trees)) :
    MoreItems (⟨.symbol .comma, comma⟩ :: phrase) (tree :: trees) := by
  cases items with
  | some first more => exact .some first more

theorem Renders.items
    {stratum : Stratum} {text : String} {tree : Expr}
    (item : Renders text (Phrase.Expression stratum · tree)) :
    Renders text (Phrase.Items · [tree]) := by
  rcases item with ⟨phrase, spells, derives⟩
  exact ⟨phrase ++ [], by simpa using spells,
    .some derives.loosest .none⟩

theorem Renders.cons
    {stratum : Stratum} {text rest : String} {tree next : Expr}
    {trees : List Expr}
    (item : Renders text (Phrase.Expression stratum · tree))
    (items : Renders rest (Phrase.Items · (next :: trees))) :
    Renders (text ++ ", " ++ rest) (Phrase.Items · (tree :: next :: trees)) := by
  rcases item with ⟨phrase, spells, derives⟩
  rcases items with ⟨more, spellsMore, derivesMore⟩
  exact ⟨phrase ++ ofSymbol .comma :: more,
    spells.separate ", " rfl rfl spellsMore,
    .some derives.loosest derivesMore.more⟩

theorem Renders.entry
    {stratum other : Stratum} {text next : String} {key value : Expr}
    (first : Renders text (Phrase.Expression stratum · key))
    (second : Renders next (Phrase.Expression other · value)) :
    Renders (text ++ ": " ++ next) (Phrase.Entries · [(key, value)]) := by
  rcases first with ⟨phrase, spells, derives⟩
  rcases second with ⟨phraseValue, spellsValue, derivesValue⟩
  exact ⟨phrase ++ ofSymbol .colon :: phraseValue,
    spells.separate ": " rfl rfl spellsValue,
    .last derives.loosest derivesValue.loosest⟩

theorem Renders.entries
    {stratum other : Stratum} {text next rest : String} {key value : Expr}
    {pairs : List (Expr × Expr)}
    (first : Renders text (Phrase.Expression stratum · key))
    (second : Renders next (Phrase.Expression other · value))
    (entries : Renders rest (Phrase.Entries · pairs)) :
    Renders (text ++ ": " ++ next ++ ", " ++ rest)
      (Phrase.Entries · ((key, value) :: pairs)) := by
  rcases first with ⟨phrase, spells, derives⟩
  rcases second with ⟨phraseValue, spellsValue, derivesValue⟩
  rcases entries with ⟨more, spellsMore, derivesMore⟩
  have whole :=
    (spells.separate ": " rfl rfl spellsValue).separate ", " rfl rfl
      spellsMore
  exact ⟨phrase ++ ofSymbol .colon ::
      (phraseValue ++ ofSymbol .comma :: more),
    by simpa using whole,
    .some derives.loosest derivesValue.loosest derivesMore⟩

/-- Whatever follows, the text is read as a statement and its semicolon. -/
def RendersStatement (text : String) (tree : Stmt) : Prop :=
  ∃ phrase, Delimits text (phrase ++ [ofSymbol .semicolon]) ∧
    Phrase.Statement phrase tree

theorem RendersExpression.define
    {text name : String} {tree : Expr}
    (value : RendersExpression text tree)
    (isName : IsName name) :
    RendersStatement
      (Keyword.binding.spelling ++ " " ++ name ++ " = " ++ text ++ ";")
      (.define name tree) := by
  rcases value with ⟨phrase, spells, derives⟩
  have assign : " = " = " " ++ Symbol.assign.spelling ++ " " := by
    decide
  have front :=
    ((spells_keyword .binding).mark " " rfl rfl).append_spells
      (spells_name isName)
  have whole := (front.around .assign spells).mark ";" rfl rfl
  refine ⟨ofKeyword .binding :: ⟨.identifier, name⟩ ::
    ofSymbol .assign :: phrase, ?_, .binding derives.loosest⟩
  rw [assign]
  simpa [String.append_assoc] using whole

theorem RendersExpression.result
    {text : String} {tree : Expr}
    (value : RendersExpression text tree) :
    RendersStatement (Keyword.result.spelling ++ " " ++ text ++ ";")
      (.result tree) := by
  rcases value with ⟨phrase, spells, derives⟩
  have whole :=
    (((spells_keyword .result).mark " " rfl rfl).append_spells
      spells).mark ";" rfl rfl
  exact ⟨ofKeyword .result :: phrase, by simpa using whole,
    .result derives.loosest⟩

theorem RendersExpression.statement
    {text : String} {tree : Expr}
    (value : RendersExpression text tree) :
    RendersStatement (text ++ ";") (.expression tree) := by
  rcases value with ⟨phrase, spells, derives⟩
  exact ⟨phrase, spells.mark ";" rfl rfl,
    .expression derives.loosest⟩

theorem RendersStatement.sequence
    {text rest : String} {tree : Stmt} {body : List Stmt}
    (first : RendersStatement text tree)
    (more : RendersAlone rest (Phrase.Sequence · body)) :
    RendersAlone (text ++ rest) (Phrase.Sequence · (tree :: body)) := by
  rcases first with ⟨phrase, delimits, derives⟩
  rcases more with ⟨phraseMore, delimitsMore, derivesMore⟩
  exact ⟨phrase ++ ofSymbol .semicolon :: phraseMore,
    by simpa using delimits.append delimitsMore,
    .closed derives derivesMore⟩

/-- Blanks around what is read on its own change nothing. -/
theorem RendersAlone.blank
    {text : String} {derives : List Lexeme → Prop}
    (inner : RendersAlone text derives)
    (mark : String)
    (isBlank : punctuation? mark.toList = some []) :
    RendersAlone (mark ++ text) derives := by
  rcases inner with ⟨phrase, delimits, derivation⟩
  exact ⟨phrase, (delimits_punctuation isBlank).append delimits, derivation⟩

/-! ## Trees -/

mutual

theorem Expr.print_renders :
    ∀ {tree : Expr}, tree.Printable → RendersExpression tree.print tree
  | .name _, printable => .name printable
  | .integer _, printable => .integer printable
  | .string _, printable => .string printable
  | .boolean true, _ => ⟨_, spells_keyword .truth, .truth⟩
  | .boolean false, _ => ⟨_, spells_keyword .falsehood, .falsehood⟩
  | .array _, printable => .array (Expr.printList_renders printable)
  | .hash _, printable => .hash (Expr.printPairs_renders printable)
  | .unary operator _, printable =>
    .unary operator (Expr.print_renders printable)
  | .binary operator _ _, ⟨left, right⟩ =>
    .binary operator (Expr.print_renders left) (Expr.print_renders right)
  | .conditional _ _ _, ⟨condition, consequence, alternative⟩ =>
    .conditional (Expr.print_renders condition)
      (Stmt.printList_renders consequence)
      (Stmt.printAlternative_renders alternative)
  | .function _ _, ⟨parameters, body⟩ =>
    .function rfl rfl rfl (intercalate_renders parameters)
      (Stmt.printList_renders body)
  | .call _ _, ⟨callee, arguments⟩ =>
    .call (Expr.print_renders callee) (Expr.printList_renders arguments)
  | .index _ _, ⟨collection, position⟩ =>
    .index (Expr.print_renders collection) (Expr.print_renders position)

theorem Expr.printList_renders :
    ∀ {items : List Expr}, Expr.PrintableList items →
      Renders (Expr.printList items) (Phrase.Items · items)
  | [], _ => ⟨[], Delimits.empty.spells, .none⟩
  | [_], ⟨item, _⟩ => (Expr.print_renders item).items
  | _ :: _ :: _, ⟨item, items⟩ =>
    (Expr.print_renders item).cons (Expr.printList_renders items)

theorem Expr.printPairs_renders :
    ∀ {entries : List (Expr × Expr)}, Expr.PrintablePairs entries →
      Renders (Expr.printPairs entries) (Phrase.Entries · entries)
  | [], _ => ⟨[], Delimits.empty.spells, .none⟩
  | [(_, _)], ⟨key, value, _⟩ =>
    (Expr.print_renders key).entry (Expr.print_renders value)
  | (_, _) :: _ :: _, ⟨key, value, entries⟩ =>
    (Expr.print_renders key).entries (Expr.print_renders value)
      (Expr.printPairs_renders entries)

theorem Stmt.print_renders :
    ∀ {statement : Stmt}, statement.Printable →
      RendersStatement statement.print statement
  | .define _ _, ⟨isName, value⟩ => (Expr.print_renders value).define isName
  | .result _, value => (Expr.print_renders value).result
  | .expression _, value => (Expr.print_renders value).statement
  | .block _, impossible => impossible.elim

theorem Stmt.printList_renders :
    ∀ {body : List Stmt}, Stmt.PrintableList body →
      RendersAlone (Stmt.printList body) (Phrase.Sequence · body)
  | [], _ => ⟨[], Delimits.empty, .empty⟩
  | _ :: _, ⟨statement, body⟩ => by
    rw [Stmt.printList, String.append_assoc]
    exact ((Stmt.print_renders statement).sequence
      (Stmt.printList_renders body)).blank " " rfl

theorem Stmt.printAlternative_renders :
    ∀ {alternative : Option (List Stmt)},
      Stmt.PrintableAlternative alternative →
      RendersAlone (Stmt.printAlternative alternative)
        (Phrase.Alternative · alternative)
  | none, _ => ⟨[], Delimits.empty, .none⟩
  | some _, body => (Stmt.printList_renders body).alternative

end

/-- A text of one expression is read as a program of one statement. -/
theorem Renders.parse_eq
    {stratum : Stratum} {text : String} {tree : Expr}
    (renders : Renders text (Phrase.Expression stratum · tree)) :
    parse text = ⟨[.expression tree], []⟩ := by
  rcases renders with ⟨phrase, spells, derives⟩
  rw [parse, spells.lexemes_eq]
  exact parseLexemes_of_derives derives.sequence

/-- The lines of a program are read as its statements. -/
theorem Stmt.printLines_renders :
    ∀ {program : List Stmt}, Stmt.PrintableList program →
      RendersAlone (Stmt.printLines program) (Phrase.Sequence · program)
  | [], _ => ⟨[], Delimits.empty, .empty⟩
  | _ :: _, ⟨statement, program⟩ => by
    rw [Stmt.printLines, List.map_cons, String.join_cons, String.append_assoc]
    exact (Stmt.print_renders statement).sequence
      ((Stmt.printLines_renders program).blank "\n" rfl)

/-- The lexemes of the text of a program are a phrase for the program. -/
theorem Program.Printable.derives
    {program : Program}
    (printable : program.Printable) :
    Phrase.Sequence (lexemes program.print) program := by
  rcases Stmt.printLines_renders printable with ⟨phrase, delimits, derives⟩
  rw [Program.print, delimits.spells.lexemes_eq]
  exact derives

/--
A program that can be written is read back from its text, without a
diagnostic.
-/
theorem parse_print
    (program : Program)
    (printable : program.Printable) :
    parse program.print = ⟨program, []⟩ := by
  rw [parse]
  exact parseLexemes_of_derives printable.derives

/-- A function with a branch, and a call that prints what it gives. -/
theorem parse_print_branch :
    let program : Program :=
      [.define "f" (.function ["x"]
        [.expression (.conditional (.binary .less (.name "x") (.integer 1))
          [.result (.unary .negate (.name "x"))] none)]),
        .expression (.call (.name Keyword.print.spelling)
          [.call (.name "f") [.integer 7], .string "x"])]
    program.Printable ∧ parse program.print = ⟨program, []⟩ := by
  intro program
  have isF : IsName "f" := (isName_iff "f").2 ⟨by decide, by decide⟩
  have isX : IsName "x" := (isName_iff "x").2 ⟨by decide, by decide⟩
  have printable : program.Printable := by
    simp [program, Program.Printable, Stmt.PrintableList, Stmt.Printable,
      Expr.Printable, Expr.PrintableList, Stmt.PrintableAlternative, isF, isX]
  exact ⟨printable, parse_print program printable⟩

end Bhasha
