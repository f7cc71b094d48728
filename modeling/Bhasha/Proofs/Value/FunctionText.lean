import Bhasha.Program.Equality
import Bhasha.Proofs.Evaluation.Lexical
import Bhasha.Proofs.Parser.Printable

/-!
# The text of a function

A function is shown as a literal with its statements on lines of their own.  The
text is laid out otherwise than the canonical one of the literal, but it has the
same lexemes, so it is read as the literal that the function was made from.

This needs a literal that can be written.  Every function of a run is made from
a literal in a program or in the body of a function that is called.  If the
programs come from the parser, all their literals can be written, and the
functions of the run only hand such literals on.
-/

namespace Bhasha

/-! ## The text of a literal -/

/-- The text of a function is read as its literal. -/
theorem Closure.parse_inspect
    {closure : Closure}
    (printable : closure.literal.expr.Printable) :
    parse closure.inspect = ⟨[.expression closure.literal.expr], []⟩ := by
  rcases printable with ⟨names, body⟩
  exact Renders.parse_eq (RendersExpression.function rfl rfl rfl
    (intercalate_renders names) (Stmt.printLines_renders body))

/-! ## Literals of a run -/

theorem Expr.Printable.of_mem
    {trees : List Expr} {tree : Expr}
    (printable : Expr.PrintableList trees)
    (member : tree ∈ trees) :
    tree.Printable := by
  induction trees with
  | nil => cases member
  | cons first rest induction =>
      rcases List.mem_cons.1 member with rfl | behind
      · exact printable.1
      · exact induction printable.2 behind

theorem Expr.Printable.of_mem_pairs
    {pairs : List (Expr × Expr)} {pair : Expr × Expr}
    (printable : Expr.PrintablePairs pairs)
    (member : pair ∈ pairs) :
    pair.1.Printable ∧ pair.2.Printable := by
  induction pairs with
  | nil => cases member
  | cons first rest induction =>
      rcases printable with ⟨key, value, others⟩
      rcases List.mem_cons.1 member with rfl | behind
      · exact ⟨key, value⟩
      · exact induction others behind

theorem Stmt.Printable.of_mem
    {statements : List Stmt} {statement : Stmt}
    (printable : Stmt.PrintableList statements)
    (member : statement ∈ statements) :
    statement.Printable := by
  induction statements with
  | nil => cases member
  | cons first rest induction =>
      rcases List.mem_cons.1 member with rfl | behind
      · exact printable.1
      · exact induction printable.2 behind

namespace Code

/-- Code that can be written. -/
def Printable : Code → Prop
  | .expr tree => tree.Printable
  | .exprs trees => Expr.PrintableList trees
  | .stmt statement => statement.Printable
  | .stmts statements => Stmt.PrintableList statements

theorem Printable.contains
    {code inner : Code}
    (printable : code.Printable)
    (contains : code.Contains inner) :
    inner.Printable := by
  cases contains with
  | items => exact printable
  | key member => exact (Expr.Printable.of_mem_pairs printable member).1
  | value member => exact (Expr.Printable.of_mem_pairs printable member).2
  | operand => exact printable
  | left => exact printable.1
  | right => exact printable.2
  | condition => exact printable.1
  | consequence => exact printable.2.1
  | alternative => exact printable.2.2
  | callee => exact printable.1
  | arguments => exact printable.2
  | collection => exact printable.1
  | position => exact printable.2
  | tree member => exact Expr.Printable.of_mem printable member
  | definition => exact printable.2
  | result => exact printable
  | expression => exact printable
  | block => exact printable.elim
  | statement member => exact Stmt.Printable.of_mem printable member

end Code

/-- A function was made from a literal that can be written. -/
def Value.Writable (value : Value) : Prop :=
  ∀ identity closure, value = .function identity closure →
    closure.literal.expr.Printable

/-- Every function that is bound in a scope can be written. -/
def Scopes.Writable (scopes : Scopes) : Prop :=
  ∀ scope each binding, scopes.get? scope = some each →
    binding ∈ each.bindings → binding.2.All Value.Writable

theorem Scopes.writable_initial : Scopes.initial.Writable := by
  intro scope each binding found member
  cases Nat.lt_one_iff.1 (lt_size_of_get? found)
  cases found
  cases member

/-- Code that can be written makes functions that can be written. -/
def writable : Invariant Unit where
  later _ _ := True
  live _ _ := True
  permits _ _ code := code.Printable
  allows _ value := value.Writable
  holds _ _ := True
  refl _ := trivial
  trans _ _ := trivial
  live_later _ live := live
  permits_later _ permits := permits
  allows_later _ allows := allows
  live_earlier _ _ _ live := live
  permits_contains := Code.Printable.contains
  plain plain := by
    rintro identity closure rfl
    exact plain.elim
  captured _ := trivial
  holds_of_eq _ _ _ holds := holds
  fresh _ _ literal := by
    refine ⟨(), trivial, trivial, ?_⟩
    rintro identity ⟨parameters, body, scope⟩ same
    exact (literal _ _ _ _ same).2
  define _ holds _ _ := holds
  enter _ _ allows :=
    ⟨(), trivial, trivial, trivial, (allows _ _ rfl).2⟩

theorem writable_sound
    {start : Machine}
    (scopes : start.scopes.Writable) :
    writable.Sound () start where
  holds := trivial
  bound _ found member := scopes _ _ _ found member
  outer _ _ _ := trivial

theorem writable_of_has
    {event : Event} {identity : Identity} {closure : Closure}
    (holds : writable.At () event)
    (has : event.Has (.function identity closure)) :
    closure.literal.expr.Printable := by
  cases has with
  | handed member within => exact holds.values _ member _ within _ _ rfl
  | bound found member within =>
      exact holds.sound.bound trivial found member _ within _ _ rfl

/--
In a series of programs that were read from sources, the text of every function
that exists at some point is read without a diagnostic, as one statement that
consists of a function literal with the parameters and the body of the function.
At the start there may be functions for which this holds; an empty global scope
has none.
-/
theorem Evaluation.functions_read_back
    (config : Config) (start after : Machine) (sources : List String)
    (history : List Event)
    (scopes : start.scopes.Writable)
    (series : Program.Series config
      (sources.map fun source => (parse source).program) start history after)
    (event : Event) (identity : Identity) (closure : Closure)
    (member : event ∈ history)
    (has : event.Has (.function identity closure)) :
    parse (Value.function identity closure).inspect =
      ⟨[.expression (.function closure.parameters closure.body)], []⟩ := by
  have permits : ∀ program ∈ sources.map fun source => (parse source).program,
      writable.permits () Scopes.global (.stmts program) := by
    intro program member
    rcases List.mem_map.1 member with ⟨source, -, rfl⟩
    exact printable_of_source source
  rcases Invariant.along_of_series (writable_sound scopes) trivial permits
    series with ⟨_, along, -⟩
  rcases along.at_mem member with ⟨_, holds⟩
  exact Closure.parse_inspect (writable_of_has holds has)

/-- A function that a call gives, with a line break in a string of its body. -/
theorem Evaluation.functions_read_back_nested :
    let source := "फन(x) \x7b फन(y, z) \x7b लेट w = \"क\nख\"; [w, -y] \x7d \x7d(7)"
    let body : Block :=
      [.define "w" (.string "क\nख"),
        .expression (.array [.name "w", .unary .negate (.name "y")])]
    let closure : Closure := ⟨["y", "z"], body, 1⟩
    ((parse source).program.eval {} .initial).1 = some (.function 1 closure) ∧
      parse closure.inspect = ⟨[.expression (.function ["y", "z"] body)], []⟩ := by
  intro source body closure
  let program : Program :=
    [.expression (.call (.function ["x"]
      [.expression (.function ["y", "z"] body)]) [.integer 7])]
  have isProgram : (parse source).program = program :=
    (Program.same_iff _ _).1 (by decide +kernel)
  have gives :
      (program.eval {} .initial).1 = some (.function 1 closure) :=
    rfl
  refine ⟨isProgram ▸ gives, ?_⟩
  rcases program.request.exists_runs {} .initial with ⟨inner, runs⟩
  have series : Program.Series {} [program] .initial _
      (program.eval {} .initial).2 :=
    .cons (Request.runs_iff.2 ⟨inner, runs, rfl⟩) .nil
  have sources :
      [source].map (fun source => (parse source).program) = [program] :=
    congrArg (fun program => [program]) isProgram
  exact functions_read_back {} .initial _ [source] _ Scopes.writable_initial
    (sources ▸ series) _ 1 closure
    (List.mem_append_left [] (List.mem_append_right _ List.mem_cons_self))
    (.handed List.mem_cons_self (Value.self_mem_inside _))

end Bhasha
