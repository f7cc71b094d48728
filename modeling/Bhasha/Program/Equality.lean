import Bhasha.Program.Basic

/-!
# Equality of programs

A decision procedure for the equality of two trees, by recursion on the first.
The theorems `Expr.same_iff` and `Stmt.same_iff` say that it decides equality.
-/

namespace Bhasha

/-! ## The comparison -/

mutual

/-- Whether two expressions are the same tree. -/
def Expr.same : Expr → Expr → Bool
  | .name left, .name right => left == right
  | .integer left, .integer right => left == right
  | .string left, .string right => left == right
  | .boolean left, .boolean right => left == right
  | .array left, .array right => Expr.sameList left right
  | .hash left, .hash right => Expr.samePairs left right
  | .unary operator operand, .unary operator' operand' =>
    operator == operator' && Expr.same operand operand'
  | .binary operator left right, .binary operator' left' right' =>
    operator == operator' && Expr.same left left' && Expr.same right right'
  | .conditional condition consequence alternative,
      .conditional condition' consequence' alternative' =>
    Expr.same condition condition' &&
      Stmt.sameList consequence consequence' &&
      Stmt.sameOption alternative alternative'
  | .function parameters body, .function parameters' body' =>
    parameters == parameters' && Stmt.sameList body body'
  | .call callee arguments, .call callee' arguments' =>
    Expr.same callee callee' && Expr.sameList arguments arguments'
  | .index collection position, .index collection' position' =>
    Expr.same collection collection' && Expr.same position position'
  | _, _ => false

/-- Whether two lists of expressions are the same. -/
def Expr.sameList : List Expr → List Expr → Bool
  | [], [] => true
  | left :: lefts, right :: rights =>
    Expr.same left right && Expr.sameList lefts rights
  | _, _ => false

/-- Whether two lists of pairs of expressions are the same. -/
def Expr.samePairs : List (Expr × Expr) → List (Expr × Expr) → Bool
  | [], [] => true
  | (key, value) :: lefts, (key', value') :: rights =>
    Expr.same key key' && Expr.same value value' &&
      Expr.samePairs lefts rights
  | _, _ => false

/-- Whether two statements are the same tree. -/
def Stmt.same : Stmt → Stmt → Bool
  | .define name value, .define name' value' =>
    name == name' && Expr.same value value'
  | .result left, .result right => Expr.same left right
  | .expression left, .expression right => Expr.same left right
  | .block left, .block right => Stmt.sameList left right
  | _, _ => false

/-- Whether two lists of statements are the same. -/
def Stmt.sameList : List Stmt → List Stmt → Bool
  | [], [] => true
  | left :: lefts, right :: rights =>
    Stmt.same left right && Stmt.sameList lefts rights
  | _, _ => false

/-- Whether two optional blocks are the same. -/
def Stmt.sameOption : Option (List Stmt) → Option (List Stmt) → Bool
  | none, none => true
  | some left, some right => Stmt.sameList left right
  | _, _ => false

end

/-- Whether two programs are the same list of trees. -/
def Program.same (left right : Program) : Bool :=
  Stmt.sameList left right

/-! ## It decides equality -/

mutual

/-- The comparison of expressions decides their equality. -/
theorem Expr.same_iff : ∀ left right : Expr,
    Expr.same left right = true ↔ left = right
  | .name _, right => by cases right <;> simp [Expr.same]
  | .integer _, right => by cases right <;> simp [Expr.same]
  | .string _, right => by cases right <;> simp [Expr.same]
  | .boolean _, right => by cases right <;> simp [Expr.same]
  | .array items, right => by
    cases right <;> simp [Expr.same, Expr.sameList_iff items]
  | .hash entries, right => by
    cases right <;> simp [Expr.same, Expr.samePairs_iff entries]
  | .unary _ operand, right => by
    cases right <;> simp [Expr.same, Expr.same_iff operand]
  | .binary _ first second, right => by
    cases right <;>
      simp [Expr.same, Expr.same_iff first, Expr.same_iff second, and_assoc]
  | .conditional condition consequence alternative, right => by
    cases right <;>
      simp [Expr.same, Expr.same_iff condition, Stmt.sameList_iff consequence,
        Stmt.sameOption_iff alternative, and_assoc]
  | .function _ body, right => by
    cases right <;> simp [Expr.same, Stmt.sameList_iff body]
  | .call callee arguments, right => by
    cases right <;>
      simp [Expr.same, Expr.same_iff callee, Expr.sameList_iff arguments]
  | .index collection position, right => by
    cases right <;>
      simp [Expr.same, Expr.same_iff collection, Expr.same_iff position]

/-- The comparison of lists of expressions decides their equality. -/
theorem Expr.sameList_iff : ∀ left right : List Expr,
    Expr.sameList left right = true ↔ left = right
  | [], right => by cases right <;> simp [Expr.sameList]
  | first :: rest, right => by
    cases right <;>
      simp [Expr.sameList, Expr.same_iff first, Expr.sameList_iff rest]

/-- The comparison of lists of pairs decides their equality. -/
theorem Expr.samePairs_iff : ∀ left right : List (Expr × Expr),
    Expr.samePairs left right = true ↔ left = right
  | [], right => by cases right <;> simp [Expr.samePairs]
  | (key, value) :: rest, right => by
    rcases right with _ | ⟨⟨otherKey, otherValue⟩, others⟩ <;>
      simp [Expr.samePairs, Expr.same_iff key, Expr.same_iff value,
        Expr.samePairs_iff rest]

/-- The comparison of statements decides their equality. -/
theorem Stmt.same_iff : ∀ left right : Stmt,
    Stmt.same left right = true ↔ left = right
  | .define _ value, right => by
    cases right <;> simp [Stmt.same, Expr.same_iff value]
  | .result value, right => by
    cases right <;> simp [Stmt.same, Expr.same_iff value]
  | .expression value, right => by
    cases right <;> simp [Stmt.same, Expr.same_iff value]
  | .block body, right => by
    cases right <;> simp [Stmt.same, Stmt.sameList_iff body]

/-- The comparison of lists of statements decides their equality. -/
theorem Stmt.sameList_iff : ∀ left right : List Stmt,
    Stmt.sameList left right = true ↔ left = right
  | [], right => by cases right <;> simp [Stmt.sameList]
  | first :: rest, right => by
    cases right <;>
      simp [Stmt.sameList, Stmt.same_iff first, Stmt.sameList_iff rest]

/-- The comparison of optional blocks decides their equality. -/
theorem Stmt.sameOption_iff : ∀ left right : Option (List Stmt),
    Stmt.sameOption left right = true ↔ left = right
  | none, right => by cases right <;> simp [Stmt.sameOption]
  | some body, right => by
    cases right <;> simp [Stmt.sameOption, Stmt.sameList_iff body]

end

/-- The comparison of programs decides their equality. -/
theorem Program.same_iff (left right : Program) :
    Program.same left right = true ↔ left = right :=
  Stmt.sameList_iff left right

instance : DecidableEq Expr := fun left right =>
  decidable_of_iff _ (Expr.same_iff left right)

instance : DecidableEq Stmt := fun left right =>
  decidable_of_iff _ (Stmt.same_iff left right)

end Bhasha
