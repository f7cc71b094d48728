import Bhasha.Proofs.Evaluation.Course
import Bhasha.Proofs.Program.RoundTrip
import Bhasha.Proofs.Value.Entries

/-!
# The text of data

Integers, truth values, and the arrays and hashes of such values are shown as
literals.  The text is read back, and the literal gives the value again: the
items in their order, and the entries of a hash in the order of their keys, in
which they are inserted again.

There is one exception.  A negative integer is read as a sign and a numeral, and
no numeral denotes the magnitude of the least integer.  A text in which this
integer occurs is not read without a diagnostic.
-/

namespace Bhasha

/-! ## Data -/

namespace Value

/--
Integers, truth values, and arrays and hashes of such values.  The keys of a hash
increase; those that are data are integers and truth values.
-/
inductive IsData : Value → Prop where
  | integer {value : Int64} : IsData (.integer value)
  | boolean {value : Bool} : IsData (.boolean value)
  | array {identity : Identity} {items : List Value}
      (each : ∀ item ∈ items, IsData item) :
      IsData (.array identity items)
  | hash {identity : Identity} {entries : Entries}
      (increasing : entries.Increasing)
      (keys : ∀ entry ∈ entries, IsData entry.1.toValue)
      (values : ∀ entry ∈ entries, IsData entry.2) :
      IsData (.hash identity entries)

/-- An integer occurs in a value: as itself, an item, a key or a value. -/
inductive Mentions (number : Int64) : Value → Prop where
  | itself : Mentions number (.integer number)
  | item {identity : Identity} {item : Value} {items : List Value}
      (member : item ∈ items)
      (within : Mentions number item) :
      Mentions number (.array identity items)
  | key {identity : Identity} {entry : Key × Value} {entries : Entries}
      (member : entry ∈ entries)
      (within : Mentions number entry.1.toValue) :
      Mentions number (.hash identity entries)
  | value {identity : Identity} {entry : Key × Value} {entries : Entries}
      (member : entry ∈ entries)
      (within : Mentions number entry.2) :
      Mentions number (.hash identity entries)

section

variable {number : Int64} {identity : Identity}

@[simp]
theorem mentions_integer {value : Int64} :
    (integer value).Mentions number ↔ value = number := by
  constructor
  · rintro ⟨⟩
    rfl
  · rintro rfl
    exact .itself

@[simp]
theorem not_mentions_boolean {value : Bool} :
    ¬ (boolean value).Mentions number :=
  nofun

@[simp]
theorem mentions_array {items : List Value} :
    (array identity items).Mentions number ↔
      ∃ item ∈ items, item.Mentions number := by
  constructor
  · rintro (_ | ⟨member, within⟩)
    exact ⟨_, member, within⟩
  · rintro ⟨item, member, within⟩
    exact .item member within

@[simp]
theorem mentions_hash {entries : Entries} :
    (hash identity entries).Mentions number ↔
      ∃ entry ∈ entries,
        entry.1.toValue.Mentions number ∨ entry.2.Mentions number := by
  constructor
  · rintro (_ | _ | ⟨member, within⟩ | ⟨member, within⟩)
    · exact ⟨_, member, .inl within⟩
    · exact ⟨_, member, .inr within⟩
  · rintro ⟨entry, member, within | within⟩
    · exact .key member within
    · exact .value member within

end

end Value

namespace Key

/-- No other value has the structure of the value of a key. -/
theorem same_iff {key : Key} {value : Value} :
    key.toValue.same value = true ↔ value = key.toValue := by
  cases key <;> cases value <;>
    simp only [toValue, Value.same, Value.isIdentical, beq_iff_eq,
      Value.integer.injEq, Value.boolean.injEq, Value.string.injEq,
      reduceCtorEq, Bool.false_eq_true] <;>
    exact eq_comm

end Key

/-! ## Literals that give a value -/

/--
In every scope and machine, and however functions are applied, an expression gives
a value of the same structure.
-/
def Expr.Rebuilds (tree : Expr) (value : Value) : Prop :=
  ∀ application scope machine, ∃ result after,
    Evaluation.expr application scope tree machine = .ok result after ∧
      value.same result = true

/-- A key and a value are given again. -/
def Expr.RebuildsEntry (pair : Expr × Expr) (entry : Key × Value) : Prop :=
  pair.1.Rebuilds entry.1.toValue ∧ pair.2.Rebuilds entry.2

namespace Evaluation

open Step

variable (application : Application) (scope : ScopeId) (machine : Machine)

theorem exprs_rebuilds
    {trees : List Expr} {items : List Value}
    (rebuilds : List.Forall₂ Expr.Rebuilds trees items) :
    ∃ results after,
      exprs application scope trees machine = .ok results after ∧
        Value.sameList items results = true := by
  induction rebuilds generalizing machine with
  | nil => exact ⟨[], machine, rfl, rfl⟩
  | cons first _ induction =>
      rcases first application scope machine with
        ⟨result, middle, gives, same⟩
      rcases induction middle with ⟨results, after, givesMore, sameMore⟩
      refine ⟨result :: results, after, ?_, ?_⟩
      · rw [exprs, bind_ok gives, bind_ok givesMore]
        rfl
      · rw [Value.sameList, same, sameMore]
        rfl

/-- Keys that increase are inserted behind each other. -/
theorem entries_rebuilds
    {pairs : List (Expr × Expr)} {contents : Entries} (done : Entries)
    (rebuilds : List.Forall₂ Expr.RebuildsEntry pairs contents)
    (increasing : contents.Increasing)
    (above : ∀ present ∈ done.keys, ∀ key ∈ contents.keys,
      compare present key = .lt) :
    ∃ results after,
      entries application scope done pairs machine =
          .ok (done ++ results) after ∧
        Value.sameEntries contents results = true := by
  induction rebuilds generalizing machine done with
  | nil => exact ⟨[], machine, by rw [List.append_nil]; rfl, rfl⟩
  | @cons pair entry pairs contents first _ induction =>
      rcases pair with ⟨keyTree, valueTree⟩
      rcases entry with ⟨key, value⟩
      rcases List.pairwise_cons.1 increasing with ⟨below, behind⟩
      rcases first.1 application scope machine with
        ⟨keyResult, middle, givesKey, sameKey⟩
      cases Key.same_iff.1 sameKey
      rcases first.2 application scope middle with
        ⟨result, last, gives, same⟩
      have inserts :
          Entries.insert done key.toValue result =
            .ok (done ++ [(key, result)]) := by
        rw [Entries.insert, Key.toKey_toValue,
          ← Sorted.insert_of_above fun present member =>
            above present member key List.mem_cons_self]
        rfl
      have aboveMore : ∀ present ∈ Sorted.keys (done ++ [(key, result)]),
          ∀ other ∈ Sorted.keys contents, compare present other = .lt := by
        intro present member other later
        rw [Sorted.keys, List.map_append, List.mem_append] at member
        rcases member with before | here
        · exact above present before other (List.mem_cons_of_mem _ later)
        · cases List.mem_singleton.1 here
          exact below other later
      rcases induction last _ behind aboveMore with
        ⟨results, after, givesMore, sameMore⟩
      refine ⟨(key, result) :: results, after, ?_, ?_⟩
      · rw [entries, bind_ok givesKey, bind_ok gives, inserts]
        rw [List.append_assoc] at givesMore
        exact givesMore
      · rw [Value.sameEntries, same, sameMore, BEq.rfl]
        rfl

end Evaluation

namespace Expr.Rebuilds

open Step

/-- An expression that gives the value of a key and changes nothing. -/
theorem of_key
    {tree : Expr} (key : Key)
    (gives : ∀ application scope machine,
      Evaluation.expr application scope tree machine =
        .ok key.toValue machine) :
    tree.Rebuilds key.toValue :=
  fun application scope machine =>
    ⟨key.toValue, machine, gives application scope machine, Key.same_iff.2 rfl⟩

theorem integer (value : Int64) :
    (Expr.integer value).Rebuilds (.integer value) :=
  of_key (.integer value) fun _ _ _ => rfl

theorem negated (value : Int64) :
    (Expr.unary .negate (.integer (-value))).Rebuilds (.integer value) := by
  refine of_key (.integer value) fun application scope machine => ?_
  have gives : Evaluation.expr application scope (.integer (-value)) machine =
      .ok (.integer (-value)) machine :=
    rfl
  rw [Evaluation.expr, bind_ok gives, UnaryOp.apply, Int64.neg_neg]
  rfl

theorem boolean (value : Bool) :
    (Expr.boolean value).Rebuilds (.boolean value) :=
  of_key (.boolean value) fun _ _ _ => rfl

theorem array
    {trees : List Expr} {identity : Identity} {items : List Value}
    (rebuilds : List.Forall₂ Expr.Rebuilds trees items) :
    (Expr.array trees).Rebuilds (.array identity items) := by
  intro application scope machine
  rcases Evaluation.exprs_rebuilds application scope machine rebuilds with
    ⟨results, after, gives, same⟩
  refine ⟨.array after.supply results,
    { after with supply := after.supply + 1 }, ?_, ?_⟩
  · rw [Evaluation.expr, bind_ok gives]
    rfl
  · rw [Value.same, same]

theorem hash
    {pairs : List (Expr × Expr)} {identity : Identity} {entries : Entries}
    (rebuilds : List.Forall₂ Expr.RebuildsEntry pairs entries)
    (increasing : entries.Increasing) :
    (Expr.hash pairs).Rebuilds (.hash identity entries) := by
  intro application scope machine
  rcases Evaluation.entries_rebuilds application scope machine [] rebuilds
    increasing nofun with ⟨results, after, gives, same⟩
  refine ⟨.hash after.supply results,
    { after with supply := after.supply + 1 }, ?_, ?_⟩
  · rw [Evaluation.expr, bind_ok gives]
    rfl
  · rw [Value.same, same]

end Expr.Rebuilds

/-! ## Texts that are literals -/

/-- A text is read as an expression that gives a value again. -/
def Restores (text : String) (value : Value) : Prop :=
  ∃ tree, Renders text (Phrase.Expression .equality · tree) ∧
    tree.Rebuilds value

theorem Renders.restores
    {stratum : Stratum} {text : String} {tree : Expr} {value : Value}
    (renders : Renders text (Phrase.Expression stratum · tree))
    (rebuilds : tree.Rebuilds value) :
    Restores text value := by
  rcases renders with ⟨phrase, spells, derives⟩
  exact ⟨tree, ⟨phrase, spells, derives.loosest⟩, rebuilds⟩

/-- Every integer but the least is the value of its text. -/
theorem Numeral.write_restores
    {value : Int64}
    (above : value ≠ Int64.minValue) :
    Restores (write value) (.integer value) := by
  by_cases positive : 0 ≤ value
  · exact (RendersExpression.integer positive).restores (.integer value)
  · rw [write_of_negative positive]
    rw [Int64.le_iff_toInt_le, Int64.toInt_zero] at positive
    have isAbove : -2 ^ 63 < value.toInt := by
      refine lt_of_le_of_ne value.le_toInt fun least => above ?_
      rw [← Int64.toInt_inj, Int64.toInt_minValue, least]
    have magnitude : (-value).toInt = (-value.toInt).toNat := by
      rw [Int64.toInt_neg, Int.bmod_eq_of_le (by omega) (by omega)]
      omega
    exact ((RendersExpression.natural magnitude).signed .negate).restores
      (.negated value)

theorem inspectBoolean_restores :
    ∀ value : Bool, Restores (inspectBoolean value) (.boolean value)
  | true =>
    have renders : RendersExpression "सत्य" (.boolean true) :=
      ⟨_, spells_keyword .truth, .truth⟩
    Renders.restores renders (.boolean true)
  | false =>
    -- a value is shown with another word than the keyword itself
    have renders : RendersExpression "असत्य" (.boolean false) :=
      ⟨_, spells_word (by decide), .falsehood⟩
    Renders.restores renders (.boolean false)

theorem Value.inspectList_restores :
    ∀ {items : List Value}, (∀ item ∈ items, Restores item.inspect item) →
      ∃ trees, Renders (Value.inspectList items) (Phrase.Items · trees) ∧
        List.Forall₂ Expr.Rebuilds trees items
  | [], _ => ⟨[], ⟨[], Delimits.empty.spells, .none⟩, .nil⟩
  | [item], restores => by
    rcases restores item List.mem_cons_self with ⟨tree, renders, rebuilds⟩
    exact ⟨[tree], renders.items, .cons rebuilds .nil⟩
  | item :: next :: items, restores => by
    rcases List.forall_mem_cons.1 restores with
      ⟨⟨tree, renders, rebuilds⟩, others⟩
    rcases Value.inspectList_restores others with
      ⟨trees, rendersMore, rebuildsMore⟩
    cases rebuildsMore with
    | cons second more =>
        exact ⟨_, renders.cons rendersMore, .cons rebuilds (.cons second more)⟩

theorem Value.inspectEntries_restores :
    ∀ {entries : List (Key × Value)},
      (∀ entry ∈ entries, Restores entry.1.inspect entry.1.toValue) →
      (∀ entry ∈ entries, Restores entry.2.inspect entry.2) →
      ∃ pairs, Renders (Value.inspectEntries entries) (Phrase.Entries · pairs) ∧
        List.Forall₂ Expr.RebuildsEntry pairs entries
  | [], _, _ => ⟨[], ⟨[], Delimits.empty.spells, .none⟩, .nil⟩
  | [entry], keys, values => by
    rcases keys entry List.mem_cons_self with ⟨key, rendersKey, rebuildsKey⟩
    rcases values entry List.mem_cons_self with ⟨value, renders, rebuilds⟩
    exact ⟨[(key, value)], rendersKey.entry renders,
      .cons ⟨rebuildsKey, rebuilds⟩ .nil⟩
  | entry :: next :: entries, keys, values => by
    rcases List.forall_mem_cons.1 keys with
      ⟨⟨key, rendersKey, rebuildsKey⟩, otherKeys⟩
    rcases List.forall_mem_cons.1 values with
      ⟨⟨value, renders, rebuilds⟩, otherValues⟩
    rcases Value.inspectEntries_restores otherKeys otherValues with
      ⟨pairs, rendersMore, rebuildsMore⟩
    exact ⟨(key, value) :: pairs, rendersKey.entries renders rendersMore,
      .cons ⟨rebuildsKey, rebuilds⟩ rebuildsMore⟩

/-- Data in which the least integer does not occur is given by its text. -/
theorem Value.IsData.restores
    {value : Value}
    (data : value.IsData)
    (absent : ¬ value.Mentions Int64.minValue) :
    Restores value.inspect value := by
  induction data with
  | @integer value =>
      refine Numeral.write_restores ?_
      rintro rfl
      exact absent .itself
  | @boolean value => exact inspectBoolean_restores value
  | array _ induction =>
      rcases Value.inspectList_restores fun item member =>
        induction item member fun within => absent (.item member within) with
        ⟨trees, renders, rebuilds⟩
      exact (RendersExpression.array renders).restores (.array rebuilds)
  | hash increasing _ _ inductionKeys inductionValues =>
      simp only [Key.inspect_toValue] at inductionKeys
      rcases Value.inspectEntries_restores
        (fun entry member => inductionKeys entry member fun within =>
          absent (.key member within))
        (fun entry member => inductionValues entry member fun within =>
          absent (.value member within)) with ⟨pairs, renders, rebuilds⟩
      exact (RendersExpression.hash renders).restores
        (.hash rebuilds increasing)

/-! ## Integers in a text -/

/-- The numeral of an integer, without its sign. -/
def Lexeme.ofMagnitude (number : Int64) : Lexeme :=
  ⟨.integer, number.toInt.natAbs.repr⟩

/-- Every integer that occurs in a value has its numeral in the phrase. -/
def Value.CountedIn (value : Value) (phrase : List Lexeme) : Prop :=
  ∀ number, value.Mentions number → Lexeme.ofMagnitude number ∈ phrase

theorem Numeral.write_counted (value : Int64) :
    Renders (write value) (Value.integer value).CountedIn := by
  by_cases positive : 0 ≤ value
  · rw [write_eq_repr positive]
    rw [Int64.le_iff_toInt_le, Int64.toInt_zero] at positive
    refine ⟨_, spells_numeral _, ?_⟩
    rintro number ⟨⟩
    have magnitude : value.toInt.natAbs = value.toInt.toNat := by
      omega
    rw [Lexeme.ofMagnitude, magnitude]
    exact List.mem_cons_self
  · rw [write_of_negative positive]
    rw [Int64.le_iff_toInt_le, Int64.toInt_zero] at positive
    refine ⟨_, (spells_numeral _).unary .negate ⟨_, _, rfl, .integer⟩, ?_⟩
    rintro number ⟨⟩
    have magnitude : value.toInt.natAbs = (-value.toInt).toNat := by
      omega
    rw [Lexeme.ofMagnitude, magnitude]
    exact List.mem_cons_of_mem _ List.mem_cons_self

namespace Value.CountedIn

variable {value : Value} {phrase : List Lexeme}

theorem append_left
    (rest : List Lexeme)
    (counted : value.CountedIn phrase) :
    value.CountedIn (phrase ++ rest) :=
  fun number mentions => List.mem_append_left rest (counted number mentions)

theorem append_right
    (front : List Lexeme)
    (counted : value.CountedIn phrase) :
    value.CountedIn (front ++ phrase) :=
  fun number mentions => List.mem_append_right front (counted number mentions)

end Value.CountedIn

theorem inspectBoolean_counted :
    ∀ value : Bool,
      Renders (inspectBoolean value) (Value.boolean value).CountedIn
  | true => ⟨_, spells_keyword .truth, nofun⟩
  | false => ⟨_, spells_word (by decide), nofun⟩

theorem Value.inspectList_counted :
    ∀ {items : List Value},
      (∀ item ∈ items, Renders item.inspect item.CountedIn) →
      Renders (Value.inspectList items) fun phrase =>
        ∀ item ∈ items, item.CountedIn phrase
  | [], _ => ⟨[], Delimits.empty.spells, nofun⟩
  | [item], counted => by
    rcases counted item List.mem_cons_self with ⟨phrase, spells, here⟩
    exact ⟨phrase, spells, List.forall_mem_singleton.2 here⟩
  | item :: next :: items, counted => by
    rcases List.forall_mem_cons.1 counted with ⟨⟨phrase, spells, here⟩, others⟩
    rcases Value.inspectList_counted others with ⟨rest, spellsRest, behind⟩
    refine ⟨_, spells.separate ", " rfl rfl spellsRest,
      List.forall_mem_cons.2 ⟨here.append_left _, fun other member => ?_⟩⟩
    exact ((behind other member).append_right _).append_right _

theorem Value.inspectEntries_counted :
    ∀ {entries : List (Key × Value)},
      (∀ entry ∈ entries,
        Renders entry.1.inspect entry.1.toValue.CountedIn) →
      (∀ entry ∈ entries, Renders entry.2.inspect entry.2.CountedIn) →
      Renders (Value.inspectEntries entries) fun phrase =>
        ∀ entry ∈ entries,
          entry.1.toValue.CountedIn phrase ∧ entry.2.CountedIn phrase
  | [], _, _ => ⟨[], Delimits.empty.spells, nofun⟩
  | [entry], keys, values => by
    rcases keys entry List.mem_cons_self with ⟨key, spellsKey, countedKey⟩
    rcases values entry List.mem_cons_self with ⟨value, spells, counted⟩
    exact ⟨_, spellsKey.separate ": " rfl rfl spells,
      List.forall_mem_singleton.2
        ⟨countedKey.append_left _, (counted.append_right _).append_right _⟩⟩
  | entry :: next :: entries, keys, values => by
    rcases List.forall_mem_cons.1 keys with
      ⟨⟨key, spellsKey, countedKey⟩, otherKeys⟩
    rcases List.forall_mem_cons.1 values with
      ⟨⟨value, spells, counted⟩, otherValues⟩
    rcases Value.inspectEntries_counted otherKeys otherValues with
      ⟨rest, spellsRest, behind⟩
    have front := spellsKey.separate ": " rfl rfl spells
    refine ⟨_, front.separate ", " rfl rfl spellsRest,
      List.forall_mem_cons.2 ⟨⟨?_, ?_⟩, fun other member => ?_⟩⟩
    · exact (countedKey.append_left _).append_left _
    · exact ((counted.append_right _).append_right _).append_left _
    · exact (behind other member).imp
        (fun counted => (counted.append_right _).append_right _)
        (fun counted => (counted.append_right _).append_right _)

/-- The text of data has the numeral of every integer that occurs in it. -/
theorem Value.IsData.counted
    {value : Value}
    (data : value.IsData) :
    Renders value.inspect value.CountedIn := by
  induction data with
  | @integer value => exact Numeral.write_counted value
  | @boolean value => exact inspectBoolean_counted value
  | array _ induction =>
      rcases Value.inspectList_counted induction with ⟨phrase, spells, counted⟩
      refine ⟨_, (spells.enclose rfl rfl rfl).spells, fun number mentions => ?_⟩
      rcases mentions_array.1 mentions with ⟨item, member, within⟩
      exact ((counted item member).append_left _).append_right _ number within
  | hash _ _ _ inductionKeys inductionValues =>
      simp only [Key.inspect_toValue] at inductionKeys
      rcases Value.inspectEntries_counted inductionKeys inductionValues with
        ⟨phrase, spells, counted⟩
      refine ⟨_, (spells.enclose rfl rfl rfl).spells, fun number mentions => ?_⟩
      rcases mentions_hash.1 mentions with ⟨entry, member, within⟩
      rcases counted entry member with ⟨countedKey, countedValue⟩
      rcases within with within | within
      · exact (countedKey.append_left _).append_right _ number within
      · exact (countedValue.append_left _).append_right _ number within

/-- No numeral denotes the magnitude of the least integer. -/
theorem Numeral.not_denotes_least (value : Int64) :
    ¬ Denotes (Lexeme.ofMagnitude Int64.minValue).literal value := by
  intro denotes
  have magnitude := denotes_repr_iff.1 denotes
  rw [Int64.toInt_minValue] at magnitude
  have small := value.toInt_lt
  omega

/-- Data whose text is read without a diagnostic has no least integer. -/
theorem Value.IsData.not_mentions_least
    {value : Value}
    (data : value.IsData)
    (accepted : (parse value.inspect).diagnostics = []) :
    ¬ value.Mentions Int64.minValue := by
  intro mentions
  rcases data.counted with ⟨phrase, spells, counted⟩
  have derives := derives_of_accepted accepted
  rw [spells.lexemes_eq] at derives
  rcases derives.nested.denotes (counted _ mentions) rfl with ⟨least, denotes⟩
  exact Numeral.not_denotes_least least denotes

/-! ## Reading data back -/

/--
The text of data is read without a diagnostic exactly when the least integer of
64 bits does not occur in it.  Then it is evaluated, in every machine and under
every limit on calls, to a value of the same structure.
-/
theorem Value.eval_inspect
    (value : Value)
    (data : value.IsData) :
    ((parse value.inspect).diagnostics = [] ↔
      ¬ value.Mentions Int64.minValue) ∧
    (¬ value.Mentions Int64.minValue →
      ∀ (config : Config) (machine : Machine), ∃ result,
        ((parse value.inspect).program.eval config machine).1 =
            some result ∧
          value.same result = true) := by
  refine ⟨⟨data.not_mentions_least, fun absent => ?_⟩,
    fun absent config machine => ?_⟩
  · rcases data.restores absent with ⟨tree, renders, -⟩
    rw [renders.parse_eq]
  · rcases data.restores absent with ⟨tree, renders, rebuilds⟩
    rcases rebuilds
      (applyWithin config.maxDepth (config.maxDepth - machine.depth))
      Scopes.global machine with ⟨result, after, evaluates, same⟩
    rw [renders.parse_eq, Program.eval_expression evaluates]
    exact ⟨result, rfl, same⟩

/--
Negative integers and falsehood inside of a hash, next to an empty one; and the
least integer as a key.
-/
theorem Value.eval_inspect_nested :
    let value : Value :=
      .hash 4
        [(.integer (-5), .array 7 [.boolean false, .integer (-81)]),
          (.boolean true, .hash 2 [])]
    let least : Value := .hash 0 [(.integer Int64.minValue, .boolean true)]
    value.inspect = "\x7b-5: [असत्य, -81], सत्य: \x7b\x7d\x7d" ∧
      (parse value.inspect).diagnostics = [] ∧
      (∃ result,
        ((parse value.inspect).program.eval ⟨0⟩ .initial).1 = some result ∧
          value.same result = true) ∧
      (parse least.inspect).diagnostics ≠ [] := by
  intro value least
  have items : (Value.array 7 [.boolean false, .integer (-81)]).IsData :=
    .array (List.forall_mem_cons.2
      ⟨.boolean, List.forall_mem_singleton.2 .integer⟩)
  have empty : (Value.hash 2 []).IsData :=
    .hash .nil nofun nofun
  have data : value.IsData :=
    .hash (by rw [Sorted.Increasing]; decide)
      (List.forall_mem_cons.2 ⟨.integer, List.forall_mem_singleton.2 .boolean⟩)
      (List.forall_mem_cons.2 ⟨items, List.forall_mem_singleton.2 empty⟩)
  have absent : ¬ value.Mentions Int64.minValue := by
    simp [value, Key.toValue]
  have leastData : least.IsData :=
    .hash (List.pairwise_singleton _ _) (List.forall_mem_singleton.2 .integer)
      (List.forall_mem_singleton.2 .boolean)
  rcases eval_inspect value data with ⟨accepted, gives⟩
  refine ⟨by decide +kernel, accepted.2 absent, gives absent ⟨0⟩ .initial,
    fun accepted => ?_⟩
  exact (eval_inspect least leastData).1.1 accepted
    (.key List.mem_cons_self .itself)

end Bhasha
