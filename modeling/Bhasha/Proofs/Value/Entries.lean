import Bhasha.Proofs.Sorted
import Bhasha.Value.Equality
import Bhasha.Value.Inspect
import Mathlib.Data.Finset.Card
import Mathlib.Data.List.Pairwise

/-!
# The entries of a hash

A hash is made by insertions, one after another.  An insertion whose key is not an
integer, a truth value or a string fails, and the entries stay as they are.  All
others bind a key to a value, and of those with equal keys the last one counts.

The entries stand in the order of their keys, whatever the order of the
insertions was.  Two hashes in which all keys have the same values are therefore
equal as lists of entries, and have the same structure and the same text.
-/

namespace Bhasha

/-! ## Keys and the values that they are made from -/

namespace Key

theorem inspect_toValue (key : Key) : key.toValue.inspect = key.inspect := by
  cases key <;> rfl

theorem toKey_toValue (key : Key) : key.toValue.toKey = .ok key := by
  cases key <;> rfl

end Key

/-- The types of values that can be keys. -/
def ValueKind.ofKeys : List ValueKind :=
  [.integer, .boolean, .string]

namespace Value

/-- A value is that of a key, or its type is not one of keys. -/
theorem toKey_cases (value : Value) :
    (∃ key : Key, value = key.toValue ∧ value.kind ∈ ValueKind.ofKeys) ∨
      (value.toKey = .error (.unusableHashKey value.kind) ∧
        value.kind ∉ ValueKind.ofKeys) := by
  simp only [ValueKind.ofKeys]
  cases value with
  | integer value => exact .inl ⟨.integer value, rfl, by simp [kind]⟩
  | boolean value => exact .inl ⟨.boolean value, rfl, by simp [kind]⟩
  | string text => exact .inl ⟨.string text, rfl, by simp [kind]⟩
  | _ => exact .inr ⟨rfl, by simp [kind]⟩

/-- The key of a value, and nothing where it cannot be one. -/
def key? (value : Value) : Option Key :=
  value.toKey.toOption

theorem key?_of_toKey_eq_error
    {value : Value} {failure : Failure}
    (fails : value.toKey = .error failure) :
    value.key? = none := by
  rw [key?, fails]
  rfl

@[simp]
theorem key?_toValue (key : Key) : key.toValue.key? = some key := by
  rw [key?, Key.toKey_toValue]
  rfl

theorem key?_eq_some_iff {value : Value} {key : Key} :
    value.key? = some key ↔ value = key.toValue := by
  constructor
  · intro made
    rcases value.toKey_cases with ⟨other, rfl, -⟩ | ⟨fails, -⟩
    · rw [key?_toValue] at made
      cases made
      rfl
    · rw [key?_of_toKey_eq_error fails] at made
      cases made
  · rintro rfl
    exact key?_toValue key

end Value

/-! ## The order of keys -/

namespace Key

/-- Integers are below truth values and these below strings, each by value. -/
inductive Below : Key → Key → Prop where
  | integer {left right : Int64} (less : left < right) :
      Below (.integer left) (.integer right)
  | boolean : Below (.boolean false) (.boolean true)
  | string {left right : String} (less : left < right) :
      Below (.string left) (.string right)
  | integerBoolean {left : Int64} {right : Bool} :
      Below (.integer left) (.boolean right)
  | integerString {left : Int64} {right : String} :
      Below (.integer left) (.string right)
  | booleanString {left : Bool} {right : String} :
      Below (.boolean left) (.string right)

theorem below_of_compare
    {first second : Key}
    (less : compare first second = .lt) :
    first.Below second := by
  cases first with
  | integer left =>
      cases second with
      | integer right =>
          exact .integer (Int64.lt_iff_toInt_lt.2 (Int.compare_eq_lt.1 less))
      | boolean => exact .integerBoolean
      | string => exact .integerString
  | boolean left =>
      cases second with
      | integer => cases less
      | boolean right =>
          cases left <;> cases right <;> first | exact .boolean | cases less
      | string => exact .booleanString
  | string left =>
      cases second with
      | string right => exact .string (compareOfLessAndEq_eq_lt.1 less)
      | _ => cases less

end Key

/-! ## Insertions one after another -/

namespace Entries

variable {key : Key} {write : Value × Value} {writes others : List (Value × Value)}
variable {entries : Entries}

/-- Insert a value under a key; a failure leaves the entries as they are. -/
def attempt (entries : Entries) (write : Value × Value) : Entries :=
  match entries.insert write.1 write.2 with
  | .ok inserted => inserted
  | .error _ => entries

/-- The entries of an empty hash after insertions. -/
def ofWrites (writes : List (Value × Value)) : Entries :=
  writes.foldl attempt []

/-- The keys of the insertions that succeed, in their order. -/
def writtenKeys (writes : List (Value × Value)) : List Key :=
  writes.filterMap fun write => write.1.key?

/-- The last insertion under a key that succeeds. -/
def lastWrite? (key : Key) (writes : List (Value × Value)) :
    Option (Value × Value) :=
  writes.reverse.find? fun write => write.1.key? = some key

/-- What an insertion does. -/
theorem insert_cases (entries : Entries) (write : Value × Value) :
    (∃ key : Key, write.1 = key.toValue ∧ write.1.kind ∈ ValueKind.ofKeys ∧
        entries.insert write.1 write.2 =
          .ok (Sorted.insert key write.2 entries) ∧
        entries.attempt write = Sorted.insert key write.2 entries) ∨
      (write.1.key? = none ∧ write.1.kind ∉ ValueKind.ofKeys ∧
        entries.insert write.1 write.2 =
          .error (.unusableHashKey write.1.kind) ∧
        entries.attempt write = entries) := by
  rcases write.1.toKey_cases with ⟨key, made, usable⟩ | ⟨fails, unusable⟩
  · have inserts : entries.insert write.1 write.2 =
        .ok (Sorted.insert key write.2 entries) := by
      rw [insert, made, Key.toKey_toValue]
      rfl
    exact .inl ⟨key, made, usable, inserts, by rw [attempt, inserts]⟩
  · have refused : entries.insert write.1 write.2 =
        .error (.unusableHashKey write.1.kind) := by
      rw [insert, fails]
      rfl
    exact .inr ⟨Value.key?_of_toKey_eq_error fails, unusable, refused,
      by rw [attempt, refused]⟩

theorem ofWrites_concat (writes : List (Value × Value))
    (write : Value × Value) :
    ofWrites (writes ++ [write]) = (ofWrites writes).attempt write := by
  rw [ofWrites, List.foldl_concat, ofWrites]

/-! ## Values of keys -/

theorem get?_attempt (entries : Entries) (write : Value × Value) (key : Key) :
    (entries.attempt write).get? key =
      if write.1.key? = some key then some write.2 else entries.get? key := by
  rcases insert_cases entries write with
    ⟨own, made, -, -, becomes⟩ | ⟨fails, -, -, stays⟩
  · rw [becomes, made, Value.key?_toValue, get?, Sorted.lookup_insert]
    by_cases here : key = own
    · simp [here]
    · have elsewhere : (key == own) = false := beq_eq_false_iff_ne.2 here
      simp [List.lookup_cons, elsewhere, Ne.symm here, get?]
  · rw [stays, fails]
    simp

theorem lastWrite?_concat (key : Key) (writes : List (Value × Value))
    (write : Value × Value) :
    lastWrite? key (writes ++ [write]) =
      if write.1.key? = some key then some write else lastWrite? key writes := by
  rw [lastWrite?, List.reverse_concat, List.find?_cons]
  split <;> simp_all [lastWrite?]

/-- The last insertion under a key that succeeds gives its value. -/
theorem get?_ofWrites (key : Key) (writes : List (Value × Value)) :
    (ofWrites writes).get? key = (lastWrite? key writes).map Prod.snd := by
  induction writes using List.reverseRecOn with
  | nil => rfl
  | append_singleton writes write induction =>
      rw [ofWrites_concat, get?_attempt, lastWrite?_concat, induction]
      split <;> rfl

theorem lastWrite?_eq_some
    (last : lastWrite? key writes = some write) :
    write.1.key? = some key ∧ write ∈ writes := by
  refine ⟨by simpa using List.find?_some last, ?_⟩
  exact List.mem_reverse.1 (List.mem_of_find?_eq_some last)

/-! ## The order of the entries -/

theorem increasing_attempt
    (increasing : entries.Increasing) (write : Value × Value) :
    (entries.attempt write).Increasing := by
  rcases insert_cases entries write with
    ⟨key, -, -, -, becomes⟩ | ⟨-, -, -, stays⟩
  · rw [becomes]
    exact increasing.insert
  · rw [stays]
    exact increasing

theorem increasing_ofWrites (writes : List (Value × Value)) :
    (ofWrites writes).Increasing := by
  induction writes using List.reverseRecOn with
  | nil => exact .nil
  | append_singleton writes write induction =>
      rw [ofWrites_concat]
      exact increasing_attempt induction write

/-- A key has a value when some insertion under it succeeds. -/
theorem mem_keys_ofWrites :
    key ∈ (ofWrites writes).keys ↔ key ∈ writtenKeys writes := by
  rw [← not_iff_not, ← Sorted.lookup_eq_none_iff, ← get?, get?_ofWrites]
  simp [lastWrite?, writtenKeys]

theorem length_ofWrites (writes : List (Value × Value)) :
    (ofWrites writes).length = (writtenKeys writes).toFinset.card := by
  have keys : (ofWrites writes).keys.toFinset =
      (writtenKeys writes).toFinset := by
    ext key
    simp only [List.mem_toFinset, mem_keys_ofWrites]
  rw [← keys, List.toFinset_card_of_nodup (increasing_ofWrites writes).nodup,
    Sorted.keys, List.length_map]

/-- An entry is what was inserted last under its key. -/
theorem lastWrite?_of_mem
    {value : Value}
    (member : (key, value) ∈ ofWrites writes) :
    lastWrite? key writes = some (key.toValue, value) := by
  have found : (ofWrites writes).get? key = some value :=
    (Sorted.lookup_eq_some_iff (increasing_ofWrites writes).nodup).2 member
  rw [get?_ofWrites, Option.map_eq_some_iff] at found
  rcases found with ⟨⟨position, _⟩, last, rfl⟩
  cases Value.key?_eq_some_iff.1 (lastWrite?_eq_some last).1
  exact last

/-! ## The order of the insertions -/

/-- Where no key is inserted twice, the only insertion of a key is the last. -/
theorem lastWrite?_eq_some_iff
    (once : (writtenKeys writes).Nodup) :
    lastWrite? key writes = some write ↔
      write.1.key? = some key ∧ write ∈ writes := by
  constructor
  · exact lastWrite?_eq_some
  · rintro ⟨made, member⟩
    induction writes using List.reverseRecOn with
    | nil => cases member
    | append_singleton writes newest induction =>
        rw [writtenKeys, List.filterMap_append, List.nodup_append'] at once
        rcases once with ⟨before, -, disjoint⟩
        rw [lastWrite?_concat]
        rcases List.mem_append.1 member with earlier | now
        · have elsewhere : newest.1.key? ≠ some key := by
            intro again
            exact disjoint (List.mem_filterMap.2 ⟨write, earlier, made⟩)
              (by simp [again])
          rw [if_neg elsewhere, induction before earlier]
        · cases List.mem_singleton.1 now
          rw [if_pos made]

/-- Insertions under different keys can be made in any order. -/
theorem ofWrites_perm
    (once : (writtenKeys writes).Nodup)
    (perm : writes.Perm others) :
    ofWrites writes = ofWrites others := by
  have onceToo : (writtenKeys others).Nodup :=
    (perm.filterMap _).nodup_iff.1 once
  have last : ∀ key, lastWrite? key writes = lastWrite? key others := by
    intro key
    ext write
    rw [lastWrite?_eq_some_iff once, lastWrite?_eq_some_iff onceToo,
      perm.mem_iff]
  refine (increasing_ofWrites writes).ext (increasing_ofWrites others)
    fun key => ?_
  rw [← get?, ← get?, get?_ofWrites, get?_ofWrites, last]

end Entries

/-! ## Structure and text -/

mutual

/-- Every value has the structure of itself. -/
theorem Value.same_refl : ∀ value : Value, value.same value = true
  | .integer _ | .boolean _ | .string _ | .null | .function _ _ | .builtin _ |
    .error _ => by simp [Value.same, Value.isIdentical]
  | .array _ items => by rw [Value.same, Value.sameList_refl items]
  | .hash _ entries => by rw [Value.same, Value.sameEntries_refl entries]

theorem Value.sameList_refl :
    ∀ items : List Value, Value.sameList items items = true
  | [] => rfl
  | item :: items => by
    rw [Value.sameList, Value.same_refl item, Value.sameList_refl items]
    rfl

theorem Value.sameEntries_refl :
    ∀ entries : List (Key × Value), Value.sameEntries entries entries = true
  | [] => rfl
  | (key, value) :: entries => by
    rw [Value.sameEntries, Value.same_refl value, Value.sameEntries_refl entries,
      BEq.rfl]
    rfl

end

/-- The text of an entry. -/
def Entries.inspectEntry (entry : Key × Value) : String :=
  entry.1.toValue.inspect ++ ": " ++ entry.2.inspect

theorem Value.inspectEntries_eq :
    ∀ entries : List (Key × Value),
      Value.inspectEntries entries =
        ", ".intercalate (entries.map Entries.inspectEntry)
  | [] => rfl
  | [entry] => by
    simp [Value.inspectEntries, Entries.inspectEntry, Key.inspect_toValue]
  | entry :: next :: entries => by
    rw [Value.inspectEntries, Value.inspectEntries_eq (next :: entries)]
    · simp [Entries.inspectEntry, Key.inspect_toValue, String.intercalate_cons_cons]
    · nofun

/-! ## Last insertions -/

namespace Entries

/-- What the entries are after insertions, told by the insertions. -/
structure LastWriteWins (writes : List (Value × Value)) : Prop where
  /-- Integers, truth values and strings are inserted. -/
  inserted (write : Value × Value) :
    write.1.kind ∈ ValueKind.ofKeys →
      (ofWrites writes).insert write.1 write.2 =
        .ok (ofWrites (writes ++ [write]))
  /-- Any other insertion fails, and the entries stay as they are. -/
  refused (write : Value × Value) :
    write.1.kind ∉ ValueKind.ofKeys →
      (ofWrites writes).insert write.1 write.2 =
          .error (.unusableHashKey write.1.kind) ∧
        ofWrites (writes ++ [write]) = ofWrites writes
  /-- A key has the value that was last inserted under it. -/
  found (key : Key) :
    (ofWrites writes).get? key = (lastWrite? key writes).map Prod.snd
  /-- There is one entry for each key. -/
  counted : (ofWrites writes).length = (writtenKeys writes).toFinset.card
  /-- An entry is stored under the key of the value that it was inserted with. -/
  stored (key : Key) (value : Value) :
    (key, value) ∈ ofWrites writes →
      key.toValue.toKey = .ok key ∧
        lastWrite? key writes = some (key.toValue, value)
  /-- Keys are passed through in increasing order. -/
  ordered : (ofWrites writes).keys.Pairwise Key.Below
  /-- The text lists the entries in that order. -/
  listed (identity : Identity) :
    (Value.hash identity (ofWrites writes)).inspect =
      "\x7b" ++ ", ".intercalate ((ofWrites writes).map inspectEntry) ++ "\x7d"
  /-- Insertions under different keys can be made in any order. -/
  reordered (others : List (Value × Value)) (identity other : Identity) :
    (writtenKeys writes).Nodup → writes.Perm others →
      (Value.hash identity (ofWrites writes)).same
          (.hash other (ofWrites others)) = true ∧
        (Value.hash identity (ofWrites writes)).inspect =
          (Value.hash other (ofWrites others)).inspect

/-- A hash keeps, in the order of the keys, what was last inserted under each. -/
theorem last_write_wins (writes : List (Value × Value)) :
    LastWriteWins writes where
  inserted write usable := by
    rcases insert_cases (ofWrites writes) write with
      ⟨key, -, -, inserts, becomes⟩ | ⟨-, unusable, -⟩
    · rw [inserts, ofWrites_concat, becomes]
    · exact absurd usable unusable
  refused write unusable := by
    rcases insert_cases (ofWrites writes) write with
      ⟨key, -, usable, -⟩ | ⟨-, -, fails, stays⟩
    · exact absurd usable unusable
    · exact ⟨fails, by rw [ofWrites_concat, stays]⟩
  found key := get?_ofWrites key writes
  counted := length_ofWrites writes
  stored key _ member := ⟨key.toKey_toValue, lastWrite?_of_mem member⟩
  ordered := (increasing_ofWrites writes).imp Key.below_of_compare
  listed identity := by
    rw [Value.inspect, Value.inspectEntries_eq]
  reordered others identity other once perm := by
    rw [ofWrites_perm once perm, Value.same, Value.sameEntries_refl]
    simp [Value.inspect]

/-- A failure, a value that is replaced, and keys of all types. -/
example :
    (Value.hash 0 (ofWrites [
      (.string "ख", .integer 2), (.null, .integer 3), (.boolean true, .null),
      (.string "क", .integer 4), (.integer 1, .boolean true),
      (.string "क", .integer 1)])).inspect =
      "\x7b1: सत्य, सत्य: निल, क: 1, ख: 2\x7d" := by
  decide +kernel

end Entries

end Bhasha
