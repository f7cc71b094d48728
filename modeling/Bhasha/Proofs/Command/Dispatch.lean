import Bhasha.Command.Registry
import Bhasha.Proofs.Sorted
import Mathlib.Data.List.Basic

/-!
# The command that a line asks for

Each registration puts its word behind the words that are at least as long, so the
words of a registry stand from the longest to the shortest, words of one length in
the order in which they were registered.

Several words may fit a line, one inside the other.  They are all at the start of
the line, so no two of them have the same length, and the first one that fits is
the longest.  For that reason the order of the registrations does not matter, as
long as no word is registered twice; of equal words the first one counts.
-/

namespace Bhasha

open Text

namespace Registry

/-! ## Lines that ask for a word -/

/-- A line is a word or goes on with a space after it. -/
def asks (word line : String) : Bool :=
  line = word || (word ++ " ").toList.isPrefixOf line.toList

theorem asks_iff {word line : String} :
    asks word line = true ↔
      line.toList = word.toList ∨
        ∃ rest, line.toList = word.toList ++ ' ' :: rest := by
  rw [asks, Bool.or_eq_true, decide_eq_true_iff, ← String.toList_inj,
    List.isPrefixOf_iff_prefix, String.toList_append]
  refine or_congr_right ⟨?_, ?_⟩
  · rintro ⟨rest, parts⟩
    exact ⟨rest, by rw [← parts, List.append_assoc]; rfl⟩
  · rintro ⟨rest, parts⟩
    exact ⟨rest, by rw [parts, List.append_assoc]; rfl⟩

theorem isSome_argument?_iff {word line : String} :
    (argument? word line).isSome = true ↔ asks word line = true := by
  rw [asks_iff, argument?]
  split
  · next found =>
    rw [List.isPrefixOf?_eq_some_iff_append_eq, List.append_nil] at found
    exact iff_of_true rfl (.inl found.symm)
  · next rest found =>
    rw [List.isPrefixOf?_eq_some_iff_append_eq] at found
    exact iff_of_true rfl (.inr ⟨rest, found.symm⟩)
  · next whole spaced =>
    refine iff_of_false Bool.false_ne_true ?_
    rintro (parts | ⟨rest, parts⟩)
    · refine whole ?_
      rw [List.isPrefixOf?_eq_some_iff_append_eq, List.append_nil, parts]
    · refine spaced rest ?_
      rw [List.isPrefixOf?_eq_some_iff_append_eq, parts]

/-- What is left of a line behind a word, without the space around it. -/
def remainder (word line : String) : String :=
  trim (String.ofList (line.toList.drop word.toList.length))

theorem trim_space (rest : List Char) :
    trim (String.ofList (' ' :: rest)) = trim (String.ofList rest) := by
  have space : isWhiteSpace ' ' = true := by decide
  simp [trim, dropLeadingSpace, space]

/-- The argument of a word is what the line has behind it. -/
theorem argument?_of_asks
    {word line : String}
    (asked : asks word line = true) :
    argument? word line = some (remainder word line) := by
  rw [argument?, remainder]
  rcases asks_iff.1 asked with parts | ⟨rest, parts⟩
  · have found : word.toList.isPrefixOf? line.toList = some [] := by
      rw [List.isPrefixOf?_eq_some_iff_append_eq, List.append_nil, parts]
    rw [found, parts, List.drop_length]
    rfl
  · have found : word.toList.isPrefixOf? line.toList = some (' ' :: rest) := by
      rw [List.isPrefixOf?_eq_some_iff_append_eq, parts]
    rw [found, parts, List.drop_left, trim_space]
    rfl

theorem argument?_of_not_asks
    {word line : String}
    (unasked : asks word line = false) :
    argument? word line = none := by
  rw [← Option.not_isSome_iff_eq_none, isSome_argument?_iff, unasked]
  nofun

theorem prefix_of_asks
    {word line : String}
    (asked : asks word line = true) :
    word.toList <+: line.toList := by
  rcases asks_iff.1 asked with parts | ⟨rest, parts⟩
  · exact ⟨[], by rw [List.append_nil, parts]⟩
  · exact ⟨' ' :: rest, parts.symm⟩

theorem eq_of_prefix_of_size
    {first second : String}
    (starts : first.toList <+: second.toList)
    (size : first.utf8ByteSize = second.utf8ByteSize) :
    first = second := by
  rcases starts with ⟨rest, parts⟩
  have whole : second = first ++ String.ofList rest := by
    rw [← String.toList_inj, String.toList_append, String.toList_ofList, parts]
  have nothing : (String.ofList rest).utf8ByteSize = 0 := by
    rw [whole, String.utf8ByteSize_append] at size
    omega
  rw [whole, String.utf8ByteSize_eq_zero_iff.1 nothing, String.append_empty]

/-- Two words of the same size that a line asks for are the same word. -/
theorem eq_of_asks
    {first second line : String}
    (asksFirst : asks first line = true)
    (asksSecond : asks second line = true)
    (size : first.utf8ByteSize = second.utf8ByteSize) :
    first = second := by
  rcases List.prefix_or_prefix_of_prefix (prefix_of_asks asksFirst)
    (prefix_of_asks asksSecond) with starts | starts
  · exact eq_of_prefix_of_size starts size
  · exact (eq_of_prefix_of_size starts size.symm).symm

/-! ## The order of the words -/

variable {α : Type} {word : String} {command : α}
variable {entries commands : List (String × α)}

/-- No word stands in front of a longer one. -/
def Descending (entries : List (String × α)) : Prop :=
  entries.Pairwise fun first second =>
    second.1.utf8ByteSize ≤ first.1.utf8ByteSize

/-- The entries whose words have a size in bytes. -/
def ofSize (size : Nat) (entries : List (String × α)) : List (String × α) :=
  entries.filter fun entry => entry.1.utf8ByteSize = size

theorem mem_insertWord {entry : String × α} :
    entry ∈ insertWord word command entries ↔
      entry = (word, command) ∨ entry ∈ entries := by
  induction entries with
  | nil => simp [insertWord]
  | cons first rest induction =>
      rw [insertWord]
      split
      · simp
      · simp only [List.mem_cons, induction]
        exact or_left_comm

theorem Descending.insertWord
    (descending : Descending entries) :
    Descending (insertWord word command entries) := by
  induction entries with
  | nil => exact List.pairwise_singleton _ _
  | cons first rest induction =>
      rcases List.pairwise_cons.1 descending with ⟨above, behind⟩
      rw [Registry.insertWord]
      split
      · next shorter =>
        refine List.pairwise_cons.2 ⟨?_, descending⟩
        refine List.forall_mem_cons.2 ⟨Nat.le_of_lt shorter, ?_⟩
        intro later member
        exact Nat.le_trans (above later member) (Nat.le_of_lt shorter)
      · next longer =>
        refine List.pairwise_cons.2 ⟨?_, induction behind⟩
        intro later member
        rcases mem_insertWord.1 member with rfl | member
        · exact Nat.le_of_not_lt longer
        · exact above later member

/-- Among the words of one size, a new word comes last. -/
theorem ofSize_insertWord
    (descending : Descending entries) (size : Nat) :
    ofSize size (insertWord word command entries) =
      ofSize size entries ++ ofSize size [(word, command)] := by
  induction entries with
  | nil => rfl
  | cons first rest induction =>
      rcases List.pairwise_cons.1 descending with ⟨above, behind⟩
      rw [insertWord]
      split
      · next shorter =>
        by_cases here : word.utf8ByteSize = size
        · -- All words behind the new one are shorter than it.
          have none : ofSize size (first :: rest) = [] := by
            rw [ofSize, List.filter_eq_nil_iff]
            refine List.forall_mem_cons.2 ⟨by simp; omega, ?_⟩
            intro later member
            have smaller := above later member
            simp
            omega
          have whole : ofSize size ((word, command) :: first :: rest) =
              ofSize size [(word, command)] ++ ofSize size (first :: rest) :=
            List.filter_append [(word, command)] (first :: rest)
          rw [whole, none, List.append_nil, List.nil_append]
        · simp [ofSize, here]
      · have more := induction behind
        simp only [ofSize, List.filter_cons] at more ⊢
        split <;> simp [more]

/-- Registrations leave the words in order. -/
theorem descending_foldl
    (commands : List (String × α)) {registry : Registry α}
    (descending : Descending registry.commands) :
    Descending (commands.foldl
      (fun registry (word, command) => registry.add word command)
      registry).commands := by
  induction commands generalizing registry with
  | nil => exact descending
  | cons first rest induction => exact induction descending.insertWord

/-- Among the words of one size, registrations keep their order. -/
theorem ofSize_foldl
    (commands : List (String × α)) {registry : Registry α}
    (descending : Descending registry.commands) (size : Nat) :
    ofSize size (commands.foldl
      (fun registry (word, command) => registry.add word command)
      registry).commands =
      ofSize size registry.commands ++ ofSize size commands := by
  induction commands generalizing registry with
  | nil => exact (List.append_nil _).symm
  | cons first rest induction =>
      rcases first with ⟨word, command⟩
      have whole : ofSize size ((word, command) :: rest) =
          ofSize size [(word, command)] ++ ofSize size rest :=
        List.filter_append [(word, command)] rest
      have more := @induction (registry.add word command)
        descending.insertWord
      rw [List.foldl_cons, more, whole, ← List.append_assoc, add,
        ofSize_insertWord descending]

theorem descending_ofList (commands : List (String × α)) :
    Descending (ofList commands).commands :=
  descending_foldl commands List.Pairwise.nil

theorem ofSize_ofList (size : Nat) (commands : List (String × α)) :
    ofSize size (ofList commands).commands = ofSize size commands :=
  ofSize_foldl commands List.Pairwise.nil size

theorem mem_ofList {entry : String × α} :
    entry ∈ (ofList commands).commands ↔ entry ∈ commands := by
  have member : ∀ entries : List (String × α),
      entry ∈ entries ↔ entry ∈ ofSize entry.1.utf8ByteSize entries := by
    simp [ofSize]
  rw [member, ofSize_ofList, ← member]

/-- Of equal words, the one that was registered first stands first. -/
theorem lookup_ofList (word : String) (commands : List (String × α)) :
    (ofList commands).commands.lookup word = commands.lookup word := by
  have within : ∀ entries : List (String × α),
      entries.lookup word = (ofSize word.utf8ByteSize entries).lookup word := by
    intro entries
    induction entries with
    | nil => rfl
    | cons first rest induction =>
        rcases first with ⟨other, command⟩
        rw [ofSize, List.filter_cons]
        split
        · rw [List.lookup_cons, List.lookup_cons, induction, ofSize]
        · next differs =>
          have other_ne : (word == other) = false := by
            rw [beq_eq_false_iff_ne]
            rintro rfl
            simp at differs
          rw [List.lookup_cons, other_ne, induction, ofSize]
  rw [within, ofSize_ofList, ← within]

/-! ## The word that is selected -/

/--
A word is the longest one among the registered ones that a line asks for; a command
is what was registered for it first.
-/
structure Selects (commands : List (String × α)) (line word : String)
    (command : α) : Prop where
  asked : asks word line = true
  earliest : commands.lookup word = some command
  longest : ∀ entry ∈ commands, asks entry.1 line = true →
    entry.1.utf8ByteSize ≤ word.utf8ByteSize

variable {line : String}

/-- No word in front of the selected one is asked for. -/
theorem find?_of_selects
    (selects : Selects commands line word command) :
    (ofList commands).find? line = some (command, remainder word line) := by
  have present := selects.earliest
  rw [← lookup_ofList, List.lookup_eq_some_iff] at present
  rcases present with ⟨front, back, parts, others⟩
  refine List.findSome?_eq_some_iff.2
    ⟨front, (word, command), back, parts, ?_, ?_⟩
  · simp [argument?_of_asks selects.asked]
  · intro entry member
    have unasked : asks entry.1 line = false := by
      rw [Bool.eq_false_iff]
      intro asked
      have descending := descending_ofList commands
      rw [parts] at descending
      have longer := (List.pairwise_append.1 descending).2.2 entry member
        (word, command) List.mem_cons_self
      have registered : entry ∈ commands := by
        rw [← mem_ofList, parts]
        exact List.mem_append_left _ member
      have shorter := selects.longest entry registered asked
      have same := eq_of_asks selects.asked asked
        (Nat.le_antisymm longer shorter)
      have differs := others entry member
      rw [same, bne_self_eq_false] at differs
      cases differs
    simp [argument?_of_not_asks unasked]

theorem find?_of_unasked
    (unasked : ∀ entry ∈ commands, asks entry.1 line = false) :
    (ofList commands).find? line = none := by
  refine List.findSome?_eq_none_iff.2 ?_
  intro entry member
  simp [argument?_of_not_asks (unasked entry (mem_ofList.1 member))]

/-- A word is selected, unless the line asks for none. -/
theorem exists_selects (commands : List (String × α)) (line : String) :
    (∃ word command, Selects commands line word command) ∨
      ∀ entry ∈ commands, asks entry.1 line = false := by
  cases search : (ofList commands).commands.find?
      (fun entry => asks entry.1 line) with
  | none =>
      right
      intro entry member
      have refused := List.find?_eq_none.1 search entry (mem_ofList.2 member)
      simpa using refused
  | some found =>
      left
      rcases found with ⟨word, command⟩
      rcases List.find?_eq_some_iff_append.1 search with
        ⟨asked, front, back, parts, unasked⟩
      refine ⟨word, command, asked, ?_, ?_⟩
      · rw [← lookup_ofList, List.lookup_eq_some_iff]
        refine ⟨front, back, parts, ?_⟩
        intro entry member
        rw [bne_iff_ne]
        rintro rfl
        have refused := unasked entry member
        rw [asked] at refused
        cases refused
      · intro entry member asksEntry
        have descending := descending_ofList commands
        rw [← mem_ofList, parts] at member
        rw [parts] at descending
        rcases List.mem_append.1 member with before | behind
        · have refused := unasked entry before
          rw [asksEntry] at refused
          cases refused
        · rcases List.mem_cons.1 behind with rfl | later
          · exact Nat.le_refl _
          · exact (List.pairwise_cons.1
              (List.pairwise_append.1 descending).2.1).1 entry later

/-- The order of registrations does not matter for what is selected. -/
theorem Selects.perm
    {others : List (String × α)}
    (permuted : commands.Perm others)
    (once : (commands.map Prod.fst).Nodup)
    (selects : Selects commands line word command) :
    Selects others line word command where
  asked := selects.asked
  earliest := by
    have onceOthers : (others.map Prod.fst).Nodup :=
      (permuted.map Prod.fst).nodup_iff.1 once
    have registered := (Sorted.lookup_eq_some_iff once).1 selects.earliest
    exact (Sorted.lookup_eq_some_iff onceOthers).2
      (permuted.mem_iff.1 registered)
  longest entry member :=
    selects.longest entry (permuted.mem_iff.2 member)

/-! ## Dispatch -/

variable [Handler α]

theorem dispatch_of_selects
    (selects : Selects commands line word command) (view : CommandView) :
    (ofList commands).dispatch line view =
      Handler.run command (remainder word line) view := by
  rw [dispatch, find?_of_selects selects]

theorem dispatch_of_unasked
    (unasked : ∀ entry ∈ commands, asks entry.1 line = false)
    (view : CommandView) :
    (ofList commands).dispatch line view = ("", .notACommand) := by
  rw [dispatch, find?_of_unasked unasked]

/--
After any registrations the words stand from the longest to the shortest, those of
one size in the order of their registration.  A line runs the command that was
registered first for the longest word that the line is or goes on after with a
space, with the trimmed rest of the line as its argument; a line that asks for no
word is no command.  If no word is registered twice, other orders of the same
registrations lead to the same replies.
-/
theorem dispatch_longest (commands : List (String × α)) :
    ((ofList commands).words.Pairwise fun first second =>
      second.utf8ByteSize ≤ first.utf8ByteSize) ∧
    (∀ size,
      ((ofList commands).words.filter fun word => word.utf8ByteSize = size) =
        (commands.map Prod.fst).filter fun word =>
          word.utf8ByteSize = size) ∧
    (∀ line word command, Selects commands line word command →
      ∀ view, (ofList commands).dispatch line view =
        Handler.run command (remainder word line) view) ∧
    (∀ line,
      (∃ word command, Selects commands line word command) ∨
      (∀ entry ∈ commands, asks entry.1 line = false) ∧
        ∀ view, (ofList commands).dispatch line view =
          ("", .notACommand)) ∧
    ∀ others, commands.Perm others → (commands.map Prod.fst).Nodup →
      ∀ line view, (ofList others).dispatch line view =
        (ofList commands).dispatch line view := by
  refine ⟨?_, ?_, ?_, ?_, ?_⟩
  · exact List.pairwise_map.2 (descending_ofList commands)
  · intro size
    have sameSize := congrArg (List.map Prod.fst) (ofSize_ofList size commands)
    simpa [words, ofSize, List.filter_map, Function.comp_def] using sameSize
  · intro line word command selects view
    exact dispatch_of_selects selects view
  · intro line
    rcases exists_selects commands line with selected | unasked
    · exact .inl selected
    · exact .inr ⟨unasked, dispatch_of_unasked unasked⟩
  · intro others permuted once line view
    rcases exists_selects commands line with ⟨word, command, selects⟩ | unasked
    · rw [dispatch_of_selects selects,
        dispatch_of_selects (selects.perm permuted once)]
    · have unaskedOthers : ∀ entry ∈ others, asks entry.1 line = false :=
        fun entry member => unasked entry (permuted.mem_iff.2 member)
      rw [dispatch_of_unasked unasked, dispatch_of_unasked unaskedOthers]

/-- Words may hold spaces: the longer word takes more of the line. -/
example :
    (ofList [("a", Command.help), ("a b", .quit), ("a", .tokens)]).find?
      "a b  c " = some (.quit, "c") := by
  decide

end Registry

end Bhasha
