import Bhasha.Proofs.Grammar.Derivation

/-!
# The value of a numeral

Reading a numeral gives the integer that its digits denote in decimal, and it
gives nothing exactly when the digits denote no integer of 64 bits.  The value
is built up digit by digit and only grows on the way, so a step gets too large
exactly when the whole value is too large.  The decimal text of a number denotes
the integer that is this number, if there is one.
-/

namespace Bhasha.Numeral

/-! ## One more digit -/

theorem toInt_ofNat {value : Nat} (small : value < bound) :
    (Int64.ofNat value).toInt = value :=
  Int64.toInt_ofNat_of_lt small

theorem ofInt?_eq_some_iff {number : Int} {value : Int64} :
    ofInt? number = some value ↔ value.toInt = number := by
  have smallest := value.le_toInt
  have largest := value.toInt_lt
  rw [ofInt?]
  constructor
  · intro found
    split at found
    · next fits =>
      cases found
      exact Int64.toInt_ofInt_of_le fits.1 fits.2
    · cases found
  · rintro rfl
    rw [if_pos ⟨smallest, largest⟩, Int64.ofInt_toInt]

/-- A digit is put behind a value exactly if the longer value is an integer. -/
theorem append?_eq_some_iff
    {number digit : Nat} {value longer : Int64}
    (isNumber : value.toInt = number) :
    append? value digit = some longer ↔
      longer.toInt = (10 * number + digit : Nat) := by
  simp only [append?, Option.bind_eq_bind, Option.bind_eq_some_iff,
    ofInt?_eq_some_iff, isNumber]
  constructor
  · rintro ⟨shifted, isShifted, isLonger⟩
    omega
  · intro isLonger
    -- The first of the two steps fits because the second one does.
    have largest := longer.toInt_lt
    have fits : (Int64.ofInt (number * 10)).toInt = number * 10 :=
      Int64.toInt_ofInt_of_le (by omega) (by omega)
    exact ⟨_, fits, by omega⟩

/-! ## All digits -/

/-- The digits behind a number make it no smaller. -/
theorem le_foldl (number : Nat) (digits : List Nat) :
    number ≤ digits.foldl (fun value digit => 10 * value + digit) number := by
  induction digits generalizing number with
  | nil => exact Nat.le_refl number
  | cons digit digits induction =>
      have grows := induction (10 * number + digit)
      rw [List.foldl_cons]
      omega

/-- The digits are read as the positional notation to the base ten. -/
theorem foldl_eq_ofDigits (digits : List Nat) :
    digits.foldl (fun value digit => 10 * value + digit) 0 =
      Nat.ofDigits 10 digits.reverse := by
  rw [Nat.ofDigits_eq_foldr, List.foldr_reverse]
  congr 1
  funext value digit
  simp only [Nat.cast_id]
  omega

/-- Digits are put behind a value exactly if the whole value is an integer. -/
theorem foldlM_append?_eq_some_iff
    {characters : List Char} {number : Nat} {value whole : Int64}
    (isNumber : value.toInt = number) :
    characters.foldlM
        (fun value character => do append? value (← digitValue? character))
        value = some whole ↔
      ∃ digits, characters.mapM digitValue? = some digits ∧
        whole.toInt =
          (digits.foldl (fun value digit => 10 * value + digit) number :
            Nat) := by
  induction characters generalizing number value with
  | nil =>
      simp [← isNumber, Int64.toInt_inj, eq_comm]
  | cons first rest induction =>
      simp only [List.foldlM_cons, List.mapM_cons, Option.bind_eq_bind,
        Option.bind_eq_some_iff, Option.pure_def, Option.some.injEq]
      constructor
      · rintro ⟨longer, ⟨digit, isDigit, appended⟩, more⟩
        have isLonger := (append?_eq_some_iff isNumber).1 appended
        rcases (induction isLonger).1 more with ⟨digits, areDigits, isWhole⟩
        exact ⟨_, ⟨digit, isDigit, digits, areDigits, rfl⟩, isWhole⟩
      · rintro ⟨_, ⟨digit, isDigit, digits, areDigits, rfl⟩, isWhole⟩
        rw [List.foldl_cons] at isWhole
        have grows := le_foldl (10 * number + digit) digits
        have largest := whole.toInt_lt
        have isLonger :
            (Int64.ofInt (10 * number + digit : Nat)).toInt =
              (10 * number + digit : Nat) :=
          Int64.toInt_ofInt_of_le (by omega) (by omega)
        have appended := (append?_eq_some_iff isNumber).2 isLonger
        exact ⟨_, ⟨digit, isDigit, appended⟩,
          (induction isLonger).2 ⟨digits, areDigits, isWhole⟩⟩

/-- A numeral is read as a value exactly when it denotes this value. -/
theorem read?_eq_some_iff (literal : String) (value : Int64) :
    read? literal = some value ↔ Denotes literal value := by
  simp only [read?, Denotes, foldlM_append?_eq_some_iff Int64.toInt_zero,
    foldl_eq_ofDigits]

/-! ## Digits of one script -/

/-- The number that a digit of a script stands for. -/
def digitIn (script : Script) (character : Char) : Nat :=
  character.toNat - script.zero.toNat

theorem ofDigit?_of_hasDigit
    {script : Script} {character : Char}
    (digit : script.hasDigit character = true) :
    Script.ofDigit? character = some script := by
  cases script with
  | latin => exact if_pos digit
  | devanagari =>
      have range := digit
      simp only [Script.hasDigit, Bool.and_eq_true, decide_eq_true_eq]
        at range
      have above : ¬ Script.latin.hasDigit character = true := by
        simp only [Script.hasDigit, Bool.and_eq_true, decide_eq_true_eq]
        intro other
        exact absurd (range.1.trans other.2) (by decide)
      rw [Script.ofDigit?, if_neg above, if_pos digit]

theorem mapM_digitValue?
    {script : Script} {characters : List Char}
    (digits : ∀ character ∈ characters, script.hasDigit character = true) :
    characters.mapM digitValue? = some (characters.map (digitIn script)) := by
  induction characters with
  | nil => rfl
  | cons first rest induction =>
      rcases List.forall_mem_cons.1 digits with ⟨digit, more⟩
      have value : digitValue? first = some (digitIn script first) := by
        rw [digitValue?, ofDigit?_of_hasDigit digit]
        rfl
      simp [List.mapM_cons, value, induction more]

/-! ## Numerals that are written -/

/-- A value that is not negative is written in decimal digits. -/
theorem write_eq_repr
    {value : Int64}
    (positive : 0 ≤ value) :
    write value = value.toInt.toNat.repr := by
  rw [Int64.le_iff_toInt_le, Int64.toInt_zero] at positive
  rw [write, Int.toString_eq_repr, Int.repr_eq_if, if_pos positive]

/-- A negative value is written with a sign in front of its magnitude. -/
theorem write_of_negative
    {value : Int64}
    (negative : ¬ 0 ≤ value) :
    write value = "-" ++ (-value.toInt).toNat.repr := by
  rw [Int64.le_iff_toInt_le, Int64.toInt_zero] at negative
  rw [write, Int.toString_eq_repr, Int.repr_eq_if, if_neg negative]

theorem hasDigit_of_mem_toDigits
    {value : Nat} {character : Char}
    (member : character ∈ Nat.toDigits 10 value) :
    Script.latin.hasDigit character = true := by
  have digit := Nat.isDigit_of_mem_toDigits (by decide) (by decide) member
  simp only [Char.isDigit, Bool.and_eq_true, decide_eq_true_eq] at digit
  simp only [Script.hasDigit, Bool.and_eq_true, decide_eq_true_eq]
  exact digit

/-- The decimal text of a number denotes the value that is this number. -/
theorem denotes_repr_iff {number : Nat} {value : Int64} :
    Denotes number.repr value ↔ value.toInt = number := by
  have digits : (Nat.toDigits 10 number).mapM digitValue? = some _ :=
    mapM_digitValue? fun _ member => hasDigit_of_mem_toDigits member
  have whole : (Nat.toDigits 10 number).foldl
      (fun value character => 10 * value + digitIn .latin character) 0 =
        number :=
    Nat.ofDigitChars_ten_toDigits (n := number)
  simp only [Denotes, Nat.toList_repr, digits, Option.some.injEq,
    exists_eq_left', ← foldl_eq_ofDigits, List.foldl_map, whole]

end Bhasha.Numeral
