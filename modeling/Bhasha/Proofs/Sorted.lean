import Bhasha.Value.Basic
import Mathlib.Data.List.Nodup

/-!
# Finite maps

Inserting gives a key its value and leaves the values of all other keys as they
are.  Of equal keys that are inserted one after another the last one counts.
Keys that increase strictly go on to do so, and a key above all others is put
at the end.  Entries in order are equal when all keys have the same values.
-/

namespace Bhasha

namespace Sorted

variable {κ α : Type} [Ord κ] {key : κ} {value : α} {entries : Sorted κ α}

/-! ## Entries and keys -/

theorem mem_insert
    {entry : κ × α}
    (member : entry ∈ Sorted.insert key value entries) :
    entry = (key, value) ∨ entry ∈ entries := by
  induction entries with
  | nil => exact .inl (List.mem_singleton.1 member)
  | cons first rest induction =>
      rcases first with ⟨other, present⟩
      rw [Sorted.insert] at member
      split at member
      · exact List.mem_cons.1 member
      · rcases List.mem_cons.1 member with same | behind
        · exact .inl same
        · exact .inr (List.mem_cons_of_mem _ behind)
      · rcases List.mem_cons.1 member with same | behind
        · exact .inr (same ▸ List.mem_cons_self)
        · exact (induction behind).imp id (List.mem_cons_of_mem _)

/-- An insertion adds its key and takes none away. -/
theorem mem_keys_insert
    [Std.LawfulEqOrd κ] {name : κ} :
    name ∈ keys (Sorted.insert key value entries) ↔
      name = key ∨ name ∈ keys entries := by
  induction entries with
  | nil => exact List.mem_cons
  | cons entry rest induction =>
      rcases entry with ⟨other, present⟩
      rw [Sorted.insert]
      split
      · exact List.mem_cons
      · next same =>
        cases Std.LawfulEqOrd.eq_of_compare same
        simp only [keys, List.map_cons, List.mem_cons]
        exact (or_self_left ..).symm
      · simp only [keys, List.map_cons, List.mem_cons] at induction ⊢
        rw [induction]
        exact or_left_comm

/-! ## Values of keys -/

section

variable [BEq κ] [LawfulBEq κ]

omit [Ord κ] in
theorem lookup_eq_none_iff :
    List.lookup key entries = none ↔ key ∉ keys entries := by
  rw [List.lookup_eq_none_iff]
  constructor
  · intro differs member
    rcases List.mem_map.1 member with ⟨entry, inside, rfl⟩
    exact bne_iff_ne.1 (differs entry inside) rfl
  · intro absent entry inside
    refine bne_iff_ne.2 ?_
    rintro rfl
    exact absent (List.mem_map_of_mem inside)

omit [Ord κ] in
/-- Where no key comes twice, every entry is found. -/
theorem lookup_eq_some_iff
    (once : (keys entries).Nodup) :
    List.lookup key entries = some value ↔ (key, value) ∈ entries := by
  induction entries with
  | nil => simp
  | cons entry rest induction =>
      rcases entry with ⟨other, present⟩
      simp only [keys, List.map_cons, List.nodup_cons] at once induction
      rw [List.lookup_cons, List.mem_cons, Prod.mk.injEq]
      by_cases here : key = other
      · subst here
        have absent : (key, value) ∉ rest := fun later =>
          once.1 (List.mem_map_of_mem later)
        simp [absent, eq_comm]
      · rw [beq_eq_false_iff_ne.2 here]
        simp [here, induction once.2]

variable [Std.LawfulEqOrd κ]

theorem lookup_insert (key other : κ) (value : α) (entries : Sorted κ α) :
    List.lookup other (Sorted.insert key value entries) =
      (List.lookup other [(key, value)]).or (List.lookup other entries) := by
  induction entries with
  | nil => rw [Sorted.insert, List.lookup_nil, Option.or_none]
  | cons first rest induction =>
      rcases first with ⟨present, old⟩
      rw [Sorted.insert]
      split
      · simp only [List.lookup_cons, List.lookup_nil]
        cases other == key <;> rfl
      · next same =>
        cases Std.LawfulEqOrd.eq_of_compare same
        rw [List.lookup_cons, List.lookup_cons, List.lookup_cons]
        cases other == key <;> rfl
      · next behind =>
        have differs : key ≠ present := by
          rintro rfl
          rw [Std.ReflOrd.compare_self] at behind
          cases behind
        rw [List.lookup_cons, List.lookup_cons, List.lookup_cons, induction]
        by_cases here : other = present
        · have elsewhere : (present == key) = false :=
            beq_eq_false_iff_ne.2 (Ne.symm differs)
          rw [here, BEq.rfl, elsewhere]
          rfl
        · rw [beq_eq_false_iff_ne.2 here]
          rfl

/-- Of equal keys that are inserted one after another the last counts. -/
theorem lookup_foldl_insert (key : κ) (pairs : List (κ × α))
    (done : Sorted κ α) :
    List.lookup key
        (pairs.foldl (fun done pair => Sorted.insert pair.1 pair.2 done)
          done) =
      (List.lookup key pairs.reverse).or (List.lookup key done) := by
  induction pairs generalizing done with
  | nil => rfl
  | cons pair pairs induction =>
      rw [List.foldl_cons, induction, lookup_insert, List.reverse_cons,
        List.lookup_append, Option.or_assoc]

end

/-! ## The order of keys -/

/-- Each key is below all later ones. -/
def Increasing (entries : Sorted κ α) : Prop :=
  entries.keys.Pairwise fun first second => compare first second = .lt

theorem Increasing.insert
    [Std.LawfulEqOrd κ] [Std.TransOrd κ]
    (increasing : Increasing entries) :
    Increasing (Sorted.insert key value entries) := by
  induction entries with
  | nil => exact List.pairwise_singleton _ _
  | cons first rest induction =>
      rcases first with ⟨present, old⟩
      rcases List.pairwise_cons.1 increasing with ⟨below, behind⟩
      rw [Sorted.insert]
      split
      · next before =>
        refine List.pairwise_cons.2 ⟨fun later member => ?_, increasing⟩
        rcases List.mem_cons.1 member with rfl | member
        · exact before
        · exact Std.TransCmp.lt_trans before (below later member)
      · next same =>
        cases Std.LawfulEqOrd.eq_of_compare same
        exact increasing
      · next after =>
        refine List.pairwise_cons.2 ⟨fun later member => ?_, induction behind⟩
        rcases mem_keys_insert.1 member with rfl | member
        · exact Std.OrientedCmp.gt_iff_lt.1 after
        · exact below later member

theorem Increasing.nodup
    [Std.ReflOrd κ]
    (increasing : Increasing entries) :
    (keys entries).Nodup := by
  refine increasing.imp fun {first second} below same => ?_
  rw [same, Std.ReflOrd.compare_self] at below
  cases below

/-- Entries in order are told by the values of all keys. -/
theorem Increasing.ext
    [BEq κ] [LawfulBEq κ] [Std.LawfulEqOrd κ] [Std.TransOrd κ]
    {others : Sorted κ α}
    (increasing : Increasing entries)
    (increasingToo : Increasing others)
    (same : ∀ key, List.lookup key entries = List.lookup key others) :
    entries = others := by
  have members : ∀ entry, entry ∈ entries ↔ entry ∈ others := by
    rintro ⟨key, value⟩
    rw [← lookup_eq_some_iff increasing.nodup, same,
      lookup_eq_some_iff increasingToo.nodup]
  have perm : entries.Perm others :=
    (List.perm_ext_iff_of_nodup increasing.nodup.of_map
      increasingToo.nodup.of_map).2 members
  refine perm.eq_of_pairwise ?_ (List.pairwise_map.1 increasing)
    (List.pairwise_map.1 increasingToo)
  intro first second _ _ below above
  have itself := Std.TransCmp.lt_trans below above
  rw [Std.ReflOrd.compare_self] at itself
  cases itself

theorem insert_of_above
    [Std.OrientedOrd κ]
    (above : ∀ present ∈ keys entries, compare present key = .lt) :
    Sorted.insert key value entries = entries ++ [(key, value)] := by
  induction entries with
  | nil => rfl
  | cons first rest induction =>
      rcases first with ⟨present, old⟩
      rcases List.forall_mem_cons.1 above with ⟨here, behind⟩
      rw [Sorted.insert, Std.OrientedCmp.gt_iff_lt.2 here, induction behind]
      rfl

/-- It does not matter which of two different keys is inserted first. -/
theorem insert_comm
    [Std.LawfulEqOrd κ] [Std.TransOrd κ] {other : κ}
    (differ : key ≠ other) (value same : α) (entries : Sorted κ α) :
    Sorted.insert key value (Sorted.insert other same entries) =
      Sorted.insert other same (Sorted.insert key value entries) := by
  -- The two keys have an order; by symmetry let the first be below.
  wlog below : compare key other = .lt generalizing key other value same
  · have above : compare key other = .gt := by
      cases order : compare key other with
      | lt => exact absurd order below
      | eq => exact absurd (Std.LawfulEqOrd.eq_of_compare order) differ
      | gt => rfl
    exact (this (Ne.symm differ) same value
      (Std.OrientedCmp.gt_iff_lt.1 above)).symm
  have above : compare other key = .gt := Std.OrientedCmp.gt_iff_lt.2 below
  induction entries with
  | nil => simp only [Sorted.insert, below, above]
  | cons entry rest induction =>
      rcases entry with ⟨present, old⟩
      cases order : compare other present with
      | lt =>
          have before := Std.TransCmp.lt_trans below order
          simp only [Sorted.insert, below, above, before, order]
      | eq =>
          cases Std.LawfulEqOrd.eq_of_compare order
          simp only [Sorted.insert, below, above, order]
      | gt =>
          cases place : compare key present with
          | lt => simp only [Sorted.insert, above, place, order]
          | eq => simp only [Sorted.insert, above, place, order]
          | gt => simp only [Sorted.insert, place, order, induction]

end Sorted

/-! ## Keys of hashes -/

instance : Std.LawfulEqOrd Key where
  compare_self {key} := by
    cases key with
    | integer value => exact Std.ReflOrd.compare_self (α := Int)
    | boolean value => exact Std.ReflOrd.compare_self (α := Nat)
    | string text => exact Std.ReflOrd.compare_self (α := String)
  eq_of_compare {first second} same := by
    cases first with
    | integer value =>
        cases second with
        | integer other =>
            have values : value.toInt = other.toInt :=
              Std.LawfulEqOrd.eq_of_compare same
            rw [Int64.toInt_inj.1 values]
        | _ => cases same
    | boolean value =>
        cases second with
        | boolean other =>
            cases value <;> cases other <;> first | rfl | cases same
        | _ => cases same
    | string text =>
        cases second with
        | string other =>
            have texts : text = other := Std.LawfulEqOrd.eq_of_compare same
            rw [texts]
        | _ => cases same

instance : Std.OrientedOrd Key where
  eq_swap {first second} := by
    cases first with
    | integer value =>
        cases second with
        | integer other => exact Std.OrientedOrd.eq_swap (α := Int)
        | _ => rfl
    | boolean value =>
        cases second with
        | boolean other => exact Std.OrientedOrd.eq_swap (α := Nat)
        | _ => rfl
    | string text =>
        cases second with
        | string other => exact Std.OrientedOrd.eq_swap (α := String)
        | _ => rfl

instance : Std.TransOrd Key where
  isLE_trans {first second third} before after := by
    cases first with
    | integer value =>
        cases third with
        | integer other =>
            cases second with
            | integer middle =>
                exact Std.TransOrd.isLE_trans (α := Int) before after
            | _ => cases after
        | _ => rfl
    | boolean value =>
        cases third with
        | integer other =>
            cases second with
            | integer middle => cases before
            | _ => cases after
        | boolean other =>
            cases second with
            | integer middle => cases before
            | boolean middle =>
                exact Std.TransOrd.isLE_trans (α := Nat) before after
            | string middle => cases after
        | string other => rfl
    | string text =>
        cases second with
        | string middle =>
            cases third with
            | string other =>
                exact Std.TransOrd.isLE_trans (α := String) before after
            | _ => cases after
        | _ => cases before

end Bhasha
