/-!
# Sorted association lists

A finite map is kept as a list of keys and values in increasing order of the
keys, each key once.  Inserting replaces the value of a key that is there and
puts a new key at its place, so the list depends on the last value of each key
and not on the order of the insertions.  A value is found with `List.lookup`.
-/

namespace Bhasha

/-- Keys and values, in increasing order of the keys. -/
abbrev Sorted (κ α : Type) := List (κ × α)

namespace Sorted

variable {κ α : Type}

/-- Give a key a value, in place of the one that it had. -/
def insert [Ord κ] (key : κ) (value : α) : Sorted κ α → Sorted κ α
  | [] => [(key, value)]
  | (other, present) :: rest =>
    match compare key other with
    | .lt => (key, value) :: (other, present) :: rest
    | .eq => (key, value) :: rest
    | .gt => (other, present) :: insert key value rest

/-- The keys, in increasing order. -/
def keys (entries : Sorted κ α) : List κ :=
  entries.map Prod.fst

end Sorted

end Bhasha
