import AdhocReport.Collection.Sorting
set_option autoImplicit false

/-!
# Joins: pairs of models

An expression over several models is valid only where each two of them are joined.  A pair is
identified by a key that does not depend on the order of its two ids.
-/

namespace AdhocReport.Join

/-- The key of an unordered pair of models. -/
def pairKey (left right : String) : String :=
  if right < left then right ++ "::" ++ left else left ++ "::" ++ right

/-- Each entry paired with each later one. -/
def pairsInOrder : List String → List (String × String)
  | [] => []
  | m :: rest => rest.map (fun other => (m, other)) ++ pairsInOrder rest

/-- All unordered pairs of distinct models, in code point order. -/
def inferredPairs (models : List String) : List (String × String) :=
  pairsInOrder (Collection.sortedSet models)

/-- The keys of the pairs that joins connect: both ids are there and differ. -/
def pairKeys (joins : List (String × String)) : List String :=
  Collection.sortedSet
    ((joins.filter fun j => j.1 != "" && j.2 != "" && j.1 != j.2).map fun j => pairKey j.1 j.2)

end AdhocReport.Join
