import AdhocReport.Join.Pairs
set_option autoImplicit false

/-!
# Joins: the graph of a selection

The selected models are the nodes, and the joins between two different selected models the edges.
Components are found by breadth-first traversal in selection order; the first one is primary, and
every model outside it is disconnected, whatever the sizes.  Coverage tells which of the pairs that
a derived field needs are joined.
-/

namespace AdhocReport.Join

open AdhocReport.Collection

/-- The connectivity of a selection. -/
structure Analysis where
  /-- For each selected model, how many joins touch it. -/
  degrees : List (String × Nat)
  components : List (List String)
  /-- The models outside the first component, in selection order. -/
  disconnected : List String
  deriving DecidableEq, Repr

/-- The joins between two different selected models. -/
def edges (selected : List String) (joins : List (String × String)) : List (String × String) :=
  joins.filter fun j => selected.contains j.1 && selected.contains j.2 && j.1 != j.2

/-- The models joined to `m`, in the order of the joins, each once. -/
def neighbours (edges : List (String × String)) (m : String) : List String :=
  distinct (edges.filterMap fun j =>
    if j.1 == m then some j.2 else if j.2 == m then some j.1 else none)

/-- The number of edges that touch `m`. -/
def degree (edges : List (String × String)) (m : String) : Nat :=
  (edges.filter fun j => j.1 == m || j.2 == m).length

/-- Visit the queue breadth first; every visited model was queued once.  The fuel is at least the
number of models that can still be queued. -/
def visit (edges : List (String × String)) : Nat → List String → List String → List String
  | 0, _, _ => []
  | _ + 1, _, [] => []
  | fuel + 1, visited, m :: queue =>
    let fresh := (neighbours edges m).filter fun n => !visited.contains n
    m :: visit edges fuel (visited ++ fresh) (queue ++ fresh)

/-- The component of each model that no earlier component holds. -/
def componentsFrom (edges : List (String × String)) (count : Nat) :
    List String → List String → List (List String)
  | _, [] => []
  | visited, m :: rest =>
    if visited.contains m then componentsFrom edges count visited rest
    else
      let component := visit edges count (m :: visited) [m]
      component :: componentsFrom edges count (visited ++ component) rest

/-- Split a selection into its components. -/
def analyze (models : List String) (joins : List (String × String)) : Analysis :=
  let ordered := distinct models
  let es := edges ordered joins
  let components := componentsFrom es ordered.length [] ordered
  let primary := components.headD []
  ⟨ordered.map fun m => (m, degree es m), components, ordered.filter fun m => !primary.contains m⟩

/-- The component of the first selected model. -/
def Analysis.primary (a : Analysis) : List String := a.components.headD []

/-- Every selected model is reachable from the first. -/
def Analysis.isConnected (a : Analysis) : Bool := a.disconnected.isEmpty

/-- A pair that a derived field needs, and whether a join connects it. -/
structure Coverage where
  pair : String × String
  satisfied : Bool
  deriving DecidableEq, Repr

/-- The pairs a field needs: the stored ones, else all pairs of its models. -/
def neededPairs (stored : List (String × String)) (models : List String) : List (String × String) :=
  if stored.isEmpty then inferredPairs models else stored

/-- Check each needed pair against the keys of the joins. -/
def coverage (stored : List (String × String)) (models : List String) (keys : List String) : List Coverage :=
  (neededPairs stored models).map fun p => ⟨p, keys.contains (pairKey p.1 p.2)⟩

end AdhocReport.Join
