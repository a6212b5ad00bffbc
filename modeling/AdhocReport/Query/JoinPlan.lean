import AdhocReport.Join.Condition
set_option autoImplicit false

/-!
# Queries: the join plan

The selected models are joined one after another, starting with the first.  A join with one side
among the models joined so far attaches the other side; a join with both sides there closes a cycle
and becomes a condition on rows.  The joins are gone through in their order, again and again, until
none is left or a whole pass finds nothing to do.
-/

namespace AdhocReport.Query

open AdhocReport.Join

/-- One step of joining. -/
inductive JoinStep where
  /-- The join attaches a model to those joined so far. -/
  | attach (join : Condition) (model : String)
  /-- The join connects two models joined before. -/
  | close (join : Condition)
  deriving DecidableEq, Repr

/-- The join of a step. -/
def JoinStep.join : JoinStep → Condition
  | .attach j _ => j
  | .close j => j

/-- The model that a step attaches. -/
def JoinStep.model? : JoinStep → Option String
  | .attach _ m => some m
  | .close _ => none

/-- The step that a join allows, if one of its sides is joined. -/
def stepOf (joined : List String) (j : Condition) : Option JoinStep :=
  match joined.contains j.left.model, joined.contains j.right.model with
  | true, true => some (.close j)
  | true, false => some (.attach j j.right.model)
  | false, true => some (.attach j j.left.model)
  | false, false => none

/-- The outcome of going through the joins once. -/
structure JoinPass where
  steps : List JoinStep
  /-- The joins that are left. -/
  pending : List Condition
  joined : List String
  deriving DecidableEq, Repr

/-- Go through joins that are among the pending ones, once.  A join that allows a step is no longer
pending; of several that are equal the first one in the list is taken out. -/
def joinPass (joined : List String) (pending : List Condition) : List Condition → JoinPass
  | [] => ⟨[], pending, joined⟩
  | j :: rest =>
    match stepOf joined j with
    | some step =>
      let p := joinPass (joined ++ step.model?.toList) (pending.erase j) rest
      { p with steps := step :: p.steps }
    | none => joinPass joined pending rest

/-- Go through the joins until a pass takes no step.  The fuel is at least the number of joins. -/
def joinSteps : Nat → List String → List Condition → List JoinStep
  | 0, _, _ => []
  | fuel + 1, joined, pending =>
    let p := joinPass joined pending pending
    if p.steps.isEmpty then [] else p.steps ++ joinSteps fuel p.joined p.pending

/-- The joins between selected models. -/
def usableJoins (models : List String) (joins : List Condition) : List Condition :=
  joins.filter fun j => models.contains j.left.model && models.contains j.right.model

/-- The steps that join a selection. -/
def joinPlan (models : List String) (joins : List Condition) : List JoinStep :=
  let usable := usableJoins models joins
  joinSteps usable.length (models.take 1) usable

end AdhocReport.Query
