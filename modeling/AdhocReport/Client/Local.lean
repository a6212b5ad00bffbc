import AdhocReport.Client.Stage
import AdhocReport.Service.Execution
set_option autoImplicit false

/-!
# The client: a service in the same process

A runner may work on a service directly.  HTTP failures and refused values then surface as transport
errors, as they do over HTTP; other failures pass.
-/

namespace AdhocReport.Client

open AdhocReport.Query AdhocReport.Service

/-- What a message shows of a detail: a text as it is. -/
def detailText : Json → String
  | .str s => s
  | j => j.shown

/-- The failure of a service as its client sees it. -/
def clientFailure (operation : String) (f : Failure) : Failure :=
  let transport := fun (message : String) (status : Option Int) =>
    Failure.report (.transport (operation ++ " failed: " ++ message) status)
  match f with
  | .http status detail => transport (detailText detail) (some status)
  | .invalid i => transport i.headline none
  | .badCode _ _ => transport f.message none
  | .badNumber _ _ => transport f.message none
  | .badDate _ => transport f.message none
  | .record fault => if fault.isMalformed then transport f.message none else f
  | _ => f

/-- The answer of a service to a runner. -/
def Reply.ofOutcome (operation : String) (a : Except Failure Response) : Reply :=
  match a.mapError (clientFailure operation) with
  | .ok r => .answered r
  | .error (.report e) => .failed e
  | .error f => .broken f.message

/-- A service with the sleeps in which all dispatched jobs are run or deleted. -/
structure Site where
  backend : Backend
  mode : Dispatch
  now : Calendar.Moment
  store : Store
  runAt : Nat
  deleteAt : Nat

/-- Do something with every dispatched job. -/
def Site.eachJob (s : Site) (f : Store → String → Store) : Site :=
  { s with store := s.store.dispatched.foldl f s.store }

/-- The source that asks a service. -/
def serviceSource : Source Site where
  answer c s :=
    let (operation, a, store) := match c with
      | .runQuery config =>
        let (a, store) := s.backend.runQuery s.mode s.store s.now config
        ("run_query", a, store)
      | .getJob id => ("get_job", s.store.getJob id, s.store)
      | .sleep _ => ("", .error .noMembers, s.store)
    (⟨.ofOutcome operation a, none, false⟩, { s with store })
  slept n s :=
    let s := if n = s.runAt then s.eachJob fun t id => (s.backend.runJob t s.now id).2 else s
    if n = s.deleteAt then s.eachJob fun t id => (t.deleteJob id).2 else s

end AdhocReport.Client
