import AdhocReport.Client.Runner
set_option autoImplicit false

/-!
# The client: a staged run

A stage drives a runner until nothing can happen any more.  Its source answers every call when the call
is made, but an answer may be held back until a latch opens, and sleeps take no time unless they wait
for a latch.
-/

namespace AdhocReport.Client

open AdhocReport.Query

/-- An answer, and the latch that it waits for. -/
structure Planned where
  reply : Reply
  latch : Option String
  /-- The answer is given also to a run that was asked to stop. -/
  stubborn : Bool

/-- What answers the calls of a runner. -/
structure Source (σ : Type) where
  answer : Call → σ → Planned × σ
  /-- What happens during the `n`-th sleep of a submission. -/
  slept : Nat → σ → σ

/-- What is planned for the sleeps of a submission: in one of them the runner is cancelled, and one of
them waits for a latch. -/
structure Nap where
  cancelAt : Option Nat
  waitAt : Option Nat
  latch : String

/-- Sleeps in which nothing is planned. -/
def Nap.plain : Nap := ⟨none, none, ""⟩

/-- A runner in its surroundings. -/
structure Stage (σ : Type) where
  runner : Runner
  source : σ
  opened : List String
  /-- The answers to the calls that runs wait for. -/
  pending : List (Nat × Planned)
  naps : List (Nat × Nap)

namespace Stage

variable {σ : Type}

/-- A stage before the first submission. -/
def start (rhythm : Rhythm) (source : σ) : Stage σ := ⟨.start rhythm, source, [], [], []⟩

/-- A step of the runner. -/
def on (s : Stage σ) (e : Event) : Stage σ := { s with runner := s.runner.step e }

/-- Have the source answer a call of a run. -/
def ask (s : Stage σ) (src : Source σ) (g : Nat) (c : Call) : Stage σ :=
  let (planned, source) := src.answer c s.source
  { s with source, pending := (g, planned) :: s.pending.filter fun p => p.1 != g }

/-- A latch is open; no latch counts as an open one. -/
def isOpen (s : Stage σ) (latch : Option String) : Bool := latch.all s.opened.contains

/-- Hand a planned answer over, if nothing holds it back. -/
def answerRun (s : Stage σ) (x : Submission) : Option (Stage σ) :=
  match s.pending.lookup x.generation with
  | none => none
  | some p =>
    if x.stopping && !p.stubborn then some (s.on (.abort x.generation))
    else if s.isOpen p.latch then some (s.on (.reply x.generation p.reply))
    else none

/-- Go on with a run that sleeps before a poll, if nothing holds it back. -/
def sleepRun (s : Stage σ) (src : Source σ) (x : Submission) (job : String) (n : Nat) : Option (Stage σ) :=
  let g := x.generation
  let nap := (s.naps.lookup g).getD .plain
  if x.stopping then some (s.on (.abort g))
  else if nap.cancelAt == some n && s.runner.isCurrent g then some (s.on .cancel)
  else if nap.waitAt == some n && !s.isOpen (some nap.latch) then none
  else
    let rested := { s with source := src.slept n s.source }.on (.wake g)
    some (if s.runner.isCurrent g then rested.ask src g (.getJob job) else rested)

/-- The next thing that happens to a submission, if something can. -/
def move? (s : Stage σ) (src : Source σ) (x : Submission) : Option (Stage σ) :=
  let g := x.generation
  match x.phase with
  | .created =>
    if x.stopping then some (s.on (.abort g)) else some ((s.on (.launch g)).ask src g (.runQuery x.config))
  | .asking => s.answerRun x
  | .polling _ _ _ => s.answerRun x
  | .sleeping job polls _ => s.sleepRun src x job (polls + 1)
  | .ended _ =>
    match x.caller with
    | .waiting => some (s.on (.settle g))
    | _ => none

/-- Let things happen until nothing can, or `fuel` of them have. -/
def settleWithin (src : Source σ) : Nat → Stage σ → Stage σ
  | 0, s => s
  | fuel + 1, s =>
    match s.runner.submissions.findSome? (s.move? src) with
    | some t => settleWithin src fuel t
    | none => s

/-- Let things happen until nothing can: a submission begins, is answered, sleeps and polls as often as
the rhythm allows, ends, and is settled, and may be cancelled or aborted in between. -/
def settle (s : Stage σ) (src : Source σ) : Stage σ :=
  settleWithin src (s.runner.submissions.length * (3 * s.runner.rhythm.attempts.toNat + 10)) s

/-- Submit a query, and give the generation of the submission. -/
def submit (s : Stage σ) (src : Source σ) (c : Config) (fields : List DerivedField) (nap : Nap) :
    Except ReportError (Nat × Stage σ) := do
  let r ← s.runner.submit c fields
  let g := r.generation
  .ok (g, ({ s with runner := r, naps := (g, nap) :: s.naps }).settle src)

/-- Cancel the current submission. -/
def cancel (s : Stage σ) (src : Source σ) : Stage σ := (s.on .cancel).settle src

/-- What the caller of a submission knows. -/
def caller? (s : Stage σ) (g : Nat) : Option Caller := (s.runner.submission? g).map fun x => x.caller

/-- Cancel the caller of a submission, and tell whether it was still waiting. -/
def abandon (s : Stage σ) (src : Source σ) (g : Nat) : Bool × Stage σ :=
  match s.caller? g with
  | some .waiting => (true, (s.on (.abandon g)).settle src)
  | _ => (false, s)

/-- Open a latch. -/
def openLatch (s : Stage σ) (src : Source σ) (latch : String) : Stage σ :=
  ({ s with opened := latch :: s.opened }).settle src

end Stage

/-- Answers listed in advance. -/
structure Script where
  queries : List Planned
  polls : List Planned

/-- A source that gives the listed answers in turn: an empty result when no answer to a query is left,
and a running job when no answer to a poll is left. -/
def scripted : Source Script where
  answer c s :=
    match c, s.queries, s.polls with
    | .runQuery _, p :: rest, _ => (p, { s with queries := rest })
    | .getJob _, _, p :: rest => (p, { s with polls := rest })
    | .getJob id, _, [] => (⟨.answered (.job ⟨id, none, .running, none⟩), none, false⟩, s)
    | _, _, _ => (⟨.answered (.result ⟨[], [], none, .empty⟩), none, false⟩, s)
  slept _ s := s

end AdhocReport.Client
