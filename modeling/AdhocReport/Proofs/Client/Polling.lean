import AdhocReport.Proofs.Client.Rest
set_option autoImplicit false

/-!
# Undisturbed submissions

A submission that nothing disturbs asks for its result and then polls the job that it was given, as long
as the answers leave the job open and the polls are not used up.  Which of the answers ends it, and how,
is said by `Reply.verdict?`, one answer at a time; the run is then followed round by round, and what it
leaves is known from the first answer that has a verdict, whatever the other answers are.
-/

namespace AdhocReport.Client

open AdhocReport.Query

/-- The job that an answer describes. -/
def Reply.job? : Reply → Option JobDescriptor
  | .answered (.job d) => some d
  | _ => none

/-- How an answer ends a run: with a result or with an error, or not at all if it describes a job that has
not failed, finished or not.  A failed job is reported by the id that was polled, once there is one. -/
def Reply.verdict? (polled : Option String) : Reply → Option (Except ReportError ImmediateResult)
  | .answered (.result x) => some (.ok x)
  | .answered (.job d) => if d.status = .failed then some (.error (jobFailure (polled.getD d.jobId))) else none
  | .failed e => some (.error e)
  | .broken message => some (.error (.transport message none))

theorem Reply.verdict?_eq_none_iff {a : Reply} {polled : Option String} :
    a.verdict? polled = none ↔ ∃ d, a = .answered (.job d) ∧ d.status ≠ .failed := by
  constructor
  · intro h
    cases a with
    | failed e => cases h
    | broken message => cases h
    | answered response =>
      cases response with
      | result x => cases h
      | job d =>
        rw [Reply.verdict?, ite_eq_right_iff] at h
        exact ⟨d, rfl, fun hfailed => by cases h hfailed⟩
  · rintro ⟨d, rfl, hpending⟩
    exact if_neg hpending

/-- The ending of a run that comes to a result or to an error. -/
def Ending.of : Except ReportError ImmediateResult → Ending
  | .ok x => .returned (some x)
  | .error e => .raised e

/-- The slot of a run that came to a result or to an error, and the job that it had noted. -/
def Slot.ended (job : Option JobDescriptor) : Except ReportError ImmediateResult → Slot
  | .ok x => ⟨.completed, job, some x, none⟩
  | .error e => ⟨.failed, job, none, some e⟩

/-- The sleep before a poll, by the number of polls before it. -/
def Rhythm.sleepBefore (r : Rhythm) : Nat → Float
  | 0 => r.interval
  | n + 1 => r.next (r.sleepBefore n)

/-- The calls that a number of polls of a job make. -/
def Rhythm.polls (r : Rhythm) (job : String) (n : Nat) : List Call :=
  (List.range n).flatMap fun i => [.sleep (r.sleepBefore i), .getJob job]

theorem Rhythm.polls_succ (r : Rhythm) (job : String) (n : Nat) :
    r.polls job (n + 1) = r.polls job n ++ [.sleep (r.sleepBefore n), .getJob job] := by
  simp [polls, List.range_succ]

/-- The last job that the answers up to a number describe. -/
def lastJob? (answers : Nat → Reply) : Nat → Option JobDescriptor
  | 0 => (answers 0).job?
  | n + 1 => (answers (n + 1)).job?.or (lastJob? answers n)

/-- The steps of a run: it begins, is answered, and sleeps and polls for a number of rounds. -/
def course (g : Nat) (answers : Nat → Reply) : Nat → List Event
  | 0 => [.launch g, .reply g (answers 0)]
  | n + 1 => course g answers n ++ [.wake g, .reply g (answers (n + 1))]

namespace Runner

variable {r r' : Runner}

/-! ## Where a runner stands -/

theorem Effect.rhythm_eq {e : Event} (h : Effect r e r') : r'.rhythm = r.rhythm := by
  have hletGo (r : Runner) : r.letGo.rhythm = r.rhythm := by
    unfold Runner.letGo
    split <;> rfl
  have hcancel : r.cancel.rhythm = r.rhythm := by
    rw [cancel_eq]
    exact hletGo _
  cases h with
  | @submitted c fields _ haccepted =>
    unfold Runner.submit at haccepted
    cases hfresh : DerivedField.ensureFresh fields c.models with
    | error e =>
      rw [hfresh] at haccepted
      cases haccepted
    | ok u =>
      rw [hfresh] at haccepted
      cases haccepted
      exact hletGo r
  | cancelled => exact hcancel
  | closed => exact hcancel
  | _ => rfl

theorem run_rhythm (r : Runner) (es : List Event) : (r.run es).rhythm = r.rhythm :=
  @run_invariant (fun _ s => s.rhythm = r.rhythm) r rfl (fun hsame heffect => heffect.rhythm_eq.trans hsame) es

/-- Where a runner stands: its rhythm, its current submission, its slot and the calls so far. -/
structure Stands (r : Runner) (rhythm : Rhythm) (s : Submission) (slot : Slot) (calls : List Call) : Prop where
  rhythm : r.rhythm = rhythm
  current : r.current? = some s
  slot : r.slot = slot
  calls : r.calls = calls

namespace Stands

variable {rhythm : Rhythm} {s : Submission} {slot : Slot} {calls : List Call}

theorem generation (h : Stands r rhythm s slot calls) : r.generation = s.generation :=
  (generation_of_submission? h.current).symm

theorem isCurrent (h : Stands r rhythm s slot calls) : r.isCurrent s.generation = true := by
  rw [Runner.isCurrent, h.generation, beq_self_eq_true]

theorem found (h : Stands r rhythm s slot calls) : r.submission? s.generation = some s := by
  rw [← h.generation]
  exact h.current

theorem phase? (h : Stands r rhythm s slot calls) : r.phase? s.generation = some s.phase :=
  phase?_eq_some_iff.mpr ⟨s, h.found, rfl⟩

theorem change (h : Stands r rhythm s slot calls) {f : Submission → Submission}
    (hkeeps : ∀ s, (f s).generation = s.generation) :
    Stands (r.change s.generation f) rhythm (f s) slot calls := by
  have hchanged := submission?_change (h := s.generation) hkeeps h.found
  rw [if_pos rfl] at hchanged
  exact ⟨h.rhythm, (congrArg _ h.generation).trans hchanged, h.slot, h.calls⟩

theorem moveTo (h : Stands r rhythm s slot calls) (p : Phase) :
    Stands (r.moveTo s.generation p) rhythm { s with phase := p, stopping := false } slot calls :=
  h.change fun _ => rfl

theorem call (h : Stands r rhythm s slot calls) (c : Call) :
    Stands (r.call c) rhythm s slot (calls ++ [c]) :=
  ⟨h.rhythm, h.current, h.slot, by rw [Runner.call, h.calls]⟩

theorem write (h : Stands r rhythm s slot calls) (slot' : Slot) :
    Stands { r with slot := slot' } rhythm s slot' calls :=
  ⟨h.rhythm, h.current, rfl, h.calls⟩

theorem launch (h : Stands r rhythm s slot calls) (hbegins : s.phase = .created) (hfree : s.stopping = false) :
    Stands (r.launch s.generation) rhythm { s with phase := .asking, stopping := false } slot
      (calls ++ [.runQuery s.config]) := by
  obtain ⟨g, c, p, stopping, caller⟩ := s
  cases hbegins
  cases hfree
  rw [Runner.launch, h.found]
  exact (h.moveTo .asking).call _

theorem wake (h : Stands r rhythm s slot calls) {job : String} {polls : Nat} {interval : Float}
    (hsleeps : s.phase = .sleeping job polls interval) :
    Stands (r.wake s.generation) rhythm { s with phase := .polling job polls interval, stopping := false } slot
      (calls ++ [.getJob job]) := by
  rw [Runner.wake, h.phase?, hsleeps]
  dsimp only
  rw [if_pos h.isCurrent]
  exact (h.moveTo _).call _

theorem reply_asking (h : Stands r rhythm s slot calls) (hasks : s.phase = .asking) (a : Reply) :
    r.reply s.generation a = r.takeAnswer s.generation a := by
  rw [Runner.reply, h.phase?, hasks]

theorem reply_polling (h : Stands r rhythm s slot calls) {id : String} {polls : Nat} {interval : Float}
    (hasks : s.phase = .polling id polls interval) (a : Reply) :
    r.reply s.generation a = r.takePoll s.generation id polls interval a := by
  rw [Runner.reply, h.phase?, hasks]

/-! ## Answers to the current run -/

variable {state : RunnerState} {job : Option JobDescriptor}

theorem fail (h : Stands r rhythm s ⟨state, job, none, none⟩ calls) (e : ReportError) :
    Stands (r.fail s.generation e) rhythm { s with phase := .ended (.raised e), stopping := false }
      ⟨.failed, job, none, some e⟩ calls := by
  have hended := h.moveTo (.ended (.raised e))
  rw [Runner.fail, if_pos h.isCurrent, hended.slot]
  exact hended.write _

theorem complete (h : Stands r rhythm s ⟨state, job, none, none⟩ calls) (x : ImmediateResult) :
    Stands (r.complete s.generation x) rhythm
      { s with phase := .ended (.returned (some x)), stopping := false }
      ⟨.completed, job, some x, none⟩ calls := by
  have hended := h.moveTo (.ended (.returned (some x)))
  rw [Runner.complete, hended.slot]
  exact hended.write _

/-- An answer with a verdict ends the run that asked for its result. -/
theorem answer (h : Stands r rhythm s ⟨state, job, none, none⟩ calls) (hasks : s.phase = .asking) {a : Reply}
    {v : Except ReportError ImmediateResult} (hverdict : a.verdict? none = some v) :
    Stands (r.reply s.generation a) rhythm { s with phase := .ended (.of v), stopping := false }
      (.ended (a.job?.or job) v) calls := by
  rw [h.reply_asking hasks]
  cases a with
  | failed e =>
    cases hverdict
    exact h.fail e
  | broken message =>
    cases hverdict
    exact h.fail _
  | answered response =>
    simp only [Runner.takeAnswer, h.isCurrent, Bool.not_true, Bool.false_eq_true, if_false]
    cases response with
    | result x =>
      cases hverdict
      exact h.complete x
    | job d =>
      simp only [Reply.verdict?, Option.ite_none_right_eq_some] at hverdict
      obtain ⟨hfailed, ⟨⟩⟩ := hverdict
      simp only [hfailed, beq_self_eq_true, if_true, h.slot]
      exact (h.write ⟨.queued, some d, none, none⟩).fail _

/-- An answer with a verdict ends the run that polled. -/
theorem poll (h : Stands r rhythm s ⟨state, job, none, none⟩ calls) {id : String} {polls : Nat}
    {interval : Float} (hasks : s.phase = .polling id polls interval) {a : Reply}
    {v : Except ReportError ImmediateResult} (hverdict : a.verdict? (some id) = some v) :
    Stands (r.reply s.generation a) rhythm { s with phase := .ended (.of v), stopping := false }
      (.ended (a.job?.or job) v) calls := by
  rw [h.reply_polling hasks]
  cases a with
  | failed e =>
    cases hverdict
    exact h.fail e
  | broken message =>
    cases hverdict
    exact h.fail _
  | answered response =>
    simp only [Runner.takePoll, h.isCurrent, Bool.not_true, Bool.false_eq_true, if_false]
    cases response with
    | result x =>
      cases hverdict
      exact h.complete x
    | job d =>
      simp only [Reply.verdict?, Option.ite_none_right_eq_some] at hverdict
      obtain ⟨hfailed, ⟨⟩⟩ := hverdict
      simp only [hfailed, beq_self_eq_true, if_true, h.slot]
      exact (h.write ⟨state, some d, none, none⟩).fail _

/-- There are polls left. -/
theorem sleep (h : Stands r rhythm s slot calls) (id : String) {polls : Nat} (interval : Float)
    (hleft : (polls : Int) < rhythm.attempts) :
    Stands (r.pollAgain s.generation id polls interval) rhythm
      { s with phase := .sleeping id polls interval, stopping := false } slot
      (calls ++ [.sleep interval]) := by
  rw [Runner.pollAgain, if_pos (by rwa [h.rhythm])]
  exact (h.moveTo _).call _

/-- The polls are used up. -/
theorem giveUp (h : Stands r rhythm s ⟨state, job, none, none⟩ calls) (id : String) {polls : Nat}
    (interval : Float) (hused : rhythm.attempts ≤ polls) :
    Stands (r.pollAgain s.generation id polls interval) rhythm
      { s with phase := .ended (.raised (jobTimeout id rhythm.attempts)), stopping := false }
      ⟨.failed, job, none, some (jobTimeout id rhythm.attempts)⟩ calls := by
  rw [Runner.pollAgain, h.rhythm, if_neg (by omega)]
  exact h.fail _

/-- An answer that leaves the job open is noted. -/
theorem answer_open (h : Stands r rhythm s slot calls) (hasks : s.phase = .asking) {d : JobDescriptor}
    (hpending : d.status ≠ .failed) :
    r.reply s.generation (.answered (.job d)) =
      { r with slot := { slot with state := .queued, job := some d } }.pollAgain s.generation d.jobId 0
        rhythm.interval := by
  rw [h.reply_asking hasks]
  simp [Runner.takeAnswer, h.isCurrent, h.slot, h.rhythm, hpending]

theorem poll_open (h : Stands r rhythm s slot calls) {id : String} {polls : Nat} {interval : Float}
    (hasks : s.phase = .polling id polls interval) {d : JobDescriptor} (hpending : d.status ≠ .failed) :
    r.reply s.generation (.answered (.job d)) =
      { r with slot := { slot with job := some d } }.pollAgain s.generation id (polls + 1)
        (rhythm.next interval) := by
  rw [h.reply_polling hasks]
  simp [Runner.takePoll, h.isCurrent, h.slot, h.rhythm, hpending]

end Stands

/-! ## Rounds -/

section Rounds

variable {rhythm : Rhythm} {g : Nat} {c : Config} {calls : List Call} {answers : Nat → Reply}

/-- The submission of a generation whose caller waits. -/
def waiting (g : Nat) (c : Config) (p : Phase) : Submission := ⟨g, c, p, false, .waiting⟩

/-- The run has begun and waits for its first answer. -/
theorem Stands.launched (h : Stands r rhythm (waiting g c .created) ⟨.submitted, none, none, none⟩ calls) :
    Stands (r.launch g) rhythm (waiting g c .asking) ⟨.submitted, none, none, none⟩ (calls ++ [.runQuery c]) :=
  h.launch rfl rfl

/-- Where a run stands that sleeps before its next poll. -/
def Sleeps (rhythm : Rhythm) (g : Nat) (c : Config) (answers : Nat → Reply) (calls : List Call) (job : String)
    (n : Nat) (r : Runner) : Prop :=
  Stands r rhythm (waiting g c (.sleeping job n (rhythm.sleepBefore n)))
    ⟨.queued, lastJob? answers n, none, none⟩
    (calls ++ .runQuery c :: rhythm.polls job n ++ [.sleep (rhythm.sleepBefore n)])

/-- Where a run stands that came to a result or to an error after a number of polls. -/
def Ends (rhythm : Rhythm) (g : Nat) (c : Config) (answers : Nat → Reply) (calls : List Call) (job : String)
    (n : Nat) (v : Except ReportError ImmediateResult) (r : Runner) : Prop :=
  Stands r rhythm (waiting g c (.ended (.of v))) (.ended (lastJob? answers n) v)
    (calls ++ .runQuery c :: rhythm.polls job n)

variable {job : String} {n : Nat} {v : Except ReportError ImmediateResult} {d : JobDescriptor}

section Answered

variable (h : Stands r rhythm (waiting g c .created) ⟨.submitted, none, none, none⟩ calls)
include h

theorem Stands.ends_of_answer (hverdict : (answers 0).verdict? none = some v) :
    Ends rhythm g c answers calls job 0 v (r.run (course g answers 0)) := by
  have hended := h.launched.answer rfl hverdict
  rw [Option.or_none] at hended
  exact hended

variable (hasked : answers 0 = .answered (.job d)) (hpending : d.status ≠ .failed)
include hasked hpending

theorem Stands.run_open : r.run (course g answers 0) =
    { r.launch g with slot := ⟨.queued, lastJob? answers 0, none, none⟩ }.pollAgain g d.jobId 0
      rhythm.interval := by
  have htaken := h.launched.answer_open rfl hpending
  rw [← hasked] at htaken
  rw [lastJob?, hasked]
  exact htaken

theorem Stands.sleeps_of_answer (hleft : 0 < rhythm.attempts) :
    Sleeps rhythm g c answers calls d.jobId 0 (r.run (course g answers 0)) := by
  rw [h.run_open hasked hpending]
  exact (h.launched.write _).sleep _ _ hleft

theorem Stands.ends_of_no_polls (hused : rhythm.attempts ≤ 0) :
    Ends rhythm g c answers calls d.jobId 0 (.error (jobTimeout d.jobId rhythm.attempts))
      (r.run (course g answers 0)) := by
  rw [h.run_open hasked hpending]
  exact (h.launched.write _).giveUp _ _ hused

end Answered

section Polled

variable (h : Sleeps rhythm g c answers calls job n r)
include h

/-- A run that has slept asks for the job that it was given. -/
theorem Sleeps.wake : Stands (r.wake g) rhythm (waiting g c (.polling job n (rhythm.sleepBefore n)))
    ⟨.queued, lastJob? answers n, none, none⟩ (calls ++ .runQuery c :: rhythm.polls job (n + 1)) := by
  have hpolled := Stands.wake h rfl
  rw [List.append_assoc, List.append_assoc, List.singleton_append, List.cons_append,
    ← Rhythm.polls_succ] at hpolled
  exact hpolled

theorem Sleeps.ends_of_answer (hverdict : (answers (n + 1)).verdict? (some job) = some v) :
    Ends rhythm g c answers calls job (n + 1) v (r.run [.wake g, .reply g (answers (n + 1))]) := by
  exact h.wake.poll rfl hverdict

theorem Sleeps.run_open (hpending : (answers (n + 1)).verdict? (some job) = none) :
    r.run [.wake g, .reply g (answers (n + 1))] =
      { r.wake g with slot := ⟨.queued, lastJob? answers (n + 1), none, none⟩ }.pollAgain g job (n + 1)
        (rhythm.sleepBefore (n + 1)) := by
  obtain ⟨d, hasked, hpending⟩ := Reply.verdict?_eq_none_iff.mp hpending
  have hnoted : lastJob? answers (n + 1) = some d := by
    rw [lastJob?, hasked]
    rfl
  have htaken := h.wake.poll_open rfl hpending
  rw [← hasked] at htaken
  rw [hnoted]
  exact htaken

theorem Sleeps.sleeps_of_answer (hpending : (answers (n + 1)).verdict? (some job) = none)
    (hleft : ((n + 1 : Nat) : Int) < rhythm.attempts) :
    Sleeps rhythm g c answers calls job (n + 1) (r.run [.wake g, .reply g (answers (n + 1))]) := by
  rw [h.run_open hpending]
  exact (h.wake.write _).sleep _ _ hleft

theorem Sleeps.ends_of_last_poll (hpending : (answers (n + 1)).verdict? (some job) = none)
    (hused : rhythm.attempts ≤ ((n + 1 : Nat) : Int)) :
    Ends rhythm g c answers calls job (n + 1) (.error (jobTimeout job rhythm.attempts))
      (r.run [.wake g, .reply g (answers (n + 1))]) := by
  rw [h.run_open hpending]
  exact (h.wake.write _).giveUp _ _ hused

end Polled

/-! ## Whole runs -/

/-- A run that has ended stays as it is, whatever rounds follow. -/
theorem Ends.run_course {k : Nat} (h : Ends rhythm g c answers calls job k v (r.run (course g answers n)))
    {rounds : Nat} (hlater : n ≤ rounds) :
    Ends rhythm g c answers calls job k v (r.run (course g answers rounds)) := by
  induction hlater with
  | refl => exact h
  | @step m hlater ih =>
    have hstill := Stands.phase? ih
    have hwakes : (r.run (course g answers m)).wake g = r.run (course g answers m) := by
      rw [Runner.wake, show (r.run (course g answers m)).phase? g = _ from hstill]
      rfl
    have hreplies (a : Reply) : (r.run (course g answers m)).reply g a = r.run (course g answers m) := by
      rw [Runner.reply, show (r.run (course g answers m)).phase? g = _ from hstill]
      rfl
    have hsame : r.run (course g answers (m + 1)) = r.run (course g answers m) := by
      rw [course, run_append]
      change ((r.run (course g answers m)).wake g).reply g _ = _
      rw [hwakes, hreplies]
    rw [hsame]
    exact ih

/-- As long as the answers leave the job open and there are polls left, the run sleeps and polls. -/
theorem Stands.sleeps (h : Stands r rhythm (waiting g c .created) ⟨.submitted, none, none, none⟩ calls)
    (hasked : answers 0 = .answered (.job d)) (hpending : d.status ≠ .failed)
    (hleft : (n : Int) < rhythm.attempts)
    (hstill : ∀ i, 1 ≤ i → i ≤ n → (answers i).verdict? (some d.jobId) = none) :
    Sleeps rhythm g c answers calls d.jobId n (r.run (course g answers n)) := by
  induction n with
  | zero => exact h.sleeps_of_answer hasked hpending hleft
  | succ n ih =>
    have hsleeps := ih (by omega) fun i hfirst hlast => hstill i hfirst (by omega)
    rw [course, run_append]
    exact hsleeps.sleeps_of_answer (hstill (n + 1) (by omega) (by omega)) hleft

/-- The caller of a run that has ended is told how. -/
theorem Ends.settle {k : Nat} (h : Ends rhythm g c answers calls job k v r) :
    Stands (r.settle g) rhythm ⟨g, c, .ended (.of v), false, .answered (v.map some)⟩
      (.ended (lastJob? answers k) v) (calls ++ .runQuery c :: rhythm.polls job k) := by
  have hcurrent : r.isCurrent g = true := Stands.isCurrent h
  have htold : r.told g (.of v) = v.map some := by
    cases v with
    | ok x => simp [told, Ending.of, hcurrent, Except.map]
    | error e => simp [told, Ending.of, hcurrent, Except.map]
  rw [Runner.settle, show r.submission? g = _ from Stands.found h]
  dsimp only [waiting]
  rw [htold]
  exact Stands.change h fun _ => rfl

end Rounds

/-- The submission of a runner has come to a result or to an error since then: its slot, its run and its
caller say so, and it has asked for its result and made the calls for its polls. -/
def Settled (r r' : Runner) (c : Config) (job : Option JobDescriptor) (v : Except ReportError ImmediateResult)
    (polls : List Call) : Prop :=
  r'.Stands r.rhythm ⟨r.generation, c, .ended (.of v), false, .answered (v.map some)⟩ (.ended job v)
    (r.calls ++ .runQuery c :: polls)

/-- However the runner came to accept a submission: if nothing disturbs it, its outcome is that of the first
answer with a verdict.  A verdict on the query itself ends it before any sleep.  Else the query was given a
job, and it sleeps and asks for that job, by the id of the first answer, once for each answer up to the first
with a verdict, or until the polls are used up, which is reported as such.  It ends once, and makes no calls
beyond these, however long it is given. -/
theorem undisturbed_outcome {rhythm : Rhythm} {es : List Event} {c : Config} {fields : List DerivedField}
    {r : Runner} (haccepted : ((start rhythm).run es).submit c fields = .ok r) (answers : Nat → Reply)
    {rounds : Nat} (henough : rhythm.attempts ≤ rounds) :
    let r' := r.run (course r.generation answers rounds ++ [.settle r.generation])
    (∀ v, (answers 0).verdict? none = some v → r.Settled r' c (answers 0).job? v []) ∧
    ∀ d, answers 0 = .answered (.job d) → d.status ≠ .failed →
      (∀ (k : Nat) v, 1 ≤ k → k ≤ rhythm.attempts →
        (∀ i, 1 ≤ i → i < k → (answers i).verdict? (some d.jobId) = none) →
        (answers k).verdict? (some d.jobId) = some v →
        r.Settled r' c (lastJob? answers k) v (rhythm.polls d.jobId k)) ∧
      ((∀ i : Nat, 1 ≤ i → i ≤ rhythm.attempts → (answers i).verdict? (some d.jobId) = none) →
        r.Settled r' c (lastJob? answers rhythm.attempts.toNat)
          (.error (jobTimeout d.jobId rhythm.attempts)) (rhythm.polls d.jobId rhythm.attempts.toNat)) := by
  intro r'
  have hkept : r.rhythm = rhythm := by
    rw [← step_submit_ok haccepted, ← run_concat, run_rhythm]
    rfl
  obtain ⟨hgeneration, hslot, -⟩ := submit_eq_ok haccepted
  have hcreated : Stands r rhythm (waiting r.generation c .created) ⟨.submitted, none, none, none⟩ r.calls := by
    refine ⟨hkept, ?_, hslot, rfl⟩
    rw [waiting, hgeneration]
    exact current?_of_submit (Ordered.run rhythm es) haccepted
  -- what stands after some rounds stands after all of them, and then the caller is told
  have hsettled {job : String} {k n : Nat} {v : Except ReportError ImmediateResult} (hwithin : n ≤ rounds)
      (hended : Ends rhythm r.generation c answers r.calls job k v (r.run (course r.generation answers n))) :
      r.Settled r' c (lastJob? answers k) v (rhythm.polls job k) := by
    rw [Settled, hkept, show r' = (r.run (course r.generation answers rounds)).settle r.generation from
      run_concat _ _ _]
    exact (hended.run_course hwithin).settle
  refine ⟨fun v hverdict => ?_, fun d hasked hpending =>
    ⟨fun k v hfirst hwithin hstill hverdict => ?_, fun hstill => ?_⟩⟩
  · have hended : Ends rhythm r.generation c answers r.calls "" 0 v _ := hcreated.ends_of_answer hverdict
    exact hsettled (Nat.zero_le _) hended
  · obtain ⟨n, rfl⟩ := Nat.exists_eq_add_of_le' hfirst
    have hsleeps := hcreated.sleeps (n := n) hasked hpending (by omega)
      fun i hfirst hlast => hstill i hfirst (by omega)
    refine hsettled (n := n + 1) (by omega) ?_
    rw [course, run_append]
    exact hsleeps.ends_of_answer hverdict
  · cases hpolls : rhythm.attempts.toNat with
    | zero => exact hsettled (Nat.zero_le _) (hcreated.ends_of_no_polls hasked hpending (by omega))
    | succ n =>
      have hsleeps := hcreated.sleeps (n := n) hasked hpending (by omega)
        fun i hfirst hlast => hstill i hfirst (by omega)
      refine hsettled (n := n + 1) (by omega) ?_
      rw [course, run_append]
      exact hsleeps.ends_of_last_poll (hstill (n + 1) (by omega) (by omega)) (by omega)

/-- Two polls are allowed.  A job that is running, and then completed under another id but without a result,
is asked for twice by its first id: with a result the second time the submission is completed, and with the
same answer again the polls are used up. -/
theorem undisturbed_outcome_two_polls :
    let c : Config := ⟨["user"], [], [], [], [], [], [], 100, .standard⟩
    let x : ImmediateResult := ⟨["User"], [], none, .empty⟩
    let asked : Reply := .answered (.job ⟨"a", none, .running, none⟩)
    let completed : Reply := .answered (.job ⟨"b", none, .completed, none⟩)
    let r : Runner := ⟨⟨1, 2, 30, 2⟩, 1, ⟨.submitted, none, none, none⟩, some 1,
      [⟨1, c, .created, false, .waiting⟩], []⟩
    let after (last : Reply) : Runner := r.run (course 1
      (fun | 0 => asked | 1 => completed | 2 => last | _ => .broken "late") 5 ++ [.settle 1])
    (after (.answered (.result x))).slot.result = some x ∧
    (after completed).slot.error = some (jobTimeout "a" 2) ∧
    (after completed).calls = [.runQuery c, .sleep 1, .getJob "a", .sleep (r.rhythm.next 1), .getJob "a"] := by
  intro c x asked completed r after
  let answers (last : Reply) : Nat → Reply :=
    fun | 0 => asked | 1 => completed | 2 => last | _ => .broken "late"
  have haccepted : ((start r.rhythm).run []).submit c [] = .ok r := rfl
  have houtcome (last : Reply) := (@undisturbed_outcome r.rhythm [] c [] r haccepted (answers last) 5
    (by decide)).2 ⟨"a", none, .running, none⟩ rfl (by decide)
  have hsecond : r.Settled (after (.answered (.result x))) c _ (.ok x) _ :=
    (houtcome (.answered (.result x))).1 2 (.ok x) (by decide) (by decide) (fun i hfirst hlast => by
      have honly : i = 1 := by omega
      rw [honly]
      rfl) rfl
  have hused : r.Settled (after completed) c _ (.error (jobTimeout "a" 2)) _ :=
    (houtcome completed).2 fun i hfirst hlast => by
      have hlast : (i : Int) ≤ 2 := hlast
      obtain rfl | rfl : i = 1 ∨ i = 2 := by omega
      · rfl
      · rfl
  exact ⟨congrArg Slot.result hsecond.slot, congrArg Slot.error hused.slot, hused.calls⟩

end Runner

end AdhocReport.Client
