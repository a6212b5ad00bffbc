import AdhocReport.Proofs.Service.Run
import Mathlib.Data.List.Nodup
set_option autoImplicit false

/-!
# Purging

A purge removes the results that have expired.  Since these are not served any more, and since storing a
result replaces the one of its hash whether or not it has expired, two stores that differ in expired results
only give the same answers for as long as the clock does not go back.
-/

namespace AdhocReport.Service

open AdhocReport.Query

namespace Store

/-- No two entries have one hash. -/
def Keyed (s : Store) : Prop := (s.entries.map fun e => e.hash).Nodup

/-! ## Entries -/

theorem entry?_eq_some_iff {s : Store} (hkeyed : s.Keyed) {hash : String} {e : CacheEntry} :
    s.entry? hash = some e ↔ e ∈ s.entries ∧ e.hash = hash := by
  constructor
  · intro hfound
    exact ⟨List.mem_of_find?_eq_some hfound, by simpa using List.find?_some hfound⟩
  · rintro ⟨hmember, rfl⟩
    cases hfound : s.entry? e.hash with
    | none =>
      have := List.find?_eq_none.mp hfound e hmember
      simp at this
    | some d =>
      have hsame : d.hash = e.hash := by simpa using List.find?_some hfound
      rw [List.inj_on_of_nodup_map hkeyed (List.mem_of_find?_eq_some hfound) hmember hsame]

theorem fresh?_eq_some_iff {s : Store} (hkeyed : s.Keyed) {hash : String} {now : Calendar.Moment}
    {e : CacheEntry} :
    s.fresh? hash now = some e ↔ e ∈ s.entries ∧ e.hash = hash ∧ e.isFresh now = true := by
  rw [fresh?, Option.filter_eq_some_iff, entry?_eq_some_iff hkeyed, and_assoc]

theorem mem_purge {s : Store} {now : Calendar.Moment} {e : CacheEntry} :
    e ∈ (s.purge now).entries ↔ e ∈ s.entries ∧ e.isFresh now = true :=
  List.mem_filter

theorem Keyed.purge {s : Store} (hkeyed : s.Keyed) (now : Calendar.Moment) : (s.purge now).Keyed :=
  hkeyed.sublist (List.filter_sublist.map _)

/-- What is fresh later is fresh now. -/
theorem isFresh_of_later {e : CacheEntry} {now later : Calendar.Moment} (honward : now.micros ≤ later.micros)
    (hfresh : e.isFresh later = true) : e.isFresh now = true := by
  simp only [CacheEntry.isFresh, decide_eq_true_eq] at hfresh ⊢
  omega

/-- From the moment of a purge on, it makes no difference to what is served. -/
theorem fresh?_purge {s : Store} (hkeyed : s.Keyed) {now later : Calendar.Moment}
    (honward : now.micros ≤ later.micros) (hash : String) :
    (s.purge now).fresh? hash later = s.fresh? hash later := by
  refine Option.ext fun e => ?_
  rw [fresh?_eq_some_iff (hkeyed.purge now), fresh?_eq_some_iff hkeyed, mem_purge]
  constructor
  · rintro ⟨⟨hmember, -⟩, hhere, hfresh⟩
    exact ⟨hmember, hhere, hfresh⟩
  · rintro ⟨hmember, hhere, hfresh⟩
    exact ⟨⟨hmember, isFresh_of_later honward hfresh⟩, hhere, hfresh⟩

/-- A stored result is found under its hash, and the others are found as before. -/
theorem entry?_put (s : Store) (e : CacheEntry) (hash : String) :
    Store.entry? (s.put e) hash = if e.hash = hash then some e else s.entry? hash := by
  simp only [put, Store.entry?]
  induction s.entries with
  | nil => simp [putEntry, List.find?_singleton]
  | cons d rest ih =>
    unfold putEntry
    split
    · rename_i hreplaced
      rw [List.find?_cons, List.find?_cons, hreplaced]
      cases hsame : e.hash == hash with
      | true => exact (if_pos (beq_iff_eq.mp hsame)).symm
      | false => exact (if_neg (beq_eq_false_iff_ne.mp hsame)).symm
    · rename_i hother
      rw [List.find?_cons, List.find?_cons, ih]
      cases hsame : d.hash == hash with
      | true => exact (if_neg fun hhere => hother ((beq_iff_eq.mp hsame).trans hhere.symm)).symm
      | false => rfl

theorem fresh?_put (s : Store) (e : CacheEntry) (hash : String) (now : Calendar.Moment) :
    (s.put e).fresh? hash now =
      if e.hash = hash then (some e).filter fun d => d.isFresh now else s.fresh? hash now := by
  rw [fresh?, entry?_put]
  split <;> rfl

theorem nodup_putEntry (e : CacheEntry) {es : List CacheEntry} (hdistinct : (es.map fun e => e.hash).Nodup) :
    ((putEntry e es).map fun e => e.hash).Nodup := by
  induction es with
  | nil => exact List.nodup_singleton _
  | cons d rest ih =>
    obtain ⟨hapart, hothers⟩ := List.nodup_cons.mp hdistinct
    unfold putEntry
    split
    · rename_i hreplaced
      rw [List.map_cons, ← hreplaced]
      exact hdistinct
    · rename_i hother
      refine List.nodup_cons.mpr ⟨fun hrepeated => ?_, ih hothers⟩
      obtain ⟨k, hmember, hsame⟩ := List.mem_map.mp hrepeated
      rcases mem_putEntry hmember with rfl | hpresent
      · exact hother hsame.symm
      · exact hapart (List.mem_map.mpr ⟨k, hpresent, hsame⟩)

theorem Keyed.put {s : Store} (hkeyed : s.Keyed) (e : CacheEntry) : (s.put e).Keyed := nodup_putEntry e hkeyed

/-! ## Stores that serve alike -/

/-- The stores have the same jobs, and from a moment on they serve the same results. -/
structure Alike (s t : Store) (now : Calendar.Moment) : Prop where
  jobs : s.jobs = t.jobs
  inserted : s.inserted = t.inserted
  dispatched : s.dispatched = t.dispatched
  keyed : s.Keyed ∧ t.Keyed
  fresh : ∀ hash later, now.micros ≤ later.micros → s.fresh? hash later = t.fresh? hash later

namespace Alike

variable {s t : Store} {now : Calendar.Moment}

theorem refl (hkeyed : s.Keyed) (now : Calendar.Moment) : s.Alike s now :=
  ⟨rfl, rfl, rfl, ⟨hkeyed, hkeyed⟩, fun _ _ _ => rfl⟩

/-- A purged store serves what it served before. -/
theorem purged (hkeyed : s.Keyed) (now : Calendar.Moment) : s.Alike (s.purge now) now :=
  ⟨rfl, rfl, rfl, ⟨hkeyed, hkeyed.purge now⟩, fun hash _ honward => (fresh?_purge hkeyed honward hash).symm⟩

theorem later (halike : s.Alike t now) {m : Calendar.Moment} (honward : now.micros ≤ m.micros) : s.Alike t m :=
  { halike with fresh := fun hash later hafter => halike.fresh hash later (honward.trans hafter) }

theorem purge (halike : s.Alike t now) : (s.purge now).Alike (t.purge now) now where
  jobs := halike.jobs
  inserted := halike.inserted
  dispatched := halike.dispatched
  keyed := ⟨halike.keyed.1.purge now, halike.keyed.2.purge now⟩
  fresh hash later honward := by
    rw [fresh?_purge halike.keyed.1 honward, fresh?_purge halike.keyed.2 honward]
    exact halike.fresh hash later honward

theorem put (halike : s.Alike t now) (e : CacheEntry) : (s.put e).Alike (t.put e) now where
  jobs := halike.jobs
  inserted := halike.inserted
  dispatched := halike.dispatched
  keyed := ⟨halike.keyed.1.put e, halike.keyed.2.put e⟩
  fresh hash later honward := by
    rw [fresh?_put, fresh?_put, halike.fresh hash later honward]

theorem changeJob (halike : s.Alike t now) (id : String) (f : Job → Job) :
    (s.changeJob id f).Alike (t.changeJob id f) now :=
  { halike with jobs := congrArg (List.map _) halike.jobs }

theorem addJob (halike : s.Alike t now) (j : Job) : (s.addJob j).Alike (t.addJob j) now :=
  { halike with
    jobs := congrArg (· ++ [j]) halike.jobs
    inserted := congrArg (· + 1) halike.inserted }

theorem dispatch (halike : s.Alike t now) (id : String) : (s.dispatch id).Alike (t.dispatch id) now :=
  { halike with dispatched := congrArg (· ++ [id]) halike.dispatched }

theorem job?_eq (halike : s.Alike t now) (id : String) : s.job? id = t.job? id := by
  rw [job?, halike.jobs, job?]

theorem activeJob?_eq (halike : s.Alike t now) (hash : String) : s.activeJob? hash = t.activeJob? hash := by
  rw [activeJob?, halike.jobs, activeJob?]

theorem newJob_eq (halike : s.Alike t now) (m : Calendar.Moment) (c : Config) :
    Backend.newJob s m c = Backend.newJob t m c := by
  rw [Backend.newJob, nextId, halike.inserted, Backend.newJob, nextId]

end Alike

/-- The results are the same, and the stores that they come with serve alike. -/
def Agree {α : Type} (r r' : α × Store) (now : Calendar.Moment) : Prop := r.1 = r'.1 ∧ r.2.Alike r'.2 now

end Store

/-! ## Operations on stores that serve alike -/

namespace Backend

open Store

variable {b : Backend} {s t : Store} {now : Calendar.Moment}

/-- What is performed does not depend on the store. -/
theorem perform_uniform (b : Backend) (now : Calendar.Moment) (c : Config) (hash : String)
    (jobId : Option String) :
    (∃ f, ∀ s, b.perform s now c hash jobId = .error f) ∨
      ∃ e, ∀ s, b.perform s now c hash jobId = .ok (e.result, s.put e) := by
  unfold perform
  cases b.target.execute b.content c with
  | error f => exact .inl ⟨_, fun _ => rfl⟩
  | ok table =>
    cases momentAfter now (b.ttl c) with
    | error f => exact .inl ⟨_, fun _ => rfl⟩
    | ok expiresAt =>
      simp only [Except.mapError, AdhocReport.Outcome.bind_ok]
      cases table.keptRows with
      | error f => exact .inl ⟨_, fun _ => rfl⟩
      | ok rows => exact .inr ⟨⟨_, _, _, _, expiresAt⟩, fun _ => rfl⟩

theorem performJob_uniform (b : Backend) (now : Calendar.Moment) (j : Job) :
    (∃ f, ∀ s, b.performJob s now j = .error f) ∨ ∃ e, ∀ s, b.performJob s now j = .ok (e.result, s.put e) := by
  unfold performJob
  cases (Config.reader j.payload).orFail "QueryConfig" with
  | error f => exact .inl ⟨_, fun _ => rfl⟩
  | ok c => exact b.perform_uniform now c j.hash (some j.id)

theorem runJob_agree (halike : s.Alike t now) (id : String) :
    Agree (b.runJob s now id) (b.runJob t now id) now := by
  unfold runJob
  rw [halike.job?_eq]
  cases t.job? id with
  | none => exact ⟨rfl, halike⟩
  | some j =>
    dsimp only
    split
    · exact ⟨rfl, halike⟩
    · have hstarted := halike.changeJob id fun k => k.start now
      obtain ⟨f, hfails⟩ | ⟨e, hstores⟩ := b.performJob_uniform now j
      · rw [hfails, hfails]
        cases f with
        | failed f => exact ⟨rfl, hstarted.changeJob id _⟩
        | unwritten f => exact ⟨rfl, hstarted⟩
      · rw [hstores, hstores]
        exact ⟨rfl, (hstarted.put e).changeJob id _⟩

theorem queue_agree (halike : s.Alike t now) (d : Dispatch) (c : Config) :
    Agree (b.queue d s now c) (b.queue d t now c) now := by
  unfold queue
  rw [halike.newJob_eq]
  have hadded := halike.addJob (newJob t now c)
  cases d with
  | record => exact ⟨rfl, hadded.dispatch _⟩
  | fail reason => exact ⟨rfl, (hadded.dispatch _).changeJob _ _⟩
  | inline worker =>
    have hran := @runJob_agree { b with settings := worker } _ _ now hadded (newJob t now c).id
    dsimp only
    generalize Backend.runJob _ (s.addJob _) _ _ = r at hran
    generalize Backend.runJob _ (t.addJob _) _ _ = r' at hran
    obtain ⟨answered, left⟩ := r
    obtain ⟨_, right⟩ := r'
    obtain ⟨rfl, hstores⟩ : answered = _ ∧ left.Alike right now := hran
    cases answered with
    | ok status => exact ⟨rfl, hstores⟩
    | error f => exact ⟨rfl, hstores.changeJob _ _⟩

theorem answer_agree (halike : s.Alike t now) (d : Dispatch) (c : Config) :
    Agree (b.answer d s now c) (b.answer d t now c) now := by
  unfold answer
  rw [halike.fresh c.hash now le_rfl, halike.activeJob?_eq]
  cases t.fresh? c.hash now with
  | some e => exact ⟨rfl, halike⟩
  | none =>
    dsimp only
    split
    · cases t.activeJob? c.hash with
      | some j => exact ⟨rfl, halike⟩
      | none =>
        obtain ⟨hdescriptors, hstores⟩ := @queue_agree b s t now halike d c
        exact ⟨congrArg (fun j => Except.ok (Response.job j)) hdescriptors, hstores⟩
    · obtain ⟨f, hfails⟩ | ⟨e, hstores⟩ := b.perform_uniform now c c.hash none
      · rw [hfails, hfails]
        exact ⟨rfl, halike⟩
      · rw [hstores, hstores]
        exact ⟨rfl, halike.put e⟩

theorem runQuery_agree (halike : s.Alike t now) (d : Dispatch) (c : Config) :
    Agree (b.runQuery d s now c) (b.runQuery d t now c) now := by
  unfold runQuery
  split
  · exact ⟨rfl, halike⟩
  · exact answer_agree halike d (b.capped c)

end Backend

/-! ## Runs with and without a purge -/

/-- The answer is that of a query, of a run of a job, or of a look at a job. -/
def Answered.isReply : Answered → Bool
  | .response _ => true
  | .status _ => true
  | .purged _ => false
  | .nothing => false

namespace World

/-- The answers to several operations. -/
def answers (w : World) : List (Backend × Operation) → List Answered
  | [] => []
  | request :: rest => (w.answer request.1 request.2).1 :: (w.step request).answers rest

/-- The answers to several operations, except those to purges and to the passing of time. -/
def replies (w : World) (requests : List (Backend × Operation)) : List Answered :=
  (w.answers requests).filter Answered.isReply

/-- The clock does not go back during several operations. -/
def Onward (w : World) : List (Backend × Operation) → Prop
  | [] => True
  | request :: rest => w.now.micros ≤ (w.step request).now.micros ∧ (w.step request).Onward rest

/-- Only the passing of time moves the clock. -/
theorem onward_of_timeless (w : World) {requests : List (Backend × Operation)}
    (htimeless : ∀ request ∈ requests, ∀ clock, request.2 ≠ .advance clock) : w.Onward requests := by
  induction requests generalizing w with
  | nil => trivial
  | cons request rest ih =>
    obtain ⟨hfirst, hothers⟩ := List.forall_mem_cons.mp htimeless
    refine ⟨?_, ih _ hothers⟩
    obtain ⟨b, operation⟩ := request
    cases operation with
    | advance clock => exact absurd rfl (hfirst clock)
    | _ => exact le_rfl

theorem replies_cons (w : World) (request : Backend × Operation) (rest : List (Backend × Operation)) :
    w.replies (request :: rest) =
      [(w.answer request.1 request.2).1].filter Answered.isReply ++ (w.step request).replies rest := by
  rw [replies, answers, ← List.singleton_append, List.filter_append, replies]

theorem replies_append (w : World) (before after : List (Backend × Operation)) :
    w.replies (before ++ after) = w.replies before ++ (w.run before).replies after := by
  induction before generalizing w with
  | nil => rfl
  | cons request rest ih =>
    rw [List.cons_append, replies_cons, replies_cons, ih, List.append_assoc]
    rfl

theorem Onward.of_append {w : World} {before after : List (Backend × Operation)}
    (honward : w.Onward (before ++ after)) : (w.run before).Onward after := by
  induction before generalizing w with
  | nil => exact honward
  | cons request rest ih => exact ih honward.2

/-- The worlds show the same time, and their stores serve alike from then on. -/
structure Alike (w w' : World) : Prop where
  clock : w.clock = w'.clock
  store : w.store.Alike w'.store w.now

/-- An operation gives the same reply in worlds that are alike and leaves them alike. -/
theorem Alike.step {w w' : World} (halike : w.Alike w') (request : Backend × Operation)
    (honward : w.now.micros ≤ (w.step request).now.micros) :
    [(w.answer request.1 request.2).1].filter Answered.isReply =
        [(w'.answer request.1 request.2).1].filter Answered.isReply ∧
      (w.step request).Alike (w'.step request) := by
  obtain ⟨b, operation⟩ := request
  obtain ⟨s, clock⟩ := w
  obtain ⟨t, _⟩ := w'
  obtain ⟨rfl, hserved⟩ := halike
  cases operation with
  | runQuery d c =>
    obtain ⟨hanswers, hstores⟩ := @Backend.runQuery_agree b s t clock.val hserved d c.val
    exact ⟨congrArg (fun r => [Answered.response r].filter Answered.isReply) hanswers, rfl, hstores⟩
  | runJob id =>
    obtain ⟨hanswers, hstores⟩ := @Backend.runJob_agree b s t clock.val hserved id
    exact ⟨congrArg (fun r => [Answered.status r].filter Answered.isReply) hanswers, rfl, hstores⟩
  | getJob id =>
    have hsame : s.getJob id = t.getJob id := by
      unfold Store.getJob
      rw [hserved.job?_eq]
    exact ⟨congrArg (fun r => [Answered.response r].filter Answered.isReply) hsame, rfl, hserved⟩
  | purge => exact ⟨rfl, rfl, hserved.purge⟩
  | advance clock' => exact ⟨rfl, rfl, hserved.later honward⟩

theorem Alike.replies_eq {w w' : World} (halike : w.Alike w') {requests : List (Backend × Operation)}
    (honward : w.Onward requests) : w.replies requests = w'.replies requests := by
  induction requests generalizing w w' with
  | nil => rfl
  | cons request rest ih =>
    obtain ⟨hsame, hnext⟩ := halike.step request honward.1
    rw [replies_cons, replies_cons, hsame, ih hnext honward.2]

theorem step_keyed {w : World} (hkeyed : w.store.Keyed) (request : Backend × Operation) :
    (w.step request).store.Keyed := by
  obtain ⟨b, operation⟩ := request
  have halike := Store.Alike.refl hkeyed w.now
  cases operation with
  | runQuery d c => exact (Backend.runQuery_agree halike d c.val).2.keyed.1
  | runJob id => exact (Backend.runJob_agree halike id).2.keyed.1
  | getJob id => exact hkeyed
  | purge => exact hkeyed.purge w.now
  | advance clock => exact hkeyed

theorem run_keyed {w : World} (hkeyed : w.store.Keyed) (requests : List (Backend × Operation)) :
    (w.run requests).store.Keyed :=
  run_invariant (P := fun w => w.store.Keyed) hkeyed requests fun request _ hkeyed => step_keyed hkeyed request

/-- In every world whose entries have hashes of their own, which every operation keeps: a purge leaves the
entries that are served at this moment, and removes those that are not, among them one that expires at this
very moment.  A result that is stored is then the entry of its hash, purged before or not, and all later
look-ups come to the same.  And wherever a purge is put into a run during which the clock does not go back,
it changes no reply. -/
theorem purge_invisible {w : World} (hkeyed : w.store.Keyed) :
    (∀ request, (w.step request).store.Keyed) ∧
    (∀ e, e ∈ (w.store.purge w.now).entries ↔
      e ∈ w.store.entries ∧ w.store.fresh? e.hash w.now = some e) ∧
    (∀ e ∈ w.store.entries, e ∉ (w.store.purge w.now).entries ↔ w.store.fresh? e.hash w.now = none) ∧
    (∀ e, e.expiresAt.micros = w.now.micros → e ∉ (w.store.purge w.now).entries) ∧
    (∀ e, Store.entry? (w.store.put e) e.hash = some e ∧
      Store.entry? ((w.store.purge w.now).put e) e.hash = some e ∧
      ∀ hash later, w.now.micros ≤ later.micros →
        (w.store.put e).fresh? hash later = ((w.store.purge w.now).put e).fresh? hash later) ∧
    ∀ b before after, w.Onward (before ++ after) →
      w.replies (before ++ (b, .purge) :: after) = w.replies (before ++ after) := by
  have hfound : ∀ e ∈ w.store.entries, w.store.entry? e.hash = some e :=
    fun e hmember => (Store.entry?_eq_some_iff hkeyed).mpr ⟨hmember, rfl⟩
  have hserved : ∀ e ∈ w.store.entries, w.store.fresh? e.hash w.now = if e.isFresh w.now then some e else none := by
    intro e hmember
    rw [Store.fresh?, hfound e hmember, Option.filter_some]
  refine ⟨step_keyed hkeyed, ?_, ?_, ?_, ?_, ?_⟩
  · intro e
    rw [Store.mem_purge]
    refine and_congr_right fun hmember => ?_
    rw [hserved e hmember]
    split <;> simp [*]
  · intro e hmember
    rw [Store.mem_purge, hserved e hmember]
    split <;> simp [*]
  · intro e hexpires hmember
    have hfresh := (Store.mem_purge.mp hmember).2
    simp [CacheEntry.isFresh, hexpires] at hfresh
  · intro e
    refine ⟨?_, ?_, ?_⟩
    · rw [Store.entry?_put, if_pos rfl]
    · rw [Store.entry?_put, if_pos rfl]
    · exact ((Store.Alike.purged hkeyed w.now).put e).fresh
  · intro b before after honward
    have halike : (w.run before).Alike ((w.run before).step (b, .purge)) :=
      ⟨rfl, Store.Alike.purged (run_keyed hkeyed before) _⟩
    rw [replies_append, replies_append, replies_cons, ← halike.replies_eq honward.of_append]
    rfl

/-- A result expires at the moment of a purge.  The purge removes it, and the query of its hash and a look at
the job that the query starts are answered as without the purge. -/
theorem purge_invisible_at_expiry :
    let b : Backend := ⟨.standard, ⟨[]⟩, [], fun _ => []⟩
    let clock : Clock := ⟨⟨⟨2024, 6, 1⟩, 12, 0, 0, 0, none⟩, by constructor <;> decide⟩
    let c : Config := ⟨["order"], [], [], [⟨⟨"order", "id"⟩, .count, "orders"⟩], [], [], [], 100,
      ⟨true, true, none, none⟩⟩
    let e : CacheEntry := ⟨(b.capped c).hash, .null, none, clock.val, clock.val⟩
    let w : World := ⟨⟨[], [e], 0, []⟩, clock⟩
    ∃ h : c.WellFormed, e ∉ (w.store.purge w.now).entries ∧
      w.replies [(b, .purge), (b, .runQuery .record ⟨c, h⟩), (b, .getJob "job-001")] =
        w.replies [(b, .runQuery .record ⟨c, h⟩), (b, .getJob "job-001")] := by
  intro b clock c e w
  have hwellFormed : c.WellFormed := by
    constructor <;>
      simp [c, Config.objection, Config.hasRepeats, Config.outputAliases, Collection.distinct]
  obtain ⟨-, -, -, hatExpiry, -, hinvisible⟩ := @purge_invisible w (List.nodup_singleton _)
  have honward : w.Onward [(b, .runQuery .record ⟨c, hwellFormed⟩), (b, .getJob "job-001")] :=
    onward_of_timeless w (by simp)
  exact ⟨hwellFormed, hatExpiry e rfl, hinvisible b [] _ honward⟩

end World

end AdhocReport.Service
