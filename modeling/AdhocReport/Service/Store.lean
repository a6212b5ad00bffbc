import AdhocReport.Query.Response
import AdhocReport.Query.Config
set_option autoImplicit false

/-!
# The service: the store

The store keeps background jobs and cached results.  A job is queued, then running, then completed or
failed; its hash and its payload never change.  A cached result is known by the hash of its
configuration and is fresh until the moment at which it expires.
-/

namespace AdhocReport.Service

open AdhocReport.Query

/-- A background job.  The payload is the record of the configuration to run. -/
structure Job where
  id : String
  hash : String
  payload : Json
  status : JobStatus
  templateId : Option String
  result : Option Json
  error : Option String
  queuedAt : Calendar.Moment
  startedAt : Option Calendar.Moment
  finishedAt : Option Calendar.Moment

namespace Job

/-- The job waits or runs. -/
def isActive (j : Job) : Bool := !j.status.isTerminal

/-- The job as a client sees it. -/
def descriptor (j : Job) : JobDescriptor := ⟨j.id, some j.hash, j.status, j.error⟩

/-- The job when a worker has taken it. -/
def start (j : Job) (now : Calendar.Moment) : Job :=
  { j with status := .running, startedAt := some now, error := none }

/-- The job with its result. -/
def complete (j : Job) (now : Calendar.Moment) (result : Json) : Job :=
  { j with status := .completed, result := some result, finishedAt := some now }

/-- The job with the reason for which it failed. -/
def fail (j : Job) (now : Calendar.Moment) (error : String) : Job :=
  { j with status := .failed, error := some error, finishedAt := some now }

/-- The job that was queued last; of two queued at once, the earlier in the list. -/
def newest? : List Job → Option Job
  | [] => none
  | j :: rest =>
    match newest? rest with
    | some k => if j.queuedAt.micros < k.queuedAt.micros then some k else some j
    | none => some j

end Job

/-- A cached result. -/
structure CacheEntry where
  hash : String
  result : Json
  templateId : Option String
  cachedAt : Calendar.Moment
  expiresAt : Calendar.Moment

/-- The entry may be served. -/
def CacheEntry.isFresh (e : CacheEntry) (now : Calendar.Moment) : Bool :=
  now.micros < e.expiresAt.micros

/-- The jobs in the order in which they were added, the cached results, and the ids of the jobs that
were handed to the queue. -/
structure Store where
  jobs : List Job
  entries : List CacheEntry
  /-- The number of jobs ever added. -/
  inserted : Nat
  dispatched : List String

namespace Store

/-- The store without jobs and results. -/
def empty : Store := ⟨[], [], 0, []⟩

/-- The job with an id. -/
def job? (s : Store) (id : String) : Option Job := s.jobs.find? fun j => j.id == id

/-- The id of the next job. -/
def nextId (s : Store) : String := "job-" ++ Decimal.padded 3 (s.inserted + 1)

/-- Add a job at the end. -/
def addJob (s : Store) (j : Job) : Store := { s with jobs := s.jobs ++ [j], inserted := s.inserted + 1 }

/-- Change the job with an id. -/
def changeJob (s : Store) (id : String) (change : Job → Job) : Store :=
  { s with jobs := s.jobs.map fun k => if k.id = id then change k else k }

/-- Remove a job, and tell whether it was there. -/
def deleteJob (s : Store) (id : String) : Bool × Store :=
  ((s.job? id).isSome, { s with jobs := s.jobs.filter fun j => j.id != id })

/-- The newest job that waits or runs for a hash. -/
def activeJob? (s : Store) (hash : String) : Option Job :=
  Job.newest? (s.jobs.filter fun j => j.hash == hash && j.isActive)

/-- The cached result of a hash. -/
def entry? (s : Store) (hash : String) : Option CacheEntry := s.entries.find? fun e => e.hash == hash

/-- The cached result of a hash, if it may be served. -/
def fresh? (s : Store) (hash : String) (now : Calendar.Moment) : Option CacheEntry :=
  (s.entry? hash).filter fun e => e.isFresh now

/-- Put an entry among others: in the place of the one with its hash, else at the end. -/
def putEntry (e : CacheEntry) : List CacheEntry → List CacheEntry
  | [] => [e]
  | d :: rest => if d.hash = e.hash then e :: rest else d :: putEntry e rest

theorem mem_putEntry {e d : CacheEntry} {es : List CacheEntry} (h : d ∈ putEntry e es) : d = e ∨ d ∈ es := by
  induction es with
  | nil => exact .inl (List.mem_singleton.mp h)
  | cons first rest ih =>
    unfold putEntry at h
    split at h
    · rcases List.mem_cons.mp h with hsame | hmember
      · exact .inl hsame
      · exact .inr (List.mem_cons_of_mem first hmember)
    · rcases List.mem_cons.mp h with rfl | hmember
      · exact .inr List.mem_cons_self
      · exact (ih hmember).imp id (List.mem_cons_of_mem first)

/-- Store a result. -/
def put (s : Store) (e : CacheEntry) : Store := { s with entries := putEntry e s.entries }

/-- Remove the results that may not be served any more. -/
def purge (s : Store) (now : Calendar.Moment) : Store :=
  { s with entries := s.entries.filter fun e => e.isFresh now }

/-- The number of results that a purge removes. -/
def expired (s : Store) (now : Calendar.Moment) : Nat := s.entries.countP fun e => !e.isFresh now

/-- Note that a job was handed to the queue. -/
def dispatch (s : Store) (id : String) : Store := { s with dispatched := s.dispatched ++ [id] }

end Store

end AdhocReport.Service
