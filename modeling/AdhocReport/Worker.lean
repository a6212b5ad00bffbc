import AdhocReport.Settings
set_option autoImplicit false

/-!
# The worker

Background jobs are executed by a worker process that takes them from one queue and purges expired
results from time to time.  This module holds how that process is configured and started.
-/

namespace AdhocReport.Worker

/-- The queue of report jobs. -/
def queue : String := "reports"

/-- The modules that hold the tasks. -/
def taskModules : List String := ["task_queue.tasks.reports"]

/-- Every report task goes to the report queue. -/
def routes : Json := .obj [("task_queue.tasks.reports.*", .obj [("queue", .str queue)])]

/-- The configuration of the worker; expired results are purged once per time to live. -/
def configuration (env : Settings.Environment) : Except Failure Json := do
  let settings ← Settings.ofEnvironment env
  let redis := "redis://localhost:6379/0"
  let purge : Json := .obj [("task", .str "task_queue.tasks.reports.purge_expired_cache"),
    ("schedule", .float (Decimal.ofInt settings.cacheTtlSeconds)), ("args", .arr [])]
  .ok (.obj [("broker_url", .str (Settings.textOf env "CELERY_BROKER_URL" redis)),
    ("result_backend", .str (Settings.textOf env "CELERY_RESULT_BACKEND" redis)),
    ("task_serializer", .str "json"), ("accept_content", Json.ofTexts ["json"]),
    ("result_serializer", .str "json"), ("timezone", .str "UTC"), ("enable_utc", .bool true),
    ("task_always_eager", .bool (Settings.runsJobsInline env)), ("task_eager_propagates", .bool true),
    ("worker_concurrency", .int 4), ("worker_max_tasks_per_child", .int 100), ("task_routes", routes),
    ("beat_schedule", .obj [("purge-expired-query-cache", purge)]),
    ("task_send_sent_event", .bool true), ("task_track_started", .bool true),
    ("worker_send_task_events", .bool true), ("task_time_limit", .int 900),
    ("task_soft_time_limit", .int 840), ("result_expires", .int 86400)])

/-- The name of the worker application. -/
def standardName : String := "report_compiler_tasks"

/-- How the worker process is started. -/
structure Launch where
  queue : String
  /-- The number of processes, when it is fixed. -/
  concurrency : Option String
  logLevel : String
  /-- Also run the periodic purge. -/
  purges : Bool
  deriving DecidableEq, Repr

/-- How the worker is started when nothing is asked for. -/
def Launch.standard : Launch := ⟨Worker.queue, none, "INFO", false⟩

/-- The arguments that start the worker. -/
def Launch.arguments (l : Launch) : List String :=
  ["worker", "--queues=" ++ l.queue, "--loglevel=" ++ l.logLevel, "--hostname=%h_%n"]
    ++ (match l.concurrency with
        | some n => ["--concurrency=" ++ n]
        | none => [])
    ++ (if l.purges then ["--beat"] else [])

end AdhocReport.Worker
