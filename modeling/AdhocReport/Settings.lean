import AdhocReport.Failure
import AdhocReport.Decimal.Numeral
import AdhocReport.Text.LetterCase
set_option autoImplicit false

/-!
# Settings

The settings of the service, read from the environment.  A number that is missing or blank takes
its default; any other text has to be a number.
-/

namespace AdhocReport

/-- The settings of the service. -/
structure Settings where
  databaseUrl : String
  warehouseUrl : String
  cacheTtlSeconds : Int
  maxRowLimit : Int
  analyticsDefaultLimit : Int
  previewDefaultLimit : Int
  asyncModelThreshold : Int
  pollIntervalSeconds : Float
  pollBackoff : Float
  pollMaxIntervalSeconds : Float
  pollMaxAttempts : Int
  apiUrl : String
  applicationId : String

namespace Settings

/-- The settings when nothing is configured. -/
def standard : Settings :=
  ⟨"sqlite:///./report_compiler_config.db", "sqlite:///./report_compiler_warehouse.db", 300, 5000, 100,
   500, 3, 1.5, 1.5, 10.0, 60, "http://localhost:8000", "Unknown"⟩

/-- The variables of an environment. -/
abbrev Environment : Type := List (String × String)

/-- A text variable. -/
def textOf (env : Environment) (name default : String) : String := (env.lookup name).getD default

/-- An integer variable. -/
def intOf (env : Environment) (name : String) (default : Int) : Except Failure Int :=
  match env.lookup name with
  | none => .ok default
  | some raw =>
    if Text.isBlankText raw then .ok default
    else match Decimal.readInt? raw with
      | some n => .ok n
      | none => .error (.badNumber "int" raw)

/-- A number variable. -/
def floatOf (env : Environment) (name : String) (default : Float) : Except Failure Float :=
  match env.lookup name with
  | none => .ok default
  | some raw =>
    if Text.isBlankText raw then .ok default
    else match Decimal.readFloat? raw with
      | some x => .ok x
      | none => .error (.badNumber "float" raw)

/-- A truth variable: one of four words, in any case and with blanks around it, says yes. -/
def truthOf (env : Environment) (name : String) (default : Bool) : Bool :=
  match env.lookup name with
  | none => default
  | some raw => ["1", "true", "yes", "on"].contains (Text.lower (Text.trim raw))

/-- The settings that an environment gives. -/
def ofEnvironment (env : Environment) : Except Failure Settings := do
  let s := standard
  let cacheTtl ← intOf env "REPORT_CACHE_TTL_SECONDS" s.cacheTtlSeconds
  let maxRows ← intOf env "REPORT_MAX_ROW_LIMIT" s.maxRowLimit
  let analytics ← intOf env "REPORT_ANALYTICS_DEFAULT_LIMIT" s.analyticsDefaultLimit
  let preview ← intOf env "REPORT_PREVIEW_DEFAULT_LIMIT" s.previewDefaultLimit
  let threshold ← intOf env "REPORT_ASYNC_MODEL_THRESHOLD" s.asyncModelThreshold
  let interval ← floatOf env "REPORT_POLL_INTERVAL_SECONDS" s.pollIntervalSeconds
  let backoff ← floatOf env "REPORT_POLL_BACKOFF" s.pollBackoff
  let longest ← floatOf env "REPORT_POLL_MAX_INTERVAL_SECONDS" s.pollMaxIntervalSeconds
  let attempts ← intOf env "REPORT_POLL_MAX_ATTEMPTS" s.pollMaxAttempts
  .ok ⟨textOf env "DATABASE_URL" s.databaseUrl, textOf env "DATA_WAREHOUSE_URL" s.warehouseUrl, cacheTtl,
    maxRows, analytics, preview, threshold, interval, backoff, longest, attempts,
    textOf env "REPORT_API_URL" s.apiUrl, textOf env "APPLICATION_ID" s.applicationId⟩

/-- Background jobs run at once, in the place where they are queued. -/
def runsJobsInline (env : Environment) : Bool := truthOf env "CELERY_TASK_ALWAYS_EAGER" false

/-- Settings as JSON. -/
def toJson (s : Settings) : Json :=
  .obj [("database_url", .str s.databaseUrl), ("data_warehouse_url", .str s.warehouseUrl),
    ("cache_ttl_seconds", .int s.cacheTtlSeconds), ("max_row_limit", .int s.maxRowLimit),
    ("analytics_default_limit", .int s.analyticsDefaultLimit),
    ("preview_default_limit", .int s.previewDefaultLimit),
    ("async_model_threshold", .int s.asyncModelThreshold),
    ("poll_interval_seconds", .float s.pollIntervalSeconds), ("poll_backoff", .float s.pollBackoff),
    ("poll_max_interval_seconds", .float s.pollMaxIntervalSeconds),
    ("poll_max_attempts", .int s.pollMaxAttempts), ("api_url", .str s.apiUrl),
    ("application_id", .str s.applicationId)]

end Settings

end AdhocReport
