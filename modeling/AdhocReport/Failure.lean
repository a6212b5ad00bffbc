import AdhocReport.Query.Fault
import AdhocReport.Expression.Token
import AdhocReport.Check.Basic
set_option autoImplicit false

/-!
# Failures

A report error is something a caller can act on: it has a message, an HTTP status and a detail.
The other failures are payloads of the wrong shape, HTTP errors raised by a service, and conditions
that the statement layer or the stored data refuse.
-/

namespace AdhocReport

/-- An error that a single blocking problem of a report raises. -/
inductive ReportError where
  | syntaxError (e : SyntaxError)
  /-- Derived fields that refer to models missing from the query, by id. -/
  | staleFields (ids : List String)
  | badFilters (errors : List String)
  | query (fault : Query.Fault)
  | unknownJob (id : String)
  | jobFailed (message : String) (job : Option String)
  | jobTimeout (message : String) (job : Option String)
  | transport (message : String) (status : Option Int)
  /-- An error that another part of the system reports, known by its name and its message. -/
  | relayed (name message : String)
  deriving DecidableEq, Repr

namespace ReportError

/-- The error of some stale fields; ids are sorted and named once. -/
def stale (ids : List String) : ReportError := .staleFields (Collection.sortedSet ids)

/-- The wording of an error. -/
def message : ReportError → String
  | .syntaxError e => e.message
  | .staleFields ids => "Resolve stale derived fields before running the query: " ++ Json.joined ", " ids
  | .badFilters errors =>
    let text := Json.joined "; " errors
    if text == "" then "Filter compilation failed" else text
  | .query fault => fault.message
  | .unknownJob id => "Job " ++ id ++ " does not exist"
  | .jobFailed message _ => message
  | .jobTimeout message _ => message
  | .transport message _ => message
  | .relayed _ message => message

/-- The HTTP status of an error. -/
def status : ReportError → Nat
  | .staleFields _ => 409
  | .transport _ _ => 502
  | _ => 400

/-- The name under which an error is logged. -/
def name : ReportError → String
  | .syntaxError _ => "ExpressionSyntaxError"
  | .staleFields _ => "StaleDerivedFieldError"
  | .badFilters _ => "FilterCompilationError"
  | .query _ => "QueryCompilationError"
  | .jobFailed _ _ => "JobFailedError"
  | .jobTimeout _ _ => "JobTimeoutError"
  | .transport _ _ => "TransportError"
  | .unknownJob _ => "ReportQueryError"
  | .relayed name _ => name

/-- What a response tells about an error. -/
def detail (e : ReportError) : Json :=
  match e with
  | .syntaxError s => .obj [("message", .str s.fault.message), ("position", Json.ofNat s.position)]
  | .staleFields ids => .obj [("message", .str e.message), ("field_ids", Json.ofTexts ids)]
  | .badFilters errors =>
    .obj [("message", .str "One or more filters are invalid."), ("errors", Json.ofTexts errors)]
  | _ => .str e.message

end ReportError

/-- Anything that can go wrong. -/
inductive Failure where
  | report (e : ReportError)
  | invalid (i : Check.Invalid)
  | record (fault : RecordFault)
  /-- A value that is none of the codes of an enumeration. -/
  | badCode (value : Json) (enumeration : String)
  | badNumber (kind text : String)
  | http (status : Nat) (detail : Json)
  /-- A truth value in an ordering comparison. -/
  | orderedTruth
  /-- Two result columns have the same label. -/
  | ambiguousColumn (label : String)
  /-- A name that is not there: of a column in its table, or of a member in a stored record. -/
  | missingKey (name : String)
  /-- A value that was expected to have members. -/
  | noMembers
  /-- A stored column that needs a value was given none. -/
  | requiredValue
  /-- A date outside the years of the calendar. -/
  | dateOutOfRange
  /-- A span of so many days that it cannot be added to a date. -/
  | spanTooLong (days : Int)
  /-- A stored value that is none of its result column's type. -/
  | wrongKind (expected : String)
  /-- A stored text that is no date. -/
  | badDate (text : String)
  /-- An integer that the statement layer cannot hold. -/
  | integerTooLarge
  /-- A statement that the warehouse does not accept. -/
  | refused (reason : String)
  /-- A record that cannot be written because there is a span of time in it, which JSON has not. -/
  | spanInRecord
  /-- A write in a session in which one has failed before, for a cause, and was not taken back. -/
  | brokenSession (cause : String)

namespace Failure

/-- The wording of a failure. -/
def message : Failure → String
  | .report e => e.message
  | .invalid i => i.headline
  | .record fault => fault.message
  | .badCode value enumeration => value.shown ++ " is not a valid " ++ enumeration
  | .badNumber kind text =>
    if kind == "int" then "invalid literal for int() with base 10: " ++ Json.shownText text
    else "could not convert string to float: " ++ Json.shownText text
  | .http status detail => Decimal.natText status ++ ": " ++ detail.shown
  | .orderedTruth =>
    "Only '=', '!=', 'is_()', 'is_not()', 'is_distinct_from()', 'is_not_distinct_from()' " ++
      "operators can be used with None/True/False"
  | .ambiguousColumn label => "Ambiguous column name '" ++ label ++ "' in result set column descriptions"
  | .missingKey name => Json.shownText name
  | .noMembers => "the value has no members"
  | .requiredValue => "a required value is missing"
  | .dateOutOfRange => "date value out of range"
  | .spanTooLong days =>
    if -0x80000000 ≤ days ∧ days < 0x80000000 then
      "days=" ++ Decimal.intText days ++ "; must have magnitude <= 999999999"
    else "Python int too large to convert to C int"
  | .wrongKind expected => expected
  | .badDate text => "Invalid isoformat string: " ++ Json.shownText text
  | .integerTooLarge => "Python int too large to convert to SQLite INTEGER"
  | .refused reason => reason
  | .spanInRecord => "(builtins.TypeError) Object of type timedelta is not JSON serializable"
  | .brokenSession cause =>
    "This Session's transaction has been rolled back due to a previous exception during flush. " ++
      "To begin a new transaction with this Session, first issue Session.rollback(). " ++
      "Original exception was: " ++ cause

/-- The name under which a failure is logged. -/
def name : Failure → String
  | .report e => e.name
  | .invalid _ => "ValidationError"
  | .record (.compound _) => "TypeError"
  | .record .tooLarge => "OverflowError"
  | .record _ => "ValueError"
  | .badCode _ _ => "ValueError"
  | .badNumber _ _ => "ValueError"
  | .badDate _ => "ValueError"
  | .http _ _ => "HTTPException"
  | .orderedTruth => "ArgumentError"
  | .ambiguousColumn _ => "InvalidRequestError"
  | .missingKey _ => "KeyError"
  | .noMembers => "AttributeError"
  | .requiredValue => "IntegrityError"
  | .dateOutOfRange => "OverflowError"
  | .spanTooLong _ => "OverflowError"
  | .integerTooLarge => "OverflowError"
  | .wrongKind _ => "TypeError"
  | .refused _ => "OperationalError"
  | .spanInRecord => "StatementError"
  | .brokenSession _ => "PendingRollbackError"

/-- The failure says that a query, its stored form or the data it meets are not as they should be; any
other failure is unexpected. -/
def isExpected : Failure → Bool
  | .report _ => true
  | .invalid _ => true
  | .record fault => fault.isMalformed
  | .badCode _ _ => true
  | .badNumber _ _ => true
  | .orderedTruth => true
  | .ambiguousColumn _ => true
  | .requiredValue => true
  | .badDate _ => true
  | .refused _ => true
  | .spanInRecord => true
  | .brokenSession _ => true
  | _ => false

end Failure

namespace Check.Checked

/-- The value, or the failure under a title. -/
def orFail {α : Type} (title : String) : Check.Checked α → Except Failure α
  | .valid a => .ok a
  | .invalid is => .error (.invalid ⟨title, is⟩)
  | .stopped e => .error (.record e)

end Check.Checked

end AdhocReport
