import AdhocReport.Client.Local
import AdhocReport.Json.Reader
import AdhocReport.Json.Writer
import AdhocReport.Query.Selection
set_option autoImplicit false

/-!
# The client: a service over HTTP

The requests of a client and what their answers mean.  An answer with an error status is a transport
error with its detail; any other answer has to be JSON of the expected form.
-/

namespace AdhocReport.Client

open AdhocReport.Query

/-- A request to the service. -/
structure HttpCall where
  method : String
  /-- The path under the root of the report service. -/
  path : String
  payload : Json

/-- What comes back: a status with a text, or nothing because the service could not be reached. -/
inductive HttpAnswer where
  | answered (status : Int) (body : String)
  | unreachable (message : String)

namespace HttpCall

/-- The request to run a preview. -/
def preview (r : PreviewRequest) : HttpCall := ⟨"POST", "/preview", r.toJson⟩

/-- The request to run a query. -/
def query (c : Config) : HttpCall := ⟨"POST", "/query", c.toJson⟩

/-- The request for a job. -/
def job (id : String) : HttpCall := ⟨"GET", "/query/jobs/" ++ id, .null⟩

/-- The address of a request; slashes at the end of the base do not count. -/
def url (c : HttpCall) (base : String) : String :=
  String.ofList ((base.toList.reverse.dropWhile (· == '/')).reverse) ++ "/api/reports" ++ c.path

/-- The detail of an answer with an error status: its `detail` member, else its whole text.  A JSON
value without members has none. -/
def errorDetail (body : String) : Except Failure Json :=
  match Json.read? body with
  | none => .ok (.str body)
  | some (.obj ms) => .ok ((Json.lookup ms "detail").getD (.str body))
  | some _ => .error .noMembers

/-- The JSON value that an answer carries. -/
def value (c : HttpCall) (a : HttpAnswer) : Except Failure Json :=
  let transport := fun (message : String) (status : Option Int) =>
    Failure.report (.transport message status)
  match a with
  | .unreachable message => .error (transport message none)
  | .answered status body =>
    if 400 ≤ status then do
      let detail ← errorDetail body
      .error (transport (c.method ++ " " ++ c.path ++ " failed: " ++ detailText detail) (some status))
    else match Json.read? body with
      | some j => .ok j
      | none => .error (transport (c.method ++ " " ++ c.path ++ " returned invalid JSON") none)

/-- The answer to the request for a preview. -/
def previewResult (c : HttpCall) (a : HttpAnswer) : Except Failure PreviewResult := do
  let j ← c.value a
  (wellFormed "preview" "PreviewResult" (PreviewResult.reader j)).mapError .report

/-- The answer to the request for a query or a job. -/
def response (c : HttpCall) (a : HttpAnswer) : Except Failure Response := do
  let j ← c.value a
  (Response.ofJson j).mapError .report

end HttpCall

end AdhocReport.Client
