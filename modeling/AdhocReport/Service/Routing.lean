import AdhocReport.Service.System
set_option autoImplicit false

/-!
# The service: routing and the request log

A request finds its endpoint by path and method.  A path that is known only without its final slashes
is redirected, a known path with an unknown method is refused, and any other path is not found.  The
log notes every request outside the excluded paths, and, before it, the failure that answered it.
-/

namespace AdhocReport.Service

/-- A step of a path: a fixed word, or a parameter, which is not empty. -/
inductive Segment where
  | word (s : String)
  | parameter
  deriving DecidableEq, Repr

/-- A way to an endpoint. -/
structure Route where
  methods : List String
  path : List Segment
  /-- The endpoint for the parameter, which is empty when the path has none. -/
  endpoint : String → Endpoint

/-- The steps of a path. -/
def pathSteps (path : String) : List String := (path.splitOn "/").drop 1

/-- The parameter that makes a pattern a path; empty when the pattern has none. -/
def matchSteps : List Segment → List String → Option String
  | [], [] => some ""
  | .word w :: segments, s :: steps => if w == s then matchSteps segments steps else none
  | .parameter :: segments, s :: steps => if s == "" then none else (matchSteps segments steps).map fun _ => s
  | _, _ => none

/-- The pattern of fixed words below the root of the report service. -/
def below (words : List String) : List Segment := (["api", "reports"] ++ words).map .word

/-- A page that documents the service. -/
def documentRoute (words : List String) : Route := ⟨["GET", "HEAD"], ("api" :: words).map .word, fun _ => .document⟩

/-- The routes, in the order in which they are tried. -/
def routes : List Route :=
  [documentRoute ["openapi.json"], documentRoute ["docs"], documentRoute ["docs", "oauth2-redirect"],
   documentRoute ["redoc"],
   ⟨["GET"], [.word "api", .word "health"], fun _ => .health⟩,
   ⟨["GET"], below ["models"], fun _ => .models⟩,
   ⟨["POST"], below ["preview"], fun _ => .preview⟩,
   ⟨["POST"], below ["query"], fun _ => .query⟩,
   ⟨["GET"], below ["query", "jobs"] ++ [.parameter], .job⟩,
   ⟨["GET"], below ["derived-fields"], fun _ => .listFields⟩,
   ⟨["POST"], below ["derived-fields"], fun _ => .createField⟩,
   ⟨["POST"], below ["derived-fields", "reconcile"], fun _ => .recheckFields⟩,
   ⟨["GET"], below ["derived-fields"] ++ [.parameter], .getField⟩,
   ⟨["PUT"], below ["derived-fields"] ++ [.parameter], .updateField⟩,
   ⟨["DELETE"], below ["derived-fields"] ++ [.parameter], .deleteField⟩,
   ⟨["POST"], below ["joins", "analyze"], fun _ => .analyzeJoins⟩,
   ⟨["POST"], below ["filters", "compile"], fun _ => .compileFilters⟩,
   ⟨["POST"], below ["config", "build"], fun _ => .buildConfig⟩]

/-- Where a request goes. -/
inductive Target where
  | endpoint (e : Endpoint)
  | wrongMethod
  | redirect
  | unknown

/-- Some route has the path. -/
def isKnownPath (path : String) : Bool := routes.any fun r => (matchSteps r.path (pathSteps path)).isSome

/-- A path without slashes at its end. -/
def withoutFinalSlashes (path : String) : String :=
  String.ofList ((path.toList.reverse.dropWhile (· == '/')).reverse)

/-- The path that is tried when a path is not known: without its final slashes, or with one. -/
def otherPath (path : String) : String := if path.endsWith "/" then withoutFinalSlashes path else path ++ "/"

/-- The endpoint of a request, or why there is none. -/
def findTarget (method path : String) : Target :=
  let found := routes.findSome? fun r =>
    if r.methods.contains method then (matchSteps r.path (pathSteps path)).map r.endpoint else none
  match found with
  | some e => .endpoint e
  | none =>
    if isKnownPath path then .wrongMethod
    else if path != "/" && isKnownPath (otherPath path) then .redirect
    else .unknown

/-- A line of the request log. -/
structure LogLine where
  method : String
  path : String
  status : Nat
  /-- The name of the failure that answered the request. -/
  failure : Option String
  deriving DecidableEq, Repr

/-- A request. -/
structure HttpRequest where
  method : String
  path : String
  /-- The template that is asked for. -/
  template : Option String
  body : String

/-- The beginnings of the paths that are not logged. -/
def excludedPaths : List String := ["/api/health", "/api/docs", "/api/openapi.json", "/api/redoc"]

/-- The path is not logged. -/
def isExcluded (path : String) : Bool := excludedPaths.any fun p => path.startsWith p

/-- A body that tells a detail. -/
def detailBody (detail : Json) : Json := .obj [("detail", detail)]

/-- The answer to a request that failed, and the name under which the failure is logged. -/
def Trouble.answer : Trouble → Answer × String
  | .badRequest issues => (⟨422, detailBody (.arr (issues.map Check.Issue.toJson))⟩, "RequestValidationError")
  | .failure (.report e) => (⟨e.status, detailBody e.detail⟩, e.name)
  | .failure (.http status detail) => (⟨status, detailBody detail⟩, (Failure.http status detail).name)
  | .failure f => (⟨500, detailBody (.str "Internal Server Error")⟩, f.name)

/-- Serve a request: the answer, the lines that the log gains, and the system afterwards. -/
def System.serve (s : System) (r : HttpRequest) : Answer × List LogLine × System :=
  let line := fun (status : Nat) (failure : Option String) => LogLine.mk r.method r.path status failure
  let noted := fun (status : Nat) => if isExcluded r.path then [] else [line status none]
  let plain := fun (status : Nat) (body : Json) =>
    ((⟨status, body⟩ : Answer), noted status, s)
  match findTarget r.method r.path with
  | .unknown => plain 404 (detailBody (.str "Not Found"))
  | .wrongMethod => plain 405 (detailBody (.str "Method Not Allowed"))
  | .redirect => plain 307 .null
  | .endpoint e =>
    match s.endpoint e r.template r.body with
    | (.ok a, t) => (⟨a.status, a.body.finite⟩, noted a.status, t)
    | (.error trouble, t) =>
      let (a, name) := trouble.answer
      let failed := line a.status (some name)
      (a, if a.status == 500 then [failed] else failed :: noted a.status, t)

end AdhocReport.Service
