import AccessTree.Json.Nesting
import AccessTree.Redaction
import AccessTree.Service.Endpoint
import AccessTree.Service.Target

/-! # Exchanges

A client sends a request and gets a response. `Exchange.answer` finds the endpoint, reads the body
as JSON if it is declared as that, and turns what the endpoint answers into a response. A path with
slashes at its end leads to the path without them. A browser first asks whether a page of another
origin may send a request; that question is answered before anything is counted. A breakdown is
answered by a response that tells nothing, and a response that JSON cannot write is a breakdown,
too.

The ids of new blocks end in suffixes, which may be any (`Exchange.answerWith`); `Exchange.answer`
counts them. -/

namespace AccessTree

/-- **A request.** -/
structure Request where
  method : String
  target : Target
  /-- The headers by their names in lower case, as they are sent. -/
  headers : List (String × String)
  body : String

/-- The content of a response. -/
inductive Content where
  | json (v : Json)
  | text (s : String)
  /-- The client is sent to another path. -/
  | elsewhere (path : String)
  /-- The numbers of the metrics or a description of the service, which the outer layer writes. -/
  | page

/-- **A response.** -/
structure Response where
  status : Nat
  content : Content
  /-- The methods that the path has, if the method of the request is none of them. -/
  allow : Option String := none
  /-- The origin that may read the response. -/
  allowOrigin : Option String := none
  requestId : Option String := none

namespace Request

/-- The text of a header, which is read byte by byte. -/
def header? (r : Request) (name : String) : Option String :=
  (r.headers.lookup name).map Text.bytewise

end Request

namespace Exchange

/-! ### Bodies -/

/-- What the body of a request is. -/
inductive Body where
  | json (v : Json)
  /-- A body that is not declared as JSON. -/
  | raw (s : String)
  | malformed (offset : Nat)
  /-- A body that is no text, nests too deep, or has a numeral that is too long. -/
  | unreadable

/-- Whether a type of content is JSON. -/
def isJsonType (contentType : String) : Bool :=
  let full := (Text.trimChars (contentType.toList.takeWhile (· ≠ ';'))).map Char.toLower
  match Text.afterStem? "application/".toList full with
  | some kind =>
    !kind.contains '/' && (kind = "json".toList || "+json".toList.isSuffixOf kind)
  | none => false

/-- Characters without a byte order mark at the front. -/
def withoutMark : List Char → List Char
  | '\uFEFF' :: cs => cs
  | cs => cs

/-- How deep a body may nest. -/
def maxNesting : Nat := 970

/-- Whether characters nest too deep before an offset, if one is given. -/
def nestsTooDeep (before : Option Nat) (cs : List Char) : Bool :=
  match Json.deeper? maxNesting cs, before with
  | none, _ => false
  | some _, none => true
  | some place, some offset => place < offset

/-- What some bytes say as JSON. -/
def readBody (bytes : List Nat) : Body :=
  match (Text.decode? bytes).map withoutMark with
  | none => .unreadable
  | some cs =>
    match Json.read (String.ofList cs) with
    | .ok v => if nestsTooDeep none cs then .unreadable else .json v
    | .error (.malformed _ offset) =>
      if nestsTooDeep (some offset) cs then .unreadable else .malformed offset
    | .error (.numeral _) => .unreadable

/-- The body of a request; an empty one is `null`. -/
def bodyOf (r : Request) : Body :=
  if r.body = "" then .json .null
  else if isJsonType ((r.header? "content-type").getD "application/json") then
    readBody (Text.encodeUtf8 r.body)
  else .raw r.body

/-! ### Responses -/

/-- The response about a problem. -/
def problemResponse (settings : Settings) (p : Problem) : Response where
  status := p.category.status
  content := .json (.obj [("error", .str p.category.name), ("message", .str p.message),
    ("details", .obj (settings.redacted p.details))])

/-- A response about a fault of the exchange itself. -/
def exchangeProblem (status : Nat) (message : String) : Response where
  status := status
  content := .json (.obj [("error", .str "HTTPException"), ("message", .str message),
    ("details", .obj [])])

/-- The response about a breakdown. -/
def brokenResponse : Response where
  status := 500
  content := .json (.obj [("error", .str "InternalServerError"),
    ("message", .str "An unexpected error occurred"), ("details", .obj [])])

/-- A response with one detail. -/
def detailResponse (status : Nat) (detail : Json) : Response where
  status := status
  content := .json (.obj [("detail", detail)])

/-- The response about issues, which are placed in the body. -/
def issuesResponse (issues : List Issue) : Response :=
  detailResponse 422
    (Issue.listToJsonWithInput (issues.map fun i => { i with place := .field "body" :: i.place }))

/-- The response about a body that is no JSON. -/
def malformedResponse (offset : Nat) : Response :=
  detailResponse 422 (.arr [.obj [("type", .str "json_invalid"),
    ("loc", .arr [.str "body", .nat offset]), ("msg", .str "JSON decode error"),
    ("input", .obj [])]])

/-- The response of an endpoint that answers. -/
def answerResponse (e : Endpoint) (v : Json) : Response where
  status := 200
  content := if e.isPage then .page else .json v

/-- The response to a refusal, unless it is a breakdown. -/
def refusalResponse (settings : Settings) : Refusal → Except Breakdown Response
  | .failure (.problem p) => .ok (problemResponse settings p)
  | .failure (.breakdown kind _) => .error kind
  | .malformed issues => .ok (issuesResponse issues)
  | .noToken =>
    .ok (exchangeProblem 500
      "Metrics token not configured. Set METRICS_TOKEN environment variable.")
  | .wrongToken => .ok (exchangeProblem 403 "Invalid metrics token")

/-- Whether JSON can write the content of a response. -/
def isWritable (r : Response) : Bool :=
  match r.content with
  | .json v => v.portable = v && v.isWritable
  | _ => true

/-- A response that JSON can write, or a breakdown. -/
def written (r : Except Breakdown Response) : Except Breakdown Response :=
  match r with
  | .ok response => if isWritable response then .ok response else .error .value
  | .error kind => .error kind

/-! ### Endpoints -/

section

variable (suffix : Nat → String) (first : Nat)

/-- The body that an endpoint reads; a missing one and one that is not JSON are issues. -/
def formBody : Body → Except Response Json
  | .json .null => .error (issuesResponse [⟨.missing, [], .null⟩])
  | .json v => .ok v
  | .raw s => .error (issuesResponse [⟨.noFields, [], .str s⟩])
  | .malformed offset => .error (malformedResponse offset)
  | .unreadable => .error (detailResponse 400 (.str "There was an error parsing the body"))

/-- The body that an endpoint gets. -/
def bodyFor (e : Endpoint) (r : Request) : Except Response Json :=
  if e.readsBody then formBody (bodyOf r) else .ok .null

/-- What is counted at an endpoint, and its response or a breakdown. -/
def ask (settings : Settings) (r : Request) (e : Endpoint) :
    List Event × Except Breakdown Response :=
  match bodyFor e r with
  | .error response => ([], written (.ok response))
  | .ok body =>
    let answer := e.answer
      { settings, body, suffix, first
        category := r.target.parameter? "category"
        token := (r.header? "x-metrics-token").getD "" }
    let response := match answer.result with
      | .ok v => .ok (answerResponse e v)
      | .error refusal => refusalResponse settings refusal
    (answer.events, written response)

/-- The path without slashes at its end, if a path has them and that is the path of an endpoint. -/
def shorterPath? (path : String) : Option String :=
  let shorter := String.ofList (path.toList.reverse.dropWhile (· = '/')).reverse
  if shorter ≠ path && (Endpoint.ofPath? shorter).isSome then some shorter else none

/-- The response to a request for a path that no endpoint has. -/
def strayResponse (path : String) : Response :=
  match shorterPath? path with
  | some shorter => { status := 307, content := .elsewhere shorter }
  | none => detailResponse 404 (.str "Not Found")

/-- What is counted for a request, and its response or a breakdown. -/
def route (settings : Settings) (r : Request) : List Event × Except Breakdown Response :=
  match Endpoint.ofPath? r.target.path with
  | none => ([], .ok (strayResponse r.target.path))
  | some e =>
    if e.methods.contains r.method then ask suffix first settings r e
    else
      ([], .ok { detailResponse 405 (.str "Method Not Allowed") with
        allow := some (", ".intercalate e.methods) })

end

/-! ### Origins -/

/-- The origin of a request, if its pages may read responses. -/
def allowedOrigin? (settings : Settings) (r : Request) : Option String :=
  (r.header? "origin").filter settings.originList.contains

/-- The methods that a page of another origin may use. -/
def pageMethods : List String := ["GET", "POST"]

/-- Whether a browser asks what a page may do. -/
def isPreflight (r : Request) : Bool :=
  r.method = "OPTIONS" && (r.header? "origin").isSome &&
    (r.header? "access-control-request-method").isSome

/-- The answer to the question what a page may do. -/
def preflight (settings : Settings) (r : Request) : Response :=
  let origin := allowedOrigin? settings r
  let method := (r.header? "access-control-request-method").getD ""
  let inner := (r.header? "access-control-request-private-network").isSome
  let refused := (if origin.isSome then [] else ["origin"]) ++
    (if pageMethods.contains method then [] else ["method"]) ++
    (if inner then ["private-network"] else [])
  { status := if refused = [] then 200 else 400
    content := .text (if refused = [] then "OK"
      else "Disallowed CORS " ++ ", ".intercalate refused)
    allowOrigin := origin }

/-! ### Requests -/

/-- What is counted for a request that was routed, and the response. -/
def finish (settings : Settings) (r : Request) (events : List Event) :
    Except Breakdown Response → List Event × Response
  | .ok response =>
    (events ++ [.answered r.method r.target.countedPath response.status],
      { response with
        allowOrigin := allowedOrigin? settings r
        requestId := r.headers.lookup "x-request-id" })
  | .error kind =>
    (events ++ [.answered r.method r.target.countedPath 500,
      .broke kind.name r.method r.target.countedPath], brokenResponse)

/-- **What is counted for a request, and the response**, where ids of new blocks end in these
suffixes. -/
def answerWith (suffix : Nat → String) (first : Nat) (settings : Settings) (r : Request) :
    List Event × Response :=
  if isPreflight r then ([], preflight settings r)
  else
    let (events, result) := route suffix first settings r
    finish settings r events result

/-- What is counted for a request, and the response, where the suffixes are counted. -/
def answer (settings : Settings) (r : Request) : List Event × Response :=
  answerWith History.suffix 1 settings r

end Exchange

end AccessTree
