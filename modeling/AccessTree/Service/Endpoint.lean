import AccessTree.Catalog
import AccessTree.Compile.Tree
import AccessTree.Edit.History
import AccessTree.Json.Canonical
import AccessTree.Service.Form
import AccessTree.Service.Metrics
import AccessTree.Settings

/-! # Endpoints

An `Endpoint` is one thing that the service can be asked for. The service keeps no trees: a request
for an edit carries the tree, and the answer holds the edited tree and the condition that it
compiles to. `Endpoint.answer` gives what is counted on the way and the answer or the reason why
there is none. -/

namespace AccessTree

/-- Why an endpoint gives no answer. -/
inductive Refusal where
  | failure (f : Failure)
  /-- The body is no form for the endpoint. -/
  | malformed (issues : List Issue)
  /-- The metrics are not offered, or not to this client. -/
  | noToken
  | wrongToken

/-- **The endpoints of the service.** -/
inductive Endpoint where
  | health
  | templates
  | template (id : String)
  | attach
  | detach
  | setValue
  | setComparator
  | addParameter
  | compile
  | validate
  | metrics
  /-- The pages that describe the service. -/
  | manual
  deriving DecidableEq, Repr

/-- What is counted, and the answer or a refusal. -/
structure Answer (α : Type) where
  events : List Event
  result : Except Refusal α

namespace Answer

variable {α β : Type}

/-- An answer of which nothing is counted. -/
def done (a : α) : Answer α := ⟨[], .ok a⟩

/-- A refusal. -/
def refuse (r : Refusal) : Answer α := ⟨[], .error r⟩

/-- Counts an event. -/
def count (e : Event) : Answer Unit := ⟨[e], .ok ()⟩

/-- Goes on with an answer. -/
def andThen (x : Answer α) (f : α → Answer β) : Answer β :=
  match x.result with
  | .ok a => ⟨x.events ++ (f a).events, (f a).result⟩
  | .error r => ⟨x.events, .error r⟩

instance : Monad Answer where
  pure := done
  bind := andThen

/-- The answer that something gives which may fail. -/
def ofExcept {ε : Type} (toFailure : ε → Failure) : Except ε α → Answer α
  | .ok a => done a
  | .error e => refuse (.failure (toFailure e))

/-- The answer that a form gives. -/
def ofForm : Checked α → Answer α
  | .ok a => done a
  | .rejected issues => refuse (.malformed issues)

end Answer

namespace Endpoint

/-! ### Compiling -/

/-- Compiles blocks and counts how that ends. -/
def compileBlocks (settings : Settings) (strict : Bool) (blocks : List Block) :
    Answer (Except CompileFault (Option Condition)) :=
  let result := (Compile.workspace ⟨strict, settings.fallback⟩ blocks).result
  let compilation : Compilation := match result with
    | .ok (some c) => .success c.leafCount
    | .ok none => .absent
    | .error _ => .error
  ⟨[.compiled compilation], .ok result⟩

/-- A text, or `null`. -/
def textOrNull (s : Option String) : Json := (s.map Json.str).getD .null

/-- The answer about a compiled condition, if it can be written. -/
def compiledJson (c : Option Condition) : Except NumeralFault Json := do
  let document := c.map Condition.toDocument
  let text ← (document.getD .null).writeDisplayed
  let fingerprint ← document.mapM Json.writeFingerprint
  return .obj [("condition", document.getD .null), ("json", .str text),
    ("fingerprint", textOrNull fingerprint)]

/-- Compiles the blocks of a form. -/
def answerCompile (settings : Settings) (form : Form.CompileForm) : Answer Json := do
  let result ← compileBlocks settings (form.strict.getD settings.strict) form.blocks
  let c ← Answer.ofExcept CompileFault.toFailure result
  Answer.ofExcept NumeralFault.toFailure (compiledJson c)

/-- Validates the document of a form. -/
def answerValidate (document : Fields) : Answer Json := do
  let c ← Answer.ofExcept DocumentFault.toFailure (Document.parse (.obj document))
  let fingerprint ← Answer.ofExcept NumeralFault.toFailure c.toDocument.writeFingerprint
  return .obj [("valid", .bool true), ("fingerprint", .str fingerprint),
    ("conditionType", .str c.kind.name), ("leafCount", .nat c.leafCount)]

/-! ### Editing -/

/-- The failure of an edit. -/
inductive Refused where
  | edit (f : EditFault)
  | limit (f : LimitFault)
  | template (p : Problem)

/-- What a client is told about a failed edit. -/
def Refused.toFailure : Refused → Failure
  | .edit f => f.toFailure
  | .limit f => f.toFailure
  | .template p => .problem p

/-- What an endpoint may look at. -/
structure Call where
  settings : Settings
  /-- The category that the query names. -/
  category : Option String
  /-- The token in the header of the request. -/
  token : String
  body : Json
  /-- The suffixes that ids of new blocks may get. -/
  suffix : Nat → String
  /-- The number of the first suffix that is not used up. -/
  first : Nat

/-- An edited tree within the limits. -/
def edited (call : Call) (root : Block) (e : Edit) : Except Refused Block := do
  let after ← (e.apply call.suffix call.first root).mapError .edit
  (after.checkLimits call.settings.limits).mapError .limit
  return after

/-- Counts how an edit ends; a breakdown is not counted. -/
def countEdit (operation : String) (result : Except Refused Block) : Answer Block :=
  match result with
  | .ok root => ⟨[.edited operation true], .ok root⟩
  | .error e =>
    match e.toFailure with
    | .problem p => ⟨[.edited operation false], .error (.failure (.problem p))⟩
    | f => Answer.refuse (.failure f)

/-- The answer about an edited tree: a problem of its compilation does not undo the edit. -/
def editedJson (root : Block) (condition : Option Condition) (error : Option String) : Json :=
  .obj [("root", root.toJson), ("condition", (condition.map Condition.toDocument).getD .null),
    ("error", textOrNull error)]

/-- Answers an edit with the tree and the condition that it compiles to. -/
def answerEdit (settings : Settings) (operation : String) (result : Except Refused Block) :
    Answer Json := do
  let root ← countEdit operation result
  match ← compileBlocks settings false [root] with
  | .ok c => return editedJson root c none
  | .error f =>
    match f.toFailure with
    | .problem p => return editedJson root none (some p.message)
    | breakdown => Answer.refuse (.failure breakdown)

/-- The template that is attached. -/
def templateOf : Form.TemplateSource → Except Refused Block
  | .catalog id => (Catalog.get id).mapError .template
  | .inline block => .ok block

/-- Attaches the template of a form. -/
def attached (call : Call) (form : Form.AttachForm) : Except Refused Block := do
  let template ← templateOf form.template
  edited call form.edit.root (.attach form.edit.path form.slot template)

/-! ### Reading -/

/-- The answer about the catalog. -/
def templatesJson (category : Option String) : Json :=
  .obj [("templates", .arr ((Catalog.list category).map Block.toJson)),
    ("categories", Json.texts Catalog.categories)]

/-- The answer about the health of the service. -/
def healthJson (settings : Settings) : Json :=
  .obj [("ok", .bool true), ("app", .str settings.appName), ("strict", .bool settings.strict)]

/-- Whether all characters of a text are in ASCII. -/
def isAscii (s : String) : Bool := s.toList.all fun c => c.toNat < 0x80

/-- Lets a client with the right token pass. Tokens outside ASCII cannot be compared. -/
def checkToken (settings : Settings) (token : String) : Answer Unit :=
  match settings.metricsToken with
  | none | some "" => Answer.refuse .noToken
  | some expected =>
    if !isAscii token || !isAscii expected then
      Answer.refuse (.failure (.breakdown .type
        "comparing strings with non-ASCII characters is not supported"))
    else if token = expected then .done () else Answer.refuse .wrongToken

/-! ### All endpoints -/

/-- **The answer of an endpoint.** Pages are written by the outer layer, so their answer is empty.
-/
def answer (call : Call) : Endpoint → Answer Json
  | .health => .done (healthJson call.settings)
  | .templates => .done (templatesJson call.category)
  | .template id => Block.toJson <$> Answer.ofExcept Failure.problem (Catalog.get id)
  | .attach => do
    let form ← Answer.ofForm (Form.attach call.settings.limits call.body)
    answerEdit call.settings "attach" (attached call form)
  | .detach => do
    let form ← Answer.ofForm (Form.detach call.settings.limits call.body)
    answerEdit call.settings "detach"
      (edited call form.edit.root (.detach form.edit.path form.slot))
  | .setValue => do
    let form ← Answer.ofForm (Form.value call.settings.limits call.body)
    answerEdit call.settings "set_value"
      (edited call form.edit.root (.setValue form.edit.path form.slot (some form.value)))
  | .setComparator => do
    let form ← Answer.ofForm (Form.comparator call.settings.limits call.body)
    answerEdit call.settings "set_comparator" (edited call form.edit.root
      (.setComparator form.edit.path form.slot form.comparator))
  | .addParameter => do
    let form ← Answer.ofForm (Form.parameter call.settings.limits call.body)
    answerEdit call.settings "add_parameter"
      (edited call form.root (.addParameter form.path))
  | .compile => do
    let form ← Answer.ofForm (Form.compile call.settings.limits call.body)
    answerCompile call.settings form
  | .validate => do
    let document ← Answer.ofForm (Form.validate call.body)
    answerValidate document
  | .metrics => do
    checkToken call.settings call.token
    return .null
  | .manual => .done .null

/-- Whether an endpoint answers with a page. -/
def isPage : Endpoint → Bool
  | .metrics | .manual => true
  | _ => false

/-- Whether an endpoint reads the body of the request. -/
def readsBody : Endpoint → Bool
  | .health | .templates | .template _ | .metrics | .manual => false
  | _ => true

/-- The methods of an endpoint. -/
def methods (e : Endpoint) : List String :=
  if e.readsBody then ["POST"] else if e.isPage then ["GET", "HEAD"] else ["GET"]

/-! ### Paths -/

/-- The endpoints with a fixed path. -/
def fixedPaths : List (String × Endpoint) :=
  [("/api/v1/health", .health), ("/api/v1/catalog/templates", .templates),
    ("/api/v1/blocks/attach", .attach), ("/api/v1/blocks/detach", .detach),
    ("/api/v1/blocks/value", .setValue), ("/api/v1/blocks/comparator", .setComparator),
    ("/api/v1/blocks/parameters", .addParameter), ("/api/v1/conditions/compile", .compile),
    ("/api/v1/conditions/validate", .validate), ("/metrics", .metrics),
    ("/openapi.json", .manual), ("/docs", .manual), ("/docs/oauth2-redirect", .manual),
    ("/redoc", .manual)]

/-- What the paths of templates start with. -/
def templateStem : String := "/api/v1/catalog/templates/"

/-- A path without a line feed at its end. -/
def withoutLineFeed (path : String) : String :=
  if path.toList.getLast? = some '\n' then String.ofList path.toList.dropLast else path

/-- **The endpoint of a path.** -/
def ofPath? (path : String) : Option Endpoint :=
  match fixedPaths.lookup (withoutLineFeed path) with
  | some e => some e
  | none =>
    match Text.afterStem? templateStem.toList path.toList with
    | none | some [] => none
    | some id => if id.contains '/' then none else some (.template (String.ofList id))

end Endpoint

end AccessTree
