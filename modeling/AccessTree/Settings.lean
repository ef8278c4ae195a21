import AccessTree.Block.Limit
import AccessTree.Chain
import AccessTree.Schema.Field
import AccessTree.Text.Search

/-! # Settings

The settings of the service are read from named texts, the environment, and from values that are
given directly and take precedence. Every setting has a default. A setting that is given must have
the right shape, and in production metrics have to be protected by a token, and no origin on the
local host may be allowed. -/

namespace AccessTree

/-- Where the service runs. -/
inductive Deployment where
  | development
  | test
  | production
  deriving DecidableEq, Repr

instance : Word Deployment where
  all := [.development, .test, .production]
  name
    | .development => "local"
    | .test => "test"
    | .production => "prod"

/-- **The settings of the service.** -/
structure Settings where
  deployment : Deployment := .development
  appName : String := "condition-studio"
  logLevel : String := "INFO"
  /-- Whether requests are counted and metrics are offered. -/
  observed : Bool := true
  structuredLogs : Bool := true
  requestIdHeader : String := "X-Request-ID"
  /-- What a client has to know to read the metrics. -/
  metricsToken : Option String := none
  /-- Whether a composition with a gap is refused. -/
  strict : Bool := false
  /-- The number of the chain that applies where none was entered. -/
  chainNumber : Int := ChainId.number .sepolia
  maxDepth : Int := 16
  maxBlocks : Int := 500
  /-- The allowed origins, separated by commas. -/
  origins : String := "http://localhost:3000,http://localhost:5173"

namespace Settings

/-- The chain that applies where none was entered. -/
def fallback (s : Settings) : Except ChainFault ChainId := Chain.fallbackOf s.chainNumber

/-- The limits on trees. -/
def limits (s : Settings) : TreeLimits := ⟨s.maxDepth, s.maxBlocks⟩

/-- The allowed origins. -/
def originList (s : Settings) : List String :=
  ((s.origins.splitOn ",").map Text.trim).filter (· ≠ "")

/-- The settings as a JSON value. -/
def toJson (s : Settings) : Json :=
  .obj [("app_env", .str (Word.name s.deployment)), ("app_name", .str s.appName),
    ("app_log_level", .str s.logLevel), ("observability_enabled", .bool s.observed),
    ("observability_structured_logs", .bool s.structuredLogs),
    ("observability_request_id_header", .str s.requestIdHeader),
    ("metrics_token", (s.metricsToken.map Json.str).getD .null),
    ("compiler_strict_mode", .bool s.strict), ("compiler_default_chain_id", .int s.chainNumber),
    ("block_tree_max_depth", .int s.maxDepth), ("block_tree_max_nodes", .int s.maxBlocks),
    ("cors_origins", .str s.origins)]

/-! ### Sources -/

/-- The names of all settings. -/
def names : List String :=
  ["app_env", "app_name", "app_log_level", "observability_enabled", "observability_structured_logs",
    "observability_request_id_header", "metrics_token", "compiler_strict_mode",
    "compiler_default_chain_id", "block_tree_max_depth", "block_tree_max_nodes", "cors_origins"]

/-- The named texts as fields; of names that differ in case only, the last one counts. -/
def environmentFields (environment : List (String × String)) : Fields :=
  (environment.map fun (name, text) => (Text.lowered name, Json.str text)).reverse

/-! ### Reading -/

open Schema

/-- Words between brackets, each between quotes. -/
def wordList (ws : List String) : String := (Json.texts ws).nested

/-- The deployment that a text names in any case. -/
def readDeployment (v : Json) : Checked Deployment :=
  (text v).andThen fun s =>
    match Word.ofName? (Text.lowered s) with
    | some d => .ok d
    | none =>
      .reject (.rule ("app_env must be one of " ++ wordList (Word.names Deployment) ++ ", got '" ++
        s ++ "'")) v

/-- The number of a supported chain. -/
def readChain (v : Json) : Checked Int :=
  (integer v).andThen fun n =>
    if (ChainId.ofNumber? n).isSome then .ok n
    else
      .reject (.rule ("compiler_default_chain_id must be one of " ++ ChainId.numberList ++
        ", got " ++ Text.ofInt n)) v

/-- A limit, which is positive. -/
def readLimit (v : Json) : Checked Int :=
  (integer v).ensure (fun n => decide (1 ≤ n)) "block tree limits must be at least 1" v

/-- The settings with some fields, before they are checked as a whole. -/
def ofFields (fields : Fields) : Checked Settings :=
  let default : Settings := {}
  Settings.mk <$> optional fields (.same "app_env") default.deployment readDeployment
    <*> optional fields (.same "app_name") default.appName text
    <*> optional fields (.same "app_log_level") default.logLevel text
    <*> optional fields (.same "observability_enabled") default.observed truth
    <*> optional fields (.same "observability_structured_logs") default.structuredLogs truth
    <*> optional fields (.same "observability_request_id_header") default.requestIdHeader text
    <*> optional fields (.same "metrics_token") default.metricsToken (nullable text)
    <*> optional fields (.same "compiler_strict_mode") default.strict truth
    <*> optional fields (.same "compiler_default_chain_id") default.chainNumber readChain
    <*> optional fields (.same "block_tree_max_depth") default.maxDepth readLimit
    <*> optional fields (.same "block_tree_max_nodes") default.maxBlocks readLimit
    <*> optional fields (.same "cors_origins") default.origins text

/-- Whether an origin is on the local host. -/
def isLocal (origin : String) : Bool :=
  (Text.Pattern.literal "localhost").occursIn origin ||
    (Text.Pattern.literal "127.0.0.1").occursIn origin

/-- What is wrong with settings in production, if anything is. -/
def productionFault? (s : Settings) : Option String :=
  if s.observed ∧ s.metricsToken.getD "" = "" then some "METRICS_TOKEN must be set in production"
  else (s.originList.find? isLocal).map fun origin =>
    "CORS origins must not contain localhost in production: " ++ origin

/-- Checks settings as a whole. -/
def checked (fields : Fields) (s : Settings) : Checked Settings :=
  match s.deployment, s.productionFault? with
  | .production, some fault => .reject (.rule fault) (.obj fields)
  | _, _ => .ok s

/-- Whether a value is given for the deployment that is no text and so names nothing. -/
def namelessDeployment? (fields : Fields) : Option Json :=
  match fields.lookup "app_env" with
  | none | some (.str _) => none
  | found => found

end Settings

/-- Why there are no settings. -/
inductive SettingsFault where
  /-- The deployment is given by a value that is no text. -/
  | deployment (found : Json)
  | rejected (issues : List Issue)
  deriving DecidableEq

/-- The failure of a deployment that is no text. -/
def Settings.deploymentFailure (found : Json) : Failure :=
  .breakdown .noPart ("'" ++ found.className ++ "' object has no attribute 'lower'")

/-- **The settings** from the environment and from values given directly. -/
def Settings.read (environment : List (String × String)) (values : Fields) :
    Except SettingsFault Settings :=
  let fields := values ++ environmentFields environment
  match namelessDeployment? fields with
  | some found => .error (.deployment found)
  | none => ((ofFields fields).andThen (checked fields)).toExcept.mapError .rejected

end AccessTree
