import Tardis.Config.Merge
import Tardis.Config.Framework
import Tardis.Config.Resolve

/-! `TardisConfig::init` and `TardisConfig::do_init` of `config_processor.rs`: the
sources a pass adds, the tree it builds, the sections it reads, the polling task it
spawns and the variable it sets. The process-wide state is threaded through every
step and kept when a step fails. -/

namespace Tardis.Config

open Tardis.Json

/-- Modelled from the spec: the process-wide state `init` touches: the environment
variables in the order the process lists them, and the background polling tasks
spawned, none of which ever ends. -/
structure Process where
  vars : List (String × String)
  tasks : Nat

/-- `env::set_var`. -/
def Process.setVar (process : Process) (name value : String) : Process :=
  { process with vars := insertField process.vars name value }

/-- A step of `init`: it returns, fails or panics, and keeps the process-wide state
it changed whichever it does. -/
abbrev Init := ExceptT Failure (StateM Process)

def liftTardis (result : Except TardisError α) : Init α :=
  match result with
  | .ok value => pure value
  | .error error => throw (.err error)

/-- `?` on a result of the configuration library, through `From<ConfigError>`. -/
def liftConfig (result : Except ConfigError α) : Init α :=
  match result with
  | .ok value => pure value
  | .error error => throw (.err error.toTardisError)

def liftOutcome (result : Outcome α) : Init α :=
  match result with
  | .ok value => pure value
  | .error failure => throw failure

/-- `TardisConfig`: the workspace maps by module name, and the framework configuration. -/
structure TardisConfig where
  cs : List (String × Value)
  fw : FrameworkConfig

/-- `config::FileFormat` of a configuration center's documents. -/
inductive FileFormat where
  | toml
  | json
  | yaml
  deriving DecidableEq, Repr

/-- A remote answer: its status code and the text of its body. -/
structure Response where
  status : Nat
  text : Except ConfigError String

/-- Modelled from the spec: what a pass reads from outside the process, each as the
source gets it. -/
structure Capabilities where
  /-- `File::from(path).required(true)` collected: the parsed map of the file, or
  the error of a missing or malformed one. -/
  readFile : String → Except ConfigError ConfigMap
  /-- `fetch_conf_urls(profile, app_id)` of the Nacos processor made for a center,
  its arguments as the trait declares them. -/
  fetchConfUrls : ConfCenterConfig → String → String → Except TardisError (List String)
  /-- `reqwest::get`, with the transport error as `ConfigError::Foreign`. -/
  get : String → Except ConfigError Response
  /-- `Format::parse` of a fetched text, with its error as `ConfigError::Foreign`. -/
  parse : FileFormat → String → String → Except ConfigError ConfigMap
  /-- `TardisFuns::crypto.aes.decrypt_ecb`. -/
  decryptEcb : String → String → Except TardisError String
  /-- `TardisLocale::init`. -/
  localeInit : String → Except TardisError Unit

/-- `Path::join` of a file name: after a separator, unless the path is empty or
ends with one. -/
def joinPath (path name : String) : String :=
  if path.data.getLast?.all (· = '/') then path ++ name else path ++ "/" ++ name

/-- `HttpSource::collect`: a 404 is an empty map, a 200 the parsed text, any other
status an error. -/
def HttpSource.collect (caps : Capabilities) (url : String) (format : FileFormat) : Except ConfigError ConfigMap :=
  match caps.get url with
  | .error error => .error error
  | .ok response =>
    if response.status = 404 then .ok []
    else if response.status = 200 then response.text >>= caps.parse format url
    else .error (.message (quoted ("[Tardis.Config] Fetch remote file: " ++ url ++ " error " ++ toString response.status)))

/-! ## One pass -/

/-- The local files of a pass: `conf-default`, then `conf-{profile}` for a profile. -/
def localFiles (relativePath : Option String) (profile : String) : List String :=
  match relativePath with
  | some path => joinPath path "conf-default" :: (if profile.isEmpty then [] else [joinPath path ("conf-" ++ profile)])
  | none => []

/-- The format of a center's documents, `toml` where none is set. -/
def centerFormat (center : ConfCenterConfig) : Except TardisError FileFormat :=
  let format := lowercase (center.format.getD "toml")
  if format = "toml" then .ok .toml
  else if format = "json" then .ok .json
  else if format = "yaml" then .ok .yaml
  else .error (.formatError "[Tardis.Config] The file format of config center only supports [toml,json,yaml]" "")

/-- The remote part of a pass: the format and the kind checked, the URLs fetched,
then the polling task spawned. Line 113 passes the application id where the trait
declares the profile. -/
def remoteSources (caps : Capabilities) (profile : String) :
    Option (ConfCenterConfig × String) → Init (List (String × FileFormat))
  | none => pure []
  | some (center, appId) => do
    let format ← liftTardis (centerFormat center)
    if lowercase center.kind ≠ "nacos" then
      throw (.err (.formatError "[Tardis.Config] The kind of config center only supports [nacos]" ""))
    else
      let urls ← liftTardis (caps.fetchConfUrls center appId profile)
      modify fun process => { process with tasks := process.tasks + 1 }
      pure (urls.map fun url => (url, format))

/-- What the sources of a pass collect, in the order they were added: the local
files, the remote documents, the environment. -/
def passSources (caps : Capabilities) (relativePath : Option String) (profile : String)
    (remote : List (String × FileFormat)) (vars : List (String × String)) : List (Except ConfigError ConfigMap) :=
  (localFiles relativePath profile).map caps.readFile ++ remote.map (fun source => HttpSource.collect caps source.1 source.2) ++
    [.ok (collectEnvironment vars)]

/-- A document the center does not have is an empty source. -/
theorem HttpSource.collect_notFound {caps : Capabilities} {url : String} (format : FileFormat)
    (text : Except ConfigError String) (answer : caps.get url = .ok ⟨404, text⟩) :
    HttpSource.collect caps url format = .ok [] := by
  simp [HttpSource.collect, answer]

/-- What the sources of a pass collect, once its files and documents are read. -/
theorem passSources_collected {caps : Capabilities} {path profile : String} {remote : List (String × FileFormat)}
    (vars : List (String × String)) {default profileMap : ConfigMap} {documents : List ConfigMap}
    (readDefault : caps.readFile (joinPath path "conf-default") = .ok default)
    (readProfile : profile.isEmpty = false → caps.readFile (joinPath path ("conf-" ++ profile)) = .ok profileMap)
    (fetched : remote.map (fun source => HttpSource.collect caps source.1 source.2) = documents.map .ok) :
    passSources caps (some path) profile remote vars =
      (default :: (if profile.isEmpty then [] else [profileMap]) ++ documents ++ [collectEnvironment vars]).map .ok := by
  cases empty : profile.isEmpty <;> simp [passSources, localFiles, empty, readDefault, readProfile, fetched]

/-- Two local files: `conf-default` with a database URL and pool size, and
`conf-test` holding `profileMap`; every remote document is missing. -/
def layeredWorld (profileMap : ConfigMap) : Capabilities where
  readFile file := .ok (if file = "config/conf-default" then
    [("db", .table [("url", .string "a"), ("pool", .integer 1)])] else profileMap)
  fetchConfUrls _ _ _ := .ok []
  get _ := .ok ⟨404, .ok ""⟩
  parse _ _ _ := .ok []
  decryptEcb _ _ := .ok ""
  localeInit _ := .ok ()

/-- `conf.get(key)` of a top-level key, before the value is deserialized. -/
def getKey (key : String) (cache : ConfigValue) : Except ConfigError ConfigValue :=
  match (Expression.identifier key).get cache with
  | some value => .ok value
  | none => .error (.notFound ("configuration property " ++ quoted key ++ " not found"))

mutual
/-- A configuration value deserialized into a `serde_json::Value`. -/
def ConfigValue.toJson : ConfigValue → Value
  | .nil => .null
  | .boolean b => .bool b
  | .integer i => .number (Number.ofInt i)
  | .float n => .number n
  | .string s => .string s
  | .array items => .array (itemsToJson items)
  | .table entries => .object (entriesToJson entries)

def itemsToJson : List ConfigValue → List Value
  | [] => []
  | value :: rest => value.toJson :: itemsToJson rest

def entriesToJson : ConfigMap → List (String × Value)
  | [] => []
  | (key, value) :: rest => (key, value.toJson) :: entriesToJson rest
end

/-- A section that may be missing: `NotFound` is `none`, any other error ends the pass. -/
def optional (result : Except ConfigError α) : Except ConfigError (Option α) :=
  match result with
  | .ok value => .ok (some value)
  | .error (.notFound _) => .ok none
  | .error error => .error error

/-- The workspace maps: `cs` under the empty name, then the modules of `csm`. -/
def readWorkspace (cache : ConfigValue) : Except ConfigError (List (String × Value)) := do
  let cs ← optional (getKey "cs" cache)
  let workspace := match cs with
    | some value => [("", value.toJson)]
    | none => []
  let csm ← optional (getKey "csm" cache >>= fun value =>
    match value with
    | .table entries => .ok (entriesToJson entries)
    | other => .error (typeError ["csm"] other "a map"))
  pure (match csm with
    | some modules => modules.foldl (fun workspace module => insertField workspace module.1 module.2) workspace
    | none => workspace)

/-- The framework section: the default where there is no `fw`. -/
def readFrameworkAt (cache : ConfigValue) : Except ConfigError FrameworkConfig :=
  (fun fw => fw.getD {}) <$> optional (getKey "fw" cache >>= readFramework ["fw"])

/-- The decryption branch, with the crypto feature: both texts decrypted, then both
read back. -/
def decryptConfig (caps : Capabilities) (workspace : List (String × Value)) (fw : FrameworkConfig) :
    Outcome TardisConfig := do
  let wc ← decryption caps.decryptEcb (objToString (.object workspace)) fw.adv.salt
  let fwText ← decryption caps.decryptEcb (objToString fw.toJson) fw.adv.salt
  let cs ← strToObj fromStrMap wc
  let fw ← strToObj (fun text => fromStr text >>= FrameworkConfig.fromJson) fwText
  pure ⟨cs, fw⟩

/-- What `do_init` does once the tree is built: the workspace and the framework
section read, `RUST_BACKTRACE` set, and with a salt both decrypted. -/
def readConfig (caps : Capabilities) (cache : ConfigValue) : Init TardisConfig := do
  let workspace ← liftConfig (readWorkspace cache)
  let fw ← liftConfig (readFrameworkAt cache)
  modify fun process => process.setVar "RUST_BACKTRACE" (if fw.adv.backtrace then "1" else "0")
  if fw.adv.salt.isEmpty then pure ⟨workspace, fw⟩
  else liftOutcome (decryptConfig caps workspace fw)

/-- `TardisConfig::do_init`. -/
def doInit (caps : Capabilities) (relativePath : Option String) (profile : String)
    (confCenter : Option (ConfCenterConfig × String)) : Init TardisConfig := do
  let remote ← remoteSources caps profile confCenter
  let process ← get
  let cache ← liftConfig (build (passSources caps relativePath profile remote process.vars))
  readConfig caps cache

/-- The `conf-remote` block of `init`: a second pass when the first one enables a
configuration center, with the application id the first one read. -/
def remotePass (caps : Capabilities) (relativePath : Option String) (profile : String) (config : TardisConfig) :
    Init TardisConfig :=
  match config.fw.confCenter with
  | some center =>
    if config.fw.app.id.isEmpty then
      throw (.err (.formatError "[Tardis.Config] The [fw.app.id] must be set when the config center is enabled" ""))
    else doInit caps relativePath profile (some (center, config.fw.app.id))
  | none => pure config

/-- `TardisLocale::init` of the relative path, where there is one. -/
def initLocale (caps : Capabilities) : Option String → Init Unit
  | some path => liftTardis (caps.localeInit path)
  | none => pure ()

/-- `TardisConfig::init`: a local pass, the `conf-remote` block, then the locale. -/
def init (caps : Capabilities) (relativePath : Option String) (profile : String) : Init TardisConfig := do
  let config ← doInit caps relativePath profile none
  let config ← remotePass caps relativePath profile config
  initLocale caps relativePath
  pure config

end Tardis.Config
