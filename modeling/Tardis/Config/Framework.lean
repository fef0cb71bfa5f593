import Tardis.Config.Value

/-! The framework configuration `do_init` types the `fw` branch into: the part of
`FrameworkConfig` the processor reads, and the cache module whose URL is typed. It
is read from the configuration tree as config-rs deserializes, and written to and
read from JSON as serde_json does. -/

namespace Tardis.Config

open Tardis.Json

/-- The `Debug` text of a string with no character to escape. -/
def quoted (s : String) : String := "\"" ++ s ++ "\""

/-- A scheme character: ASCII letters and digits, `+`, `-` and `.`. -/
def schemeChar (c : Char) : Bool := c.isAlphanum || c == '+' || c == '-' || c == '.'

/-- A text that starts with a scheme: a letter, scheme characters, then `:`. -/
def hasScheme : List Char → Bool
  | c :: rest => c.isAlpha && (rest.dropWhile schemeChar).head? == some ':'
  | [] => false

/-- Modelled from the spec: `url::Url`, kept as its text. The `url` crate is not
under src/; the model parses as far as the scheme, without which a text is a
relative URL with no base. -/
structure Url where
  text : String
  scheme : hasScheme text.data = true
  deriving DecidableEq

def Url.parse (text : String) : Except String Url :=
  if valid : hasScheme text.data = true then .ok ⟨text, valid⟩ else .error "relative URL without a base"

/-- Modelled from the spec: `AppConfig`, its application id. -/
structure AppConfig where
  id : String := ""
  deriving DecidableEq

/-- Modelled from the spec: `AdvConfig`, the backtrace switch and the salt. -/
structure AdvConfig where
  backtrace : Bool := false
  salt : String := ""
  deriving DecidableEq

/-- Modelled from the spec: `ConfCenterConfig`, with the fields `do_init` reads. -/
structure ConfCenterConfig where
  kind : String := "nacos"
  url : String := ""
  format : Option String := none
  deriving DecidableEq

/-- `CacheModuleConfig` of `cache.rs`. -/
structure CacheModuleConfig where
  url : Url
  deriving DecidableEq

/-- Modelled from the spec: `FrameworkConfig`, `#[serde(default)]`, with the
sections the processor reads and one cache module. -/
structure FrameworkConfig where
  app : AppConfig := {}
  adv : AdvConfig := {}
  confCenter : Option ConfCenterConfig := none
  cache : Option CacheModuleConfig := none
  deriving DecidableEq

/-! ## Typing a configuration tree -/

/-- What serde names the kind of a value it did not expect. -/
def ConfigValue.unexpected : ConfigValue → String
  | .nil => "unit value"
  | .boolean b => "boolean `" ++ toString b ++ "`"
  | .integer i => "integer `" ++ toString i ++ "`"
  | .float n => "floating point `" ++ String.mk n.text ++ "`"
  | .string s => "string " ++ quoted s
  | .array _ => "sequence"
  | .table _ => "map"

/-- `ConfigError::invalid_type` for the value at a key, as config-rs prints it. -/
def typeError (path : List String) (value : ConfigValue) (expected : String) : ConfigError :=
  .type ("invalid type: " ++ value.unexpected ++ ", expected " ++ expected ++ " for key `" ++
    ".".intercalate path ++ "`")

/-- `Value::into_string`: config-rs reads a string from any scalar. -/
def readString (path : List String) : ConfigValue → Except ConfigError String
  | .string s => .ok s
  | .boolean b => .ok (toString b)
  | .integer i => .ok (toString i)
  | .float n => .ok (String.mk n.text)
  | value => .error (typeError path value "a string")

/-- `Value::into_bool`: a boolean, a number other than zero, or one of the words
config-rs reads as a boolean. -/
def readBool (path : List String) : ConfigValue → Except ConfigError Bool
  | .boolean b => .ok b
  | .string s =>
    let lower := lowercase s
    if lower = "1" ∨ lower = "true" ∨ lower = "on" ∨ lower = "yes" then .ok true
    else if lower = "0" ∨ lower = "false" ∨ lower = "off" ∨ lower = "no" then .ok false
    else .error (typeError path (.string s) "a boolean")
  | .integer i => .ok (i != 0)
  | .float n => .ok ((n.text.takeWhile fun c => c != 'e' && c != 'E').any fun c => c.isDigit && c != '0')
  | value => .error (typeError path value "a boolean")

/-- `Url`'s `Deserialize`: a string, parsed; a text that does not parse is serde's
`invalid_value`. -/
def readUrl (path : List String) (value : ConfigValue) : Except ConfigError Url := do
  let text ← readString path value
  match Url.parse text with
  | .ok url => pure url
  | .error reason => throw (.message (quoted ("invalid value: string " ++ quoted text ++ ", expected " ++ reason)))

/-- `deserialize_option`: `Nil` is `None`. -/
def readOption (read : ConfigValue → Except ConfigError α) : ConfigValue → Except ConfigError (Option α)
  | .nil => .ok none
  | value => some <$> read value

/-- A struct is read from a table; any other value is serde's `invalid_type`. -/
def readTable (expected : String) : ConfigValue → Except ConfigError ConfigMap
  | .table entries => .ok entries
  | value => .error (.message (quoted ("invalid type: " ++ value.unexpected ++ ", expected " ++ expected)))

/-- A field of a `#[serde(default)]` struct: the default where the table has no entry. -/
def readField (entries : ConfigMap) (path : List String) (key : String) (default : α)
    (read : List String → ConfigValue → Except ConfigError α) : Except ConfigError α :=
  match entries.lookup key with
  | none => .ok default
  | some value => read (path ++ [key]) value

def readApp (path : List String) (value : ConfigValue) : Except ConfigError AppConfig := do
  let entries ← readTable "struct AppConfig" value
  let id ← readField entries path "id" "" readString
  pure { id }

def readAdv (path : List String) (value : ConfigValue) : Except ConfigError AdvConfig := do
  let entries ← readTable "struct AdvConfig" value
  let backtrace ← readField entries path "backtrace" false readBool
  let salt ← readField entries path "salt" "" readString
  pure { backtrace, salt }

def readConfCenter (path : List String) (value : ConfigValue) : Except ConfigError ConfCenterConfig := do
  let entries ← readTable "struct ConfCenterConfig" value
  let kind ← readField entries path "kind" "nacos" readString
  let url ← readField entries path "url" "" readString
  let format ← readField entries path "format" none fun path => readOption (readString path)
  pure { kind, url, format }

/-- `CacheModuleConfig` has no default: its `url` must be there. -/
def readCache (path : List String) (value : ConfigValue) : Except ConfigError CacheModuleConfig := do
  let entries ← readTable "struct CacheModuleConfig" value
  match entries.lookup "url" with
  | some url => pure { url := ← readUrl (path ++ ["url"]) url }
  | none => throw (.message (quoted "missing field `url`"))

/-- `conf.get::<FrameworkConfig>("fw")` once the value at `fw` is found. -/
def readFramework (path : List String) (value : ConfigValue) : Except ConfigError FrameworkConfig := do
  let entries ← readTable "struct FrameworkConfig" value
  let app ← readField entries path "app" {} readApp
  let adv ← readField entries path "adv" {} readAdv
  let confCenter ← readField entries path "conf_center" none fun path => readOption (readConfCenter path)
  let cache ← readField entries path "cache" none fun path => readOption (readCache path)
  pure { app, adv, confCenter, cache }

/-! ## Writing and reading JSON -/

def optionJson (write : α → Value) : Option α → Value
  | some value => write value
  | none => .null

def AppConfig.toJson (app : AppConfig) : Value := .object [("id", .string app.id)]

def AdvConfig.toJson (adv : AdvConfig) : Value :=
  .object [("backtrace", .bool adv.backtrace), ("salt", .string adv.salt)]

def ConfCenterConfig.toJson (center : ConfCenterConfig) : Value :=
  .object [("kind", .string center.kind), ("url", .string center.url), ("format", optionJson .string center.format)]

def CacheModuleConfig.toJson (cache : CacheModuleConfig) : Value := .object [("url", .string cache.url.text)]

/-- `Serialize` of `FrameworkConfig`: its fields in order, `None` as `null`. -/
def FrameworkConfig.toJson (fw : FrameworkConfig) : Value :=
  .object [("app", fw.app.toJson), ("adv", fw.adv.toJson), ("conf_center", optionJson ConfCenterConfig.toJson fw.confCenter),
    ("cache", optionJson CacheModuleConfig.toJson fw.cache)]

def jsonObject : Value → Except String (List (String × Value))
  | .object fields => .ok fields
  | _ => .error "invalid type, expected a struct"

def jsonString : Value → Except String String
  | .string s => .ok s
  | _ => .error "invalid type, expected a string"

def jsonBool : Value → Except String Bool
  | .bool b => .ok b
  | _ => .error "invalid type, expected a boolean"

def jsonOption (read : Value → Except String α) : Value → Except String (Option α)
  | .null => .ok none
  | value => some <$> read value

/-- A field of a `#[serde(default)]` struct read by serde_json. -/
def jsonField (fields : List (String × Value)) (key : String) (default : α) (read : Value → Except String α) :
    Except String α :=
  match fields.lookup key with
  | none => .ok default
  | some value => read value

def jsonUrl (value : Value) : Except String Url := jsonString value >>= Url.parse

def AppConfig.fromJson (value : Value) : Except String AppConfig := do
  let fields ← jsonObject value
  let id ← jsonField fields "id" "" jsonString
  pure { id }

def AdvConfig.fromJson (value : Value) : Except String AdvConfig := do
  let fields ← jsonObject value
  let backtrace ← jsonField fields "backtrace" false jsonBool
  let salt ← jsonField fields "salt" "" jsonString
  pure { backtrace, salt }

def ConfCenterConfig.fromJson (value : Value) : Except String ConfCenterConfig := do
  let fields ← jsonObject value
  let kind ← jsonField fields "kind" "nacos" jsonString
  let url ← jsonField fields "url" "" jsonString
  let format ← jsonField fields "format" none (jsonOption jsonString)
  pure { kind, url, format }

def CacheModuleConfig.fromJson (value : Value) : Except String CacheModuleConfig := do
  let fields ← jsonObject value
  match fields.lookup "url" with
  | some url => pure { url := ← jsonUrl url }
  | none => throw "missing field `url`"

/-- `serde_json::from_str::<FrameworkConfig>` once the text is read. -/
def FrameworkConfig.fromJson (value : Value) : Except String FrameworkConfig := do
  let fields ← jsonObject value
  let app ← jsonField fields "app" {} AppConfig.fromJson
  let adv ← jsonField fields "adv" {} AdvConfig.fromJson
  let confCenter ← jsonField fields "conf_center" none (jsonOption ConfCenterConfig.fromJson)
  let cache ← jsonField fields "cache" none (jsonOption CacheModuleConfig.fromJson)
  pure { app, adv, confCenter, cache }

theorem Url.parse_text (url : Url) : Url.parse url.text = .ok url := by
  simp [Url.parse, url.scheme]

/-- serde_json reads back every framework configuration it writes. -/
theorem FrameworkConfig.fromJson_toJson (fw : FrameworkConfig) : FrameworkConfig.fromJson fw.toJson = .ok fw := by
  obtain ⟨⟨id⟩, ⟨backtrace, salt⟩, confCenter, cache⟩ := fw
  rcases confCenter with _ | ⟨kind, url, _ | format⟩ <;> rcases cache with _ | ⟨cacheUrl⟩ <;>
    simp [FrameworkConfig.fromJson, FrameworkConfig.toJson, AppConfig.fromJson, AppConfig.toJson,
      AdvConfig.fromJson, AdvConfig.toJson, ConfCenterConfig.fromJson, ConfCenterConfig.toJson,
      CacheModuleConfig.fromJson, CacheModuleConfig.toJson, optionJson, jsonOption, jsonObject, jsonField,
      jsonString, jsonBool, jsonUrl, Url.parse_text, List.lookup_cons, bind, Except.bind] <;> rfl

end Tardis.Config
