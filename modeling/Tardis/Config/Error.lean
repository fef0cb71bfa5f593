import Mathlib.Data.List.Basic

/-! The errors of `config_processor.rs`: the `TardisError` it returns, the
`ConfigError` of the configuration library, the conversion between them, and the
panics that end a call without a result. -/

namespace Tardis.Config

/-- Modelled from the spec: the `TardisError` that `config_processor.rs` builds is
not under src/ (`src/src/basic/error.rs` is an older enum). Each constructor the
source calls keeps the message and the code it is given, under the kind of the
spec's error taxonomy it names. -/
inductive TardisError where
  | notFound (message code : String)
  | formatError (message code : String)
  | ioError (message code : String)
  | wrap (message code : String)
  deriving DecidableEq, Repr

/-- The variants of `ConfigError` that `From<ConfigError>` distinguishes, each with
the `Debug` text the conversion prints. -/
inductive ConfigError where
  | frozen (debug : String)
  | notFound (debug : String)
  | pathParse (debug : String)
  | fileParse (debug : String)
  | type (debug : String)
  | message (debug : String)
  | foreign (debug : String)
  deriving DecidableEq, Repr

/-- `impl From<ConfigError> for TardisError`. -/
def ConfigError.toTardisError : ConfigError → TardisError
  | .frozen debug => .ioError ("[Tardis.Config] " ++ debug) "503-tardis-config-frozen"
  | .notFound debug => .notFound ("[Tardis.Config] " ++ debug) "404-tardis-config-not-exist"
  | .pathParse debug => .formatError ("[Tardis.Config] " ++ debug) "406-tardis-config-parse-error"
  | .fileParse debug => .formatError ("[Tardis.Config] " ++ debug) "406-tardis-config-parse-error"
  | .type debug => .formatError ("[Tardis.Config] " ++ debug) "406-tardis-config-parse-error"
  | .message debug => .wrap ("[Tardis.Config] " ++ debug) "-1-tardis-config-custom-error"
  | .foreign debug => .wrap ("[Tardis.Config] " ++ debug) "-1-tardis-config-error"

/-- How a call ends when it returns no value: with an `Err`, or by panicking. -/
inductive Failure where
  | err (error : TardisError)
  | panic (message : String)
  deriving DecidableEq, Repr

/-- A `TardisResult` computation that may also panic. -/
abbrev Outcome := Except Failure

/-- The `?` operator applied to a `TardisResult`. -/
def Outcome.lift : Except TardisError α → Outcome α
  | .ok value => .ok value
  | .error error => .error (.err error)

/-- The `?` operator applied to a `Result` of the configuration library. -/
def Outcome.ofConfig : Except ConfigError α → Outcome α
  | .ok value => .ok value
  | .error error => .error (.err error.toTardisError)

@[simp] theorem Outcome.lift_ok (value : α) : Outcome.lift (.ok value) = .ok value := rfl
@[simp] theorem Outcome.ofConfig_ok (value : α) : Outcome.ofConfig (.ok value : Except ConfigError α) = .ok value := rfl

end Tardis.Config
