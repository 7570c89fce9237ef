import LedgerWatch.Settings.Environment
import LedgerWatch.Settings.LogFilter
import LedgerWatch.Text.Json

/-!
# Settings of the log

Under which name, how much, where and in which form is logged.

## Main definitions

- `TelemetrySettings`, `TelemetrySettings.ofEnvironment`, `TelemetrySettings.forPlugin`,
  `TelemetrySettings.ofJson?`
- `TelemetryFault`: why logging could not be set up
- `installLog`: sets it up
-/

namespace LedgerWatch

structure TelemetrySettings where
  serviceName : String := "node-bridge"
  /-- A level or a whole filter. -/
  logLevel : String := "info"
  consoleOutput : Bool := true
  jsonLogs : Bool := false
  deriving DecidableEq

namespace TelemetrySettings

/-- Whether a text switches something on, which everything does but four words. No character
outside ASCII has an ASCII letter of these words as its lower case, so the case of other characters
does not matter. -/
def isOn (text : String) : Bool :=
  !(["false", "0", "no", "off"].contains (text.map Char.toLower))

/-- Settings from the environment. Inside a container the log is in JSON unless told otherwise. -/
def ofEnvironment (env : Environment) : TelemetrySettings :=
  let defaults : TelemetrySettings := {}
  let inContainer :=
    (env.get? "KUBERNETES_SERVICE_HOST").isSome || (env.get? "DOCKER_CONTAINER").isSome
  { serviceName := (env.get? "OTEL_SERVICE_NAME").getD defaults.serviceName
    logLevel := ((env.get? "NODE_BRIDGE_LOG_LEVEL").or (env.get? "RUST_LOG")).getD defaults.logLevel
    consoleOutput := ((env.get? "NODE_BRIDGE_CONSOLE_OUTPUT").map isOn).getD true
    jsonLogs := ((env.get? "NODE_BRIDGE_JSON_LOGS").map isOn).getD inContainer }

/-- Settings from the environment for a plugin, under its own name. -/
def forPlugin (env : Environment) (plugin : String) : TelemetrySettings :=
  { ofEnvironment env with
    serviceName := ({} : TelemetrySettings).serviceName ++ "-" ++ plugin }

def ofJson? (document : String) : Option TelemetrySettings := do
  let json ← Json.parse? document
  let defaults : TelemetrySettings := {}
  match ← json.fields? ["service_name", "log_level", "console_output", "json_logs"] with
  | [name, level, console, jsonLogs] =>
    return {
      serviceName := ← Json.fieldOr defaults.serviceName Json.text? name
      logLevel := ← Json.fieldOr defaults.logLevel Json.text? level
      consoleOutput := ← Json.fieldOr defaults.consoleOutput Json.bool? console
      jsonLogs := ← Json.fieldOr defaults.jsonLogs Json.bool? jsonLogs }
  | _ => none

end TelemetrySettings

/-- Why logging could not be set up. -/
inductive TelemetryFault where
  | filter (reason : String)
  | subscriber (reason : String)
  deriving DecidableEq

def TelemetryFault.message : TelemetryFault → String
  | filter reason => "Invalid log filter: " ++ reason
  | subscriber reason => "Failed to install tracing subscriber: " ++ reason

/-- Sets up logging, unless it has been set up before. The filter of the environment comes before
that of the settings, provided that it is one. -/
def installLog (env : Environment) (settings : TelemetrySettings) (installed : Bool) :
    Except TelemetryFault (List LogFilter.Directive) := do
  let fromEnvironment := (env.get? "RUST_LOG").bind fun text => (LogFilter.parse text).toOption
  let directives ← match fromEnvironment with
    | some directives => pure directives
    | none => (LogFilter.parse settings.logLevel).mapError fun defect => .filter defect.message
  if installed then throw (.subscriber "a global default trace dispatcher has already been set")
  return directives

end LedgerWatch
