import CrmEmulator.Org.Basic
import CrmEmulator.Text.Numeral

/-!
# CrmEmulator.Config — the configuration of the program

1. `Setting`: what can be set, by an option of the command line or a variable of the environment.
2. `readOptions?`: the options of a command line.
3. `Config.ofCommandLine?`: the configuration, in which an option wins over a variable and a
   variable over the default.
-/

namespace CrmEmulator

/-! ## Settings by name -/

inductive Setting
  | host
  | port
  | schemaDir
  | apiVersion
  | longPoll
  | instanceUrl
deriving Repr, DecidableEq

namespace Setting

/-- The name of the option, which follows two dashes. -/
def optionName : Setting → String
  | host => "host"
  | port => "port"
  | schemaDir => "schema-dir"
  | apiVersion => "api-version"
  | longPoll => "long-poll-ms"
  | instanceUrl => "instance-url"

/-- The variable of the environment. -/
def variableName : Setting → String
  | host => "SFMOCK_HOST"
  | port => "SFMOCK_PORT"
  | schemaDir => "SCHEMA_DIR"
  | apiVersion => "SFMOCK_API_VERSION"
  | longPoll => "SFMOCK_LONG_POLL_MS"
  | instanceUrl => "SFMOCK_INSTANCE_URL"

def all : List Setting := [host, port, schemaDir, apiVersion, longPoll, instanceUrl]

def ofOption? (name : String) : Option Setting := all.find? (·.optionName == name)

end Setting

/-! ## Options -/

/-- May a word follow an option as its value?  Words that begin with a dash are options, but for a
single dash. -/
def isOptionValue (word : String) : Bool := word == "-" || word.toList.head? != some '-'

/-- The options of a command line with their values, in order.  Nothing but options is accepted;
two dashes alone may stand at the end. -/
def readOptions? : List String → Option (List (Setting × String))
  | [] => some []
  | word :: words =>
    match afterBeginning? "--".toList word.toList with
    | none => none
    | some [] => if words.isEmpty then some [] else none
    | some cs =>
      match cutAt? '=' cs with
      | some (name, value) => do
        let setting ← Setting.ofOption? (String.ofList name)
        return (setting, String.ofList value) :: (← readOptions? words)
      | none => do
        let setting ← Setting.ofOption? (String.ofList cs)
        match words with
        | value :: words =>
          if isOptionValue value then return (setting, value) :: (← readOptions? words) else none
        | [] => none

/-! ## Configuration -/

structure Config where
  host : String
  port : Nat
  schemaDir : String
  apiVersion : String
  /-- How long a streaming client waits for events, in milliseconds. -/
  longPoll : Nat
  instanceUrl : Option String
deriving Repr, DecidableEq

namespace Config

/-- A port, written as a whole number. -/
def readPort? (written : String) : Option Nat :=
  (Numeral.int64? written.toList).bind fun n =>
    if 0 ≤ n.toInt ∧ n.toInt < 65536 then some n.toInt.toNat else none

/-- The configuration of a command line in an environment.  An option must not be repeated, and
the directory must not be empty. -/
def ofCommandLine? (words : List String) (environment : String → Option String) : Option Config := do
  let options ← readOptions? words
  if !(options.map (·.1)).Nodup then none
  let written? (s : Setting) : Option String := (options.lookup s).or (environment s.variableName)
  let schemaDir := (written? .schemaDir).getD "/app/schemas"
  if schemaDir.isEmpty then none
  return {
    host := (written? .host).getD "0.0.0.0"
    port := ← readPort? ((written? .port).getD "8080")
    schemaDir
    apiVersion := (written? .apiVersion).getD "59.0"
    longPoll := ← Numeral.count? 64 ((written? .longPoll).getD "0").toList
    instanceUrl := written? .instanceUrl }

/-- The address to which the program listens. -/
def address (c : Config) : String := c.host ++ ":" ++ toString c.port

/-- The address under which the program is reached unless another is set. -/
def localUrl (c : Config) : String :=
  "http://" ++ (if c.host = "0.0.0.0" then "localhost" else c.host) ++ ":" ++ toString c.port

def settings (c : Config) : Settings where
  apiVersion := Job.plainVersion c.apiVersion
  longPoll := c.longPoll
  instanceUrl := c.instanceUrl.getD c.localUrl

end Config

end CrmEmulator
