import CrmEmulator.Config
import CrmEmulator.Http.Exchange
import CrmEmulator.Http.Service
import Std.Time.DateTime.Timestamp

/-!
# CrmEmulator.Main — the program

The program is configured by its command line and its environment.  It reads object definitions from
its standard input, one on each line up to an empty line, and then requests, one on each line; each
request is answered by one line on the standard output.
-/

namespace CrmEmulator

namespace Main

def usage : String :=
  "usage: [--host HOST] [--port PORT] [--schema-dir DIR] [--api-version VERSION] " ++
    "[--long-poll-ms MS] [--instance-url URL]"

/-- The time, in milliseconds since the beginning of 1970. -/
def clock : IO Nat := do
  return (← Std.Time.Timestamp.now).toMillisecondsSinceUnixEpoch.val.toNat

/-- The object definitions up to an empty line; a line that is none is passed over. -/
partial def readSchemas (input : IO.FS.Stream) (c : Catalog) : IO Catalog := do
  let line := trim (← input.getLine).toList
  if line.isEmpty then return c
  match Catalog.schemaOfText? line with
  | some s => readSchemas input (c.insert s)
  | none => readSchemas input c

/-- Answer requests until the input ends. -/
partial def serve (input output : IO.FS.Stream) (o : Org) : IO Unit := do
  let line ← input.getLine
  if line.isEmpty then return
  match (Json.parse? (trim line.toList)).bind Http.Request.ofJson? with
  | some request =>
    let (response, o) := Http.respond (o.atTime (← clock)) request
    output.putStrLn ((response.map (·.toJson)).getD Http.unanswered).compact
    output.flush
    serve input output o
  | none =>
    output.putStrLn Http.unreadable.compact
    output.flush
    serve input output o

/-- Serve the organisation that the command line and the environment configure. -/
def run (words : List String) : IO UInt32 := do
  let mut values : List (String × String) := []
  for s in Setting.all do
    if let some value ← IO.getEnv s.variableName then
      values := (s.variableName, value) :: values
  match Config.ofCommandLine? words fun name => values.lookup name with
  | none =>
    (← IO.getStderr).putStrLn usage
    return 2
  | some config =>
    let input ← IO.getStdin
    let catalog ← readSchemas input .empty
    let supply : Supply := ⟨← IO.rand 0 1000000000000000000, ← clock⟩
    serve input (← IO.getStdout) (.ofCatalog catalog config.settings supply)
    return 0

end Main

end CrmEmulator

def main (words : List String) : IO UInt32 := CrmEmulator.Main.run words
