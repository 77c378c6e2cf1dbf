import Std.Time.DateTime.Timestamp
import TenantTables.CommandLine.Answer

namespace TenantTables.CommandLine

def readEnvironment : IO (List (String × String)) := do
  let names := ["DATABASE_PATH", "DEFAULT_PAGE_SIZE", "MAX_PAGE_SIZE", "EXPORT_LIMIT",
    "IMPORT_HEADER_OFFSET", "LOG_LEVEL"]
  let mut found := []
  for name in names do
    let name := "RECORDBASE_" ++ name
    if let some text ← IO.getEnv name then found := found ++ [(name, text)]
  return found

def readFile? (path : String) : IO (Option String) := do
  try
    return some (← IO.FS.readFile path)
  catch _ => return none

def readStore (path : String) : IO Store := do
  match ← readFile? path with
  | none => return {}
  | some content =>
    match Json.read content with
    | .error _ => throw (IO.userError (path ++ " is no storage"))
    | .ok v =>
      match Document.Reader.store v with
      | .value s => return s
      | _ => throw (IO.userError (path ++ " is no storage"))

def readClock : IO Moment := do
  let now ← Std.Time.Timestamp.now
  let epoch : Moment := { (default : Moment) with
    date := ⟨1970, 1, 1, by decide⟩
    offset := some 0 }
  let micros := now.toNanosecondsSinceUnixEpoch.val / 1000
  return (epoch.addMicroseconds? micros).getD epoch

def readSource : IO Source := do
  let count := Nat.pow 2 128
  let first ← IO.rand 0 (count - 1)
  let now ← readClock
  return {
    identifiers := fun n => Identifier.print ((first + n) % count)
    clock := fun _ => now }

def runInvocation (settings : Settings) (i : Invocation) : IO UInt32 := do
  let path := i.database.getD settings.databasePath
  let input ← match i.command.inputPath? with
    | some p => readFile? p
    | none => pure none
  let (answer, store) := i.command.answer settings (← readSource) (← readStore path) input
  IO.FS.writeFile path (Json.print store.toDocument)
  if let .done (.file target content) := answer then IO.FS.writeFile target content
  IO.print answer.output
  IO.eprint answer.errorOutput
  return answer.code.toUInt32

end TenantTables.CommandLine

def main (args : List String) : IO UInt32 := do
  match TenantTables.CommandLine.Invocation.read args with
  | .error .usage =>
    IO.eprintln "usage: COMMAND ARGUMENT ... [--db FILE]"
    return 2
  | .error (.failure f) =>
    IO.eprintln ("Error: " ++ f.message)
    return 1
  | .ok i =>
    match TenantTables.Settings.read (← TenantTables.CommandLine.readEnvironment) [] with
    | .value settings => TenantTables.CommandLine.runInvocation settings i
    | r =>
      match r.toOutcome with
      | .error f => IO.eprintln ("Error: " ++ f.message)
      | .ok _ => pure ()
      return 1
