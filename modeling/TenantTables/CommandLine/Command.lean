import TenantTables.CommandLine.Arguments
import TenantTables.Json.Reader
import TenantTables.Operation.Tables

namespace TenantTables.CommandLine

inductive Command where
  | init
  | createTable (request : TableRequest)
  | listTables (tenantId : String)
  | addField (tableId : String) (spec : Value)
  | insert (tableId : String) (payload actor : Value)
  | query (tableId : String) (options : Value)
  | deleteRecord (tableId recordId : String)
  | importFile (tableId path : String) (actor : Value)
  | exportFile (tableId : String) (path : Option String) (includeLegacy : Bool)

structure Invocation where
  command : Command
  database : Option String

inductive Fault where
  | usage
  | failure (f : Failure)

abbrev Result (α : Type) := Except Fault α

def readJson (text : String) : Result Value :=
  match Json.read text with
  | .ok v => .ok v
  | .error .malformed => .error .usage
  | .error (.digitLimit digits) => .error (.failure (.digitLimit digits))

def readInt (text : String) : Result Int :=
  match readInteger? text with
  | some i => .ok i
  | none => .error .usage

def tidyPath (path : String) : String :=
  let parts := (path.splitOn "/").filter fun part => part != "" && part != "."
  let root := match (path.toList.takeWhile (· = '/')).length with
    | 0 => ""
    | 2 => "//"
    | _ => "/"
  let tidy := root ++ "/".intercalate parts
  if tidy.isEmpty then "." else tidy

def actorSwitch : Switch := { name := "actor", letter := some 'a' }

def querySwitches : List Switch :=
  [{ name := "filters", letter := some 'f' }, { name := "sort", letter := some 's' },
   { name := "order", letter := some 'o' }, { name := "page", letter := some 'p' },
   { name := "limit", letter := some 'n' }]

def exportSwitches : List Switch :=
  [{ name := "output", letter := some 'o' }, { name := "include-legacy", takesValue := false }]

def queryOptions (a : Arguments) : Result Value := do
  let order := (a.value? "order").getD SortOrder.asc.name
  if (SortOrder.names.lookup order).isNone then throw .usage
  let page ← ((a.value? "page").map readInt).getD (pure 1)
  let limit ← (a.value? "limit").mapM readInt
  let filters ← match a.value? "filters" with
    | none | some "" => pure []
    | some text => do pure [("filters", ← readJson text)]
  let sort := match a.value? "sort" with
    | none | some "" => []
    | some field => [("sort", .map [("field", .text field), ("order", .text order)])]
  let size := limit.toList.map fun n => ("limit", .int n)
  return .map (("page", .int page) :: filters ++ sort ++ size)

def switchesOf : String → List Switch
  | "create-table" => [{ name := "description", letter := some 'd' }]
  | "insert" => [actorSwitch]
  | "query" => querySwitches
  | "import-csv" => [actorSwitch]
  | "export-csv" => exportSwitches
  | _ => []

def Command.read (name : String) (a : Arguments) : Result Command :=
  let actor := Value.ofOption .text (a.value? "actor")
  match name, a.positional with
  | "init", [] => return .init
  | "create-table", [tenantId, table, displayName] =>
    return .createTable {
      tenantId := .text tenantId
      name := .text table
      displayName := .text displayName
      description := .ofOption .text (a.value? "description") }
  | "list-tables", [tenantId] => return .listTables tenantId
  | "add-field", [tableId, spec] => return .addField tableId (← readJson spec)
  | "insert", [tableId, payload] => return .insert tableId (← readJson payload) actor
  | "query", [tableId] => return .query tableId (← queryOptions a)
  | "delete-record", [tableId, recordId] => return .deleteRecord tableId recordId
  | "import-csv", [tableId, path] => return .importFile tableId (tidyPath path) actor
  | "export-csv", [tableId] =>
    return .exportFile tableId ((a.value? "output").map tidyPath) (a.has "include-legacy")
  | _, _ => throw .usage

def Invocation.read : List String → Result Invocation
  | [] => .error .usage
  | name :: args => do
    match Arguments.read ({ name := "db" } :: switchesOf name) args with
    | none => throw .usage
    | some a => return { command := ← Command.read name a, database := a.value? "db" }

end TenantTables.CommandLine
