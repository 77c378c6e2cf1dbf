import TenantTables.CommandLine.Command
import TenantTables.Json.Printer
import TenantTables.Operation.Query
import TenantTables.Operation.Transfer

namespace TenantTables

namespace Text

def unifyNewlines : List Char → List Char
  | [] => []
  | '\r' :: '\n' :: cs => '\n' :: unifyNewlines cs
  | '\r' :: cs => '\n' :: unifyNewlines cs
  | c :: cs => c :: unifyNewlines cs

def ofFile (content : String) : String :=
  String.ofList (unifyNewlines content.toList)

end Text

namespace CommandLine

inductive Reply where
  | text (s : String)
  | document (v : Value)
  | file (path content : String)

inductive Answer where
  | done (r : Reply)
  | failed (f : Failure)
  | noFile
  | usage

namespace Answer

def code : Answer → Nat
  | done _ => 0
  | failed _ => 1
  | noFile => 1
  | usage => 2

def output : Answer → String
  | done (.text s) => s
  | done (.document v) => Json.print v ++ "\n"
  | done (.file path _) => "Exported to " ++ path ++ "\n"
  | _ => ""

def errorOutput : Answer → String
  | failed f => "Error: " ++ f.message ++ "\n"
  | _ => ""

end Answer

def importReply (r : ImportResult) : Reply :=
  let rejected := if r.errors.isEmpty then "" else s!"Rejected {r.errors.length} rows\n"
  .text (s!"Imported {r.imported} records\n" ++ rejected)

namespace Command

def inputPath? : Command → Option String
  | importFile _ path _ => some path
  | _ => none

def program (settings : Settings) (input : String) : Command → Program Reply
  | init => return .text "Database initialized\n"
  | createTable request => return table (← Tables.create request true)
  | listTables tenantId =>
    return .document (.list ((← Tables.list tenantId).map (·.toExchange)))
  | addField tableId spec => return table (← Tables.addField tableId (.document spec))
  | insert tableId payload actor =>
    return .document (← Records.insert tableId payload actor).toDocument.exchange
  | query tableId options =>
    return .document (← Query.page settings tableId (.document options)).toDocument.exchange
  | deleteRecord tableId recordId => do
    discard (Records.softDelete tableId recordId)
    return .text s!"Deleted record {recordId}\n"
  | importFile tableId _ actor =>
    return importReply (← Transfer.importText settings tableId input actor)
  | exportFile tableId path includeLegacy => do
    let text ← Transfer.exportText settings tableId includeLegacy
    return match path with
      | none => .text text
      | some path => .file path text
where
  table (t : Table) : Reply := .document t.toExchange

def answer (settings : Settings) (source : Source) (store : Store) (input : Option String)
    (c : Command) : Answer × Store :=
  if c.inputPath?.isSome && input.isNone then (.noFile, store)
  else
    let text := (input.map Text.ofFile).getD ""
    let (result, w) := (c.program settings text).run source { store := store.prepare }
    match result with
    | .ok reply => (.done reply, w.store)
    | .error f => (.failed f, w.store)

end Command
end CommandLine
end TenantTables
