import TenantTables.Failure
import TenantTables.Json.Printer
import TenantTables.Record
import TenantTables.Value.Equality

/-!
This module contains the filters of storage. A filter asks for one value under one key of the data of a
record, and storage answers it from the JSON text that it keeps of the data.
-/

namespace TenantTables

def fitsWord (i : Int) : Bool :=
  Document.Reader.wordRange.1 ≤ i && i ≤ Document.Reader.wordRange.2

/--
The path of a key in the JSON text of data. Nothing stands for a quotation mark or a backslash in it.
-/
def jsonPath (key : String) : Outcome String :=
  if key.toList.any fun c => c = '"' || c = '\\' then .error (.jsonKey key)
  else .ok ("$.\"" ++ key ++ "\"")

inductive Wanted where
  | nothing
  | truth (b : Bool)
  | number (place : Option Binary64.Place)
  | text (s : String)
  deriving DecidableEq

structure Filter where
  key : String
  wanted : Wanted
  deriving DecidableEq

def Moment.printStored (m : Moment) : String :=
  let time := printTime m.time.val
  m.date.print ++ " " ++ time ++ (if m.time.val % Calendar.second = 0 then ".000000" else "")

namespace Wanted

def ofValue : Value → Outcome Wanted
  | .null => .ok .nothing
  | .bool b => .ok (.truth b)
  | .int i => if fitsWord i then .ok (.number (some (.ofInt i))) else .error .wideInteger
  | .real x => .ok (.number x.place?)
  | .text s => .ok (.text s)
  | .date d => .ok (.text d.print)
  | .moment m => .ok (.text m.printStored)
  | .uuid n => .ok (.text (String.ofList (Text.hexDigits 32 n)))
  | .list _ => .error (.storage .unsupported)
  | .map _ => .error (.storage .unsupported)

end Wanted

inductive Column where
  | null
  | number (place : Binary64.Place)
  | text (s : String)
  deriving DecidableEq

namespace Column

def ofPlace : Option Binary64.Place → Column
  | some p => .number p
  | none => .null

def equals : Column → Column → Bool
  | .number p, .number q => p == q
  | .text s, .text t => s == t
  | _, _ => false

end Column

namespace Json

def kindOf : Value → String
  | .null => "null"
  | .bool b => if b then "true" else "false"
  | .int _ => "integer"
  | .real _ => "real"
  | .list _ => "array"
  | .map _ => "object"
  | .text _ | .date _ | .moment _ | .uuid _ => "text"

/--
The value that is extracted from JSON text. A truth value comes out as a number, an integer that is too
wide as the nearest double, a text up to its first null character, and a list or a map as its own JSON text.
-/
def extract : Value → Column
  | .null => .null
  | .bool b => .number (.ofInt (if b then 1 else 0))
  | .int i => if fitsWord i then .number (.ofInt i) else .ofPlace (Binary64.ofInt i).place?
  | .real x => .ofPlace x.place?
  | .text s => .text (String.ofList (s.toList.takeWhile (· ≠ '\x00')))
  | .date d => .text d.print
  | .moment m => .text m.print
  | .uuid n => .text (Identifier.print n)
  | v@(.list _) => .text (printDense v)
  | v@(.map _) => .text (printDense v)

end Json

def Wanted.holds (kind : Option String) (extracted : Column) : Wanted → Bool
  | .nothing => extracted == .null
  | .truth b => kind == some (if b then "true" else "false")
  | .number place =>
    (kind == some "integer" || kind == some "real") && extracted.equals (.ofPlace place)
  | .text s => kind == some "text" && extracted.equals (.text s)

namespace Filter

/--
Keys are found by their JSON text, which is the key itself only for printable ASCII.
-/
def isPlainKey (key : String) : Bool :=
  key.toList.all fun c => ' ' ≤ c && c ≤ '~'

def find? (data : Entries) (key : String) : Option Value :=
  if isPlainKey key then data.get? key else none

def accepts (f : Filter) (data : Entries) : Bool :=
  let found := find? data f.key
  f.wanted.holds (found.map Json.kindOf) (found.elim .null Json.extract)

/--
A key that holds a null character has a path that ends too early.
-/
def isCut (f : Filter) : Bool :=
  f.key.toList.contains '\x00'

def readAll (entries : Entries) : Outcome (List Filter) :=
  entries.mapM fun (key, v) => return { key, wanted := ← Wanted.ofValue v }

def checkPaths (entries : Entries) : Outcome Unit :=
  entries.forM fun e => discard (jsonPath e.1)

end Filter

mutual

def Value.isStrictJson : Value → Bool
  | .real x => x.isFinite
  | .list items => itemsStrict items
  | .map entries => entriesStrict entries
  | _ => true

def Value.itemsStrict : List Value → Bool
  | [] => true
  | v :: vs => isStrictJson v && itemsStrict vs

def Value.entriesStrict : List (String × Value) → Bool
  | [] => true
  | (_, v) :: es => isStrictJson v && entriesStrict es

end

namespace Record

/--
The records that meet all filters. If storage has to look into data, it must be able to read all of it.
-/
def filterAll (filters : List Filter) (records : List Record) : Outcome (List Record) :=
  if filters.isEmpty then .ok records
  else if records.any fun r => !(Value.map r.data).isStrictJson || filters.any Filter.isCut then
    .error (.storage .operational)
  else .ok (records.filter fun r => filters.all fun f => f.accepts r.data)

end Record

end TenantTables
