import TenantTables.Document.Reading
import TenantTables.Formula.Token
import TenantTables.Text.Csv
import TenantTables.Value.Printed

namespace TenantTables

inductive Rule where
  | required (label : String)
  | number (label : String)
  | boolean (label : String)
  | date (label : String)
  | text (label : String)
  | atLeast (label : String) (bound : Binary64)
  | atMost (label : String) (bound : Binary64)
  | longEnough (label : String) (bound : Binary64)
  | shortEnough (label : String) (bound : Binary64)
  | pattern (label pattern : String)
  | unique (label : String)
  | snakeCase (kind : String)
  | nameFree (kind : String)
  | pageLimit (limit : Int)
  | filterKey (key : String)
  | filterScalar (key : String)
  | sourceField
  | targetField
  | document (m : Document.Mismatch)
  deriving DecidableEq

structure Violation where
  rule : Rule
  field : Option String
  value : Value
  deriving DecidableEq

inductive StorageFault where
  | operational
  | integrity
  | statement
  | unsupported
  deriving DecidableEq, Repr

inductive Failure where
  | violation (v : Violation)
  | notFound (resource : String)
  | foreignRecord (recordId tableId : String)
  | misfit (first : Document.Issue) (rest : List Document.Issue)
  | halted (h : Document.Halt)
  | storage (f : StorageFault)
  | formula (f : Formula.Fault)
  | csv (f : Csv.Fault)
  | identifier (f : Identifier.Fault)
  | badText (reason : String)
  | digitLimit (digits : Nat)
  | jsonKey (key : String)
  | orderColumn (name : String)
  | wideInteger
  | notIterable (kind : String)
  | notMapping (kind : String)
  | notSequence (position : Nat)
  | notPair (position length : Nat)
  | noMember (kind name : String)
  deriving DecidableEq

abbrev Outcome (α : Type) := Except Failure α

def Binary64.printBound (x : Binary64) : String :=
  match x.toInt? with
  | some i => toString i
  | none => x.print

namespace Rule

def message (value : Value) : Rule → String
  | .required label => "Field \"" ++ label ++ "\" is required"
  | .number label => "Field \"" ++ label ++ "\" must be a number"
  | .boolean label => "Field \"" ++ label ++ "\" must be a boolean"
  | .date label => "Field \"" ++ label ++ "\" must be a valid date"
  | .text label => "Field \"" ++ label ++ "\" must be a string"
  | .atLeast label bound => "Field \"" ++ label ++ "\" must be at least " ++ bound.printBound
  | .atMost label bound => "Field \"" ++ label ++ "\" must be at most " ++ bound.printBound
  | .longEnough label bound =>
    "Field \"" ++ label ++ "\" must be at least " ++ bound.printBound ++ " characters"
  | .shortEnough label bound =>
    "Field \"" ++ label ++ "\" must be at most " ++ bound.printBound ++ " characters"
  | .pattern label _ => "Field \"" ++ label ++ "\" does not match required pattern"
  | .unique label => "Value \"" ++ value.print ++ "\" for field \"" ++ label ++ "\" already exists"
  | .snakeCase kind =>
    kind ++ " name must be in snake_case (lowercase letters, numbers, and underscores only, " ++
      "starting with a letter)"
  | .nameFree kind => kind ++ " with name \"" ++ value.print ++ "\" already exists"
  | .pageLimit limit => "limit must be at most " ++ toString limit
  | .filterKey key => "Cannot filter on \"" ++ key ++ "\""
  | .filterScalar key => "Filter value for \"" ++ key ++ "\" must be a scalar"
  | .sourceField => "Field \"" ++ value.print ++ "\" not found in source table"
  | .targetField => "Field \"" ++ value.print ++ "\" not found in target table"
  | .document m => m.message

def constraint : Rule → String
  | .required _ => "required"
  | .number _ | .boolean _ | .date _ | .text _ => "type"
  | .atLeast .. | .longEnough .. => "min"
  | .atMost .. | .shortEnough .. | .pageLimit _ => "max"
  | .pattern .. | .snakeCase _ => "pattern"
  | .unique _ | .nameFree _ => "unique"
  | .filterKey _ => "filter_key"
  | .filterScalar _ => "filter_value"
  | .sourceField | .targetField => "exists"
  | .document m => m.code

def details : Rule → Entries
  | .atLeast _ bound | .longEnough _ bound => [("min", .real bound)]
  | .atMost _ bound | .shortEnough _ bound => [("max", .real bound)]
  | .pattern _ p => [("pattern", .text p)]
  | _ => []

end Rule

inductive ReportKind where
  | general
  | validation
  | notFound
  | integrity
  deriving DecidableEq, Repr

namespace ReportKind

def code : ReportKind → String
  | .general => "RECORDBASE_ERROR"
  | .validation => "VALIDATION_ERROR"
  | .notFound => "NOT_FOUND"
  | .integrity => "INTEGRITY_ERROR"

def status : ReportKind → Nat
  | .general => 500
  | .validation => 400
  | .notFound => 404
  | .integrity => 409

end ReportKind

structure Report where
  kind : ReportKind
  message : String
  details : Entries
  deriving DecidableEq

namespace Report

def validation (message : String) (field : Option String) (value : Value)
    (constraint : Option String) (others : Entries) : Report where
  kind := .validation
  message := message
  details :=
    let details := match field with
      | some f => (others.put "field" (.text f)).put "value" value
      | none => others
    match constraint with
    | some c => details.put "constraint" (.text c)
    | none => details

def notFound (resource : String) : Report where
  kind := .notFound
  message := resource ++ " not found"
  details := [("resource", .text resource)]

end Report

def Violation.message (v : Violation) : String :=
  v.rule.message v.value

def Violation.report (v : Violation) : Report :=
  .validation v.message v.field v.value (some v.rule.constraint) v.rule.details

def Failure.report? : Failure → Option Report
  | .violation v => some v.report
  | .notFound resource => some (.notFound resource)
  | .foreignRecord recordId tableId =>
    some ⟨.integrity, "Record does not belong to this table",
      [("record_id", .text recordId), ("table_id", .text tableId)]⟩
  | _ => none

inductive FaultKind where
  | misfit
  | operational
  | integrity
  | statement
  | unsupported
  | formula
  | csv
  | kind
  | value
  | overflow
  | member
  deriving DecidableEq, Repr

namespace Failure

def faultKind : Failure → FaultKind
  | .storage .operational => .operational
  | .storage .integrity => .integrity
  | .storage .statement => .statement
  | .storage .unsupported => .unsupported
  | .formula (.digitLimit _) | .formula .longInteger => .value
  | .formula _ => .formula
  | .csv _ => .csv
  | .halted h => if h.isOverflow then .overflow else .kind
  | .wideInteger => .overflow
  | .notIterable _ | .notMapping _ | .notSequence _ => .kind
  | .noMember .. => .member
  | .misfit .. => .misfit
  | _ => .value

def message : Failure → String
  | .violation v => v.message
  | .notFound resource => resource ++ " not found"
  | .foreignRecord .. => "Record does not belong to this table"
  | .misfit first _ => first.mismatch.message
  | .halted h => h.message
  | .storage _ => ""
  | .formula f => f.message
  | .csv f => f.message
  | .identifier f => f.message
  | .badText reason => reason
  | .digitLimit digits => digitLimitMessage digits
  | .jsonKey key => "unsupported key for JSON path: " ++ Text.quoted key
  | .orderColumn name => "cannot order records by '" ++ name ++ "'"
  | .wideInteger => "Python int too large to convert to SQLite INTEGER"
  | .notIterable kind => "'" ++ kind ++ "' object is not iterable"
  | .notMapping kind => "'" ++ kind ++ "' object is not a mapping"
  | .notSequence position =>
    "cannot convert dictionary update sequence element #" ++ toString position ++ " to a sequence"
  | .notPair position length =>
    "dictionary update sequence element #" ++ toString position ++ " has length " ++
      toString length ++ "; 2 is required"
  | .noMember kind name => "'" ++ kind ++ "' object has no attribute '" ++ name ++ "'"

end Failure

namespace Document.Reading

def toOutcome : Reading α → Except Failure α
  | .value a => .ok a
  | .issues first rest => .error (.misfit first rest)
  | .halted h => .error (.halted h)

def toRequest : Reading α → Except Failure α
  | .value a => .ok a
  | .issues first _ =>
    .error (.violation
      { rule := .document first.mismatch
        field := if first.location.isEmpty then none else some first.location
        value := first.input })
  | .halted h => .error (.halted h)

end Document.Reading

def reject (rule : Rule) (field : String) (value : Value) : Except Failure α :=
  .error (.violation { rule, field := some field, value })

end TenantTables
