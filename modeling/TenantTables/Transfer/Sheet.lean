import TenantTables.Text.Csv
import TenantTables.Text.Space
import TenantTables.Transfer.Report
import TenantTables.Value.Printed

namespace TenantTables

namespace Sheet

def trimRows (rows : List (List String)) : List (List String) :=
  (rows.map fun cells => cells.map Text.trim).filter fun cells => cells.any fun c => !c.isEmpty

/--
The cells of a row by the columns of the header, as far as both go. The last of several columns of one
name counts.
-/
def zipRow (header cells : List String) : Entries :=
  Entries.ofList ((header.zip cells).map fun (k, c) => (k, .text c))

def read (text : String) : Except Csv.Fault (List Entries) := do
  match trimRows (← Csv.read text) with
  | [] => return []
  | header :: rows => return rows.map (zipRow header)

def cell : Value → String
  | .null => ""
  | .bool b => if b then "true" else "false"
  | .moment m => m.print
  | v => v.print

def write (e : ExportResult) : String :=
  Csv.write (e.header :: e.rows.map fun row => e.header.map fun column => cell (row.get column))

end Sheet

end TenantTables
