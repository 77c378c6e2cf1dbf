import TenantTables.Calendar.Iso
import TenantTables.Identifier
import TenantTables.Value.Basic

/-!
This module contains the form of values that can leave the program as JSON: moments, dates and
identifiers as text, and numbers without a place on the number line as null.
-/

namespace TenantTables.Value

mutual

def exchange : Value → Value
  | .real x => if x.isFinite then .real x else .null
  | .date d => .text d.print
  | .moment m => .text m.printExchange
  | .uuid n => .text (Identifier.print n)
  | .list items => .list (exchangeItems items)
  | .map entries => .map (exchangeEntries entries)
  | v => v

def exchangeItems : List Value → List Value
  | [] => []
  | v :: vs => exchange v :: exchangeItems vs

def exchangeEntries : List (String × Value) → List (String × Value)
  | [] => []
  | (k, v) :: es => (k, exchange v) :: exchangeEntries es

end

mutual

def isPlain : Value → Bool
  | .date _ => false
  | .moment _ => false
  | .uuid _ => false
  | .list items => itemsPlain items
  | .map entries => entriesPlain entries
  | _ => true

def itemsPlain : List Value → Bool
  | [] => true
  | v :: vs => isPlain v && itemsPlain vs

def entriesPlain : List (String × Value) → Bool
  | [] => true
  | (_, v) :: es => isPlain v && entriesPlain es

end

end TenantTables.Value
