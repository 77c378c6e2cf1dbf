/-!
This module contains tables of text in rows of cells with commas between them. A cell with a comma, a
quotation mark or a newline is written in quotation marks, with each quotation mark of its own twice.
-/

namespace TenantTables.Csv

inductive Fault where
  | strayReturn
  | longField
  deriving DecidableEq, Repr

def fieldLimit : Nat := 131072

def Fault.message : Fault → String
  | .strayReturn => "new-line character seen in unquoted field - do you need to open the file in " ++
      "universal-newline mode?"
  | .longField => "field larger than field limit (" ++ toString fieldLimit ++ ")"

inductive Place where
  | rowStart
  | cellStart
  | inCell
  | inQuotes
  | afterQuote
  | rowEnd
  deriving DecidableEq, Repr

/--
The reader in a row: its place, the characters of the current cell in reverse order, and the cells
before it in reverse order.
-/
structure State where
  place : Place := .rowStart
  cell : List Char := []
  length : Nat := 0
  cells : List String := []

namespace State

def add (s : State) (c : Char) (place : Place) : Except Fault State :=
  if s.length < fieldLimit then
    .ok { s with cell := c :: s.cell, length := s.length + 1, place }
  else .error .longField

def save (s : State) (place : Place) : State :=
  { s with cell := [], length := 0, cells := String.ofList s.cell.reverse :: s.cells, place }

def startCell (s : State) (c : Char) : Except Fault State :=
  if c = '\n' ∨ c = '\r' then .ok (s.save .rowEnd)
  else if c = '"' then .ok { s with place := .inQuotes }
  else if c = ',' then .ok (s.save .cellStart)
  else s.add c .inCell

def step (s : State) (c : Char) : Except Fault State :=
  match s.place with
  | .rowStart =>
    if c = '\n' ∨ c = '\r' then .ok { s with place := .rowEnd } else s.startCell c
  | .cellStart => s.startCell c
  | .inCell =>
    if c = '\n' ∨ c = '\r' then .ok (s.save .rowEnd)
    else if c = ',' then .ok (s.save .cellStart)
    else s.add c .inCell
  | .inQuotes =>
    if c = '"' then .ok { s with place := .afterQuote } else s.add c .inQuotes
  | .afterQuote =>
    if c = '"' then s.add c .inQuotes
    else if c = ',' then .ok (s.save .cellStart)
    else if c = '\n' ∨ c = '\r' then .ok (s.save .rowEnd)
    else s.add c .inCell
  | .rowEnd => if c = '\n' ∨ c = '\r' then .ok s else .error .strayReturn

def endLine (s : State) : State :=
  match s.place with
  | .rowStart => s
  | .rowEnd => { s with place := .rowStart }
  | .inQuotes => s
  | _ => s.save .rowStart

def row (s : State) : List String :=
  s.cells.reverse

end State

def lines : List Char → List (List Char)
  | [] => []
  | c :: cs =>
    if c = '\n' then [c] :: lines cs
    else
      match lines cs with
      | [] => [[c]]
      | line :: rest => (c :: line) :: rest

/--
Reads rows line by line. At the end of the text, a row that is still open counts with the cell it has
if that is not empty or started with a quotation mark.
-/
def readLines (s : State) : List (List Char) → Except Fault (List (List String))
  | [] =>
    .ok (if s.place = .inQuotes ∨ s.length ≠ 0 then [(s.save .rowStart).row] else [])
  | line :: rest => do
    let s := (← line.foldlM State.step s).endLine
    if s.place = .rowStart then return s.row :: (← readLines {} rest)
    else readLines s rest

def read (text : String) : Except Fault (List (List String)) :=
  readLines {} (lines text.toList)

def writeCell (cell : String) : List Char :=
  let cs := cell.toList
  if cs.any fun c => c = ',' || c = '"' || c = '\n' then
    '"' :: cs.flatMap (fun c => if c = '"' then ['"', '"'] else [c]) ++ ['"']
  else cs

def writeRow (cells : List String) : List Char :=
  match cells with
  | [""] => ['"', '"', '\n']
  | _ => List.intercalate [','] (cells.map writeCell) ++ ['\n']

def write (rows : List (List String)) : String :=
  String.ofList (rows.flatMap writeRow)

end TenantTables.Csv
