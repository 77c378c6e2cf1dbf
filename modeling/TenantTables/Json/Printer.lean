import TenantTables.Number.Shortest
import TenantTables.Text.Character
import TenantTables.Text.Quoted
import TenantTables.Value.Exchange

/-!
This module contains the writing of JSON text in ASCII, with one item or member on a line or without any
space.
-/

namespace TenantTables.Json

def printUnit (n : Nat) : String :=
  "\\u" ++ String.ofList (Text.hexDigits 4 n)

def printChar (c : Char) : String :=
  let n := c.toNat
  if c = '"' then "\\\""
  else if c = '\\' then "\\\\"
  else if c = '\n' then "\\n"
  else if c = '\r' then "\\r"
  else if c = '\t' then "\\t"
  else if n = 8 then "\\b"
  else if n = 12 then "\\f"
  else if 32 ≤ n && n < 127 then c.toString
  else if n < 0x10000 then printUnit n
  else printUnit (0xd800 + (n - 0x10000) / 0x400) ++ printUnit (0xdc00 + (n - 0x10000) % 0x400)

def printText (s : String) : String :=
  "\"" ++ String.join (s.toList.map printChar) ++ "\""

def printReal : Binary64 → String
  | .nan => "NaN"
  | .infinite false => "Infinity"
  | .infinite true => "-Infinity"
  | x => x.print

def printBlock (start stop indent : String) (lines : List String) : String :=
  if lines.isEmpty then start ++ stop
  else
    let line (s : String) : String := "\n" ++ indent ++ "  " ++ s
    start ++ ",".intercalate (lines.map line) ++ "\n" ++ indent ++ stop

mutual

def printFrom (indent : String) : Value → String
  | .null => "null"
  | .bool b => if b then "true" else "false"
  | .int i => toString i
  | .real x => printReal x
  | .text s => printText s
  | .date d => printText d.print
  | .moment m => printText m.print
  | .uuid n => printText (Identifier.print n)
  | .list items => printBlock "[" "]" indent (printItems (indent ++ "  ") items)
  | .map entries => printBlock "\x7b" "\x7d" indent (printMembers (indent ++ "  ") entries)

def printItems (indent : String) : List Value → List String
  | [] => []
  | v :: vs => printFrom indent v :: printItems indent vs

def printMembers (indent : String) : List (String × Value) → List String
  | [] => []
  | (k, v) :: es => (printText k ++ ": " ++ printFrom indent v) :: printMembers indent es

end

def print (v : Value) : String :=
  printFrom "" v

mutual

def printDense : Value → String
  | .list items => "[" ++ ",".intercalate (printDenseItems items) ++ "]"
  | .map entries => "\x7b" ++ ",".intercalate (printDenseMembers entries) ++ "\x7d"
  | v => print v

def printDenseItems : List Value → List String
  | [] => []
  | v :: vs => printDense v :: printDenseItems vs

def printDenseMembers : List (String × Value) → List String
  | [] => []
  | (k, v) :: es => (printText k ++ ":" ++ printDense v) :: printDenseMembers es

end

end TenantTables.Json
