import TenantTables.Calendar.Moment

namespace TenantTables

def Calendar.padded (width n : Nat) : String :=
  let ds := (Nat.repr n).toList
  String.ofList (List.replicate (width - ds.length) '0' ++ ds)

open Calendar

def Date.print (d : Date) : String :=
  padded 4 d.year ++ "-" ++ padded 2 d.month ++ "-" ++ padded 2 d.day

namespace Moment

def printTime (t : Nat) : String :=
  let fraction := if t % second = 0 then "" else "." ++ padded 6 (t % second)
  padded 2 (t / hour) ++ ":" ++ padded 2 (t / minute % 60) ++ ":" ++ padded 2 (t / second % 60) ++
    fraction

def printOffset (offset : Int) : String :=
  let n := offset.natAbs
  let sign := if offset < 0 then "-" else "+"
  let short := padded 2 (n / hour) ++ ":" ++ padded 2 (n / minute % 60)
  if n % minute = 0 then sign ++ short else sign ++ printTime n

def printWith (separator : String) (m : Moment) : String :=
  m.date.print ++ separator ++ printTime m.time.val ++
    (match m.offset with
      | none => ""
      | some o => printOffset o)

def print (m : Moment) : String :=
  m.printWith "T"

def printExchange (m : Moment) : String :=
  m.date.print ++ "T" ++ printTime m.time.val ++
    (match m.offset with
      | none => ""
      | some o =>
        if o.natAbs < second then "Z"
        else
          let n := o.natAbs
          (if o < 0 then "-" else "+") ++ padded 2 (n / hour) ++ ":" ++ padded 2 (n / minute % 60))

end Moment
end TenantTables
