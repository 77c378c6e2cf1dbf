import TenantTables.Number.Binary64

/-!
This module contains the decimal text of double precision numbers: the fewest digits that read
back as the number, and of those the nearest.
-/

namespace TenantTables.Binary64

structure Decimal where
  digits : Nat
  exponent : Int
  deriving DecidableEq, Repr

namespace Decimal

def toBinary64 (d : Decimal) : Binary64 :=
  ofDecimal false d.digits d.exponent

def strip (d : Decimal) : Decimal :=
  go d.digits d.digits d.exponent
where
  go : Nat → Nat → Int → Decimal
    | 0, digits, exponent => ⟨digits, exponent⟩
    | fuel + 1, digits, exponent =>
      if digits % 10 = 0 then go (fuel / 10) (digits / 10) (exponent + 1) else ⟨digits, exponent⟩
  termination_by n _ _ => n

end Decimal

/--
The power of ten of the leading digit of a positive magnitude. Scaling by `10 ^ 400` brings every
magnitude above one.
-/
def leadingPower (units : Nat) : Int :=
  ((Nat.repr (units * Nat.pow 10 400 / one)).length : Int) - 401

def overPower (units : Nat) (scale : Int) : Nat × Nat :=
  if 0 ≤ scale then (units, one * Nat.pow 10 scale.toNat)
  else (units * Nat.pow 10 (-scale).toNat, one)

/--
The neighbour of the magnitude on the grid of multiples of `10 ^ scale` that reads back as `x`, and
the nearer one if both do. Halfway goes to the even neighbour.
-/
def onGrid? (x : Binary64) (units : Nat) (scale : Int) : Option Decimal :=
  let (num, den) := overPower units scale
  let low : Decimal := ⟨num / den, scale⟩
  let high : Decimal := ⟨num / den + 1, scale⟩
  let near : Decimal := ⟨nearestEven num den, scale⟩
  if near.toBinary64 = x then some near
  else if low.toBinary64 = x then some low
  else if high.toBinary64 = x then some high
  else none

def exactDecimal (units : Nat) : Decimal :=
  ⟨units * Nat.pow 5 binaryPlaces, -binaryPlaces⟩

def shortDecimal? (x : Binary64) : Option Decimal :=
  let units := x.units
  let top := leadingPower units
  (List.range 17).findSome? fun (n : Nat) => onGrid? x units (top - n)

def shortest (x : Binary64) : Decimal :=
  ((shortDecimal? x).getD (exactDecimal x.units)).strip

def Decimal.layout (d : Decimal) : String :=
  let ds := (Nat.repr d.digits).toList
  let top : Int := d.exponent + ds.length - 1
  if -4 ≤ top ∧ top < 16 then
    if top < 0 then
      String.ofList ('0' :: '.' :: List.replicate (-top - 1).toNat '0' ++ ds)
    else
      let whole := (top + 1).toNat
      if ds.length ≤ whole then
        String.ofList (ds ++ List.replicate (whole - ds.length) '0' ++ ['.', '0'])
      else
        String.ofList (ds.take whole ++ '.' :: ds.drop whole)
  else
    let power := Nat.repr top.natAbs
    let mantissa := if ds.length = 1 then ds else ds.take 1 ++ '.' :: ds.drop 1
    String.ofList (mantissa ++ ['e', if top < 0 then '-' else '+'] ++
      List.replicate (2 - power.length) '0' ++ power.toList)

def print : Binary64 → String
  | .nan => "nan"
  | .infinite n => if n then "-inf" else "inf"
  | x@(.finite n m s h) =>
    let magnitude := if x.units = 0 then "0.0" else (shortest (.finite false m s h)).layout
    if n then "-" ++ magnitude else magnitude

end TenantTables.Binary64
