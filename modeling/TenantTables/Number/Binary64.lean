/-!
This module contains the double precision numbers that records hold. Every finite one is a whole
multiple of `2 ^ -1074`, so its exact value is the integer `Binary64.scaled`, and comparing numbers
is comparing integers.
-/

namespace TenantTables

def Binary64.leastFull : Nat := 4503599627370496

/--
A mantissa and a shift that denote `mantissa * 2 ^ shift` units of `2 ^ -1074` in the one form each
magnitude has.
-/
def Binary64.IsCanonical (mantissa shift : Nat) : Prop :=
  mantissa < 2 * leastFull ∧ shift ≤ 2045 ∧ (leastFull ≤ mantissa ∨ shift = 0)

instance (mantissa shift : Nat) : Decidable (Binary64.IsCanonical mantissa shift) := by
  unfold Binary64.IsCanonical
  infer_instance

inductive Binary64 where
  | nan
  | infinite (negative : Bool)
  | finite (negative : Bool) (mantissa shift : Nat)
      (canonical : Binary64.IsCanonical mantissa shift)
  deriving DecidableEq

namespace Binary64

def binaryPlaces : Nat := 1074

def one : Nat := 1 <<< binaryPlaces

theorem one_pos : 0 < one := by
  rw [one, Nat.one_shiftLeft]
  exact Nat.two_pow_pos binaryPlaces

def zero : Binary64 := .finite false 0 0 (by decide)

instance : Inhabited Binary64 where
  default := zero

def isNan : Binary64 → Bool
  | .nan => true
  | _ => false

def isFinite : Binary64 → Bool
  | .finite .. => true
  | _ => false

def units : Binary64 → Nat
  | .finite _ m s _ => m <<< s
  | _ => 0

def scaled : Binary64 → Int
  | .finite n m s _ => if n then -(m <<< s : Nat) else (m <<< s : Nat)
  | _ => 0

def negate : Binary64 → Binary64
  | .nan => .nan
  | .infinite n => .infinite !n
  | .finite n m s h => .finite (!n) m s h

inductive Place where
  | below
  | at (units : Int)
  | above
  deriving DecidableEq

def place? : Binary64 → Option Place
  | .nan => none
  | .infinite true => some .below
  | .infinite false => some .above
  | x@(.finite ..) => some (.at x.scaled)

def Place.ofInt (i : Int) : Place := .at (i * one)

def Place.lt : Place → Place → Bool
  | .below, .below => false
  | .below, _ => true
  | .at _, .below => false
  | .at a, .at b => a < b
  | .at _, .above => true
  | .above, _ => false

theorem Place.lt_irrefl (p : Place) : p.lt p = false := by
  cases p <;> simp [lt]

theorem Place.lt_asymm {p q : Place} (h : p.lt q = true) : q.lt p = false := by
  cases p <;> cases q <;> simp_all [lt]
  omega

def nearestEven (num den : Nat) : Nat :=
  let q := num / den
  let twice := 2 * (num % den)
  if twice < den then q
  else if den < twice then q + 1
  else if q % 2 = 0 then q
  else q + 1

def ofParts (negative : Bool) (mantissa shift : Nat) : Binary64 :=
  if mantissa = 2 * leastFull then
    if h : IsCanonical leastFull (shift + 1) then .finite negative leastFull (shift + 1) h
    else .infinite negative
  else
    if h : IsCanonical mantissa shift then .finite negative mantissa shift h
    else .infinite negative

def ofUnits (negative : Bool) (num den : Nat) : Binary64 :=
  let shift := Nat.log2 (num / den) - 52
  ofParts negative (nearestEven num (den <<< shift)) shift

def ofRatio (negative : Bool) (num den : Nat) : Binary64 :=
  ofUnits negative (num * one) den

def ofDecimal (negative : Bool) (digits : Nat) (exponent : Int) : Binary64 :=
  if digits = 0 then ofUnits negative 0 1
  else
    let top := exponent + (Nat.log2 digits / 3 : Nat)
    if 400 < exponent then .infinite negative
    else if top < -400 then ofUnits negative 0 1
    else if 0 ≤ exponent then ofRatio negative (digits * Nat.pow 10 exponent.toNat) 1
    else ofRatio negative digits (Nat.pow 10 (-exponent).toNat)

def ofInt (i : Int) : Binary64 :=
  ofRatio (i < 0) i.natAbs 1

def toInt? (x : Binary64) : Option Int :=
  match x with
  | .finite n m s _ =>
    let u := m <<< s
    if u % one = 0 then
      some (if n then -(u / one : Nat) else (u / one : Nat))
    else none
  | _ => none

def ceil (x : Binary64) : Int :=
  -(-x.scaled / one)

end Binary64
end TenantTables
