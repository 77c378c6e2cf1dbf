import TenantTables.Value.Basic

/-!
This module contains two notions of equal values: agreement, under which a truth value is the number
one or zero, and the equality of unique fields, which keeps the two apart.
-/

namespace TenantTables

def Moment.agrees (a b : Moment) : Bool :=
  a.isAware == b.isAware && a.instant == b.instant

namespace Value

/--
The exact place of a number on the number line, where a truth value counts as one or zero. The outer
level tells whether the value is a number, the inner one whether it has a place.
-/
def place? : Value → Option (Option Binary64.Place)
  | .bool b => some (some (.ofInt (if b then 1 else 0)))
  | .int i => some (some (.ofInt i))
  | .real x => some x.place?
  | _ => none

def numbersAgree (a b : Value) : Bool :=
  match a.place?, b.place? with
  | some (some p), some (some q) => p == q
  | _, _ => false

mutual

def agrees : Value → Value → Bool
  | .null, .null => true
  | .text a, .text b => a == b
  | .date a, .date b => a == b
  | .moment a, .moment b => a.agrees b
  | .uuid a, .uuid b => a == b
  | .list a, .list b => itemsAgree a b
  | .map a, .map b => a.length == b.length && entriesAgree a b
  | a, b => numbersAgree a b

def itemsAgree : List Value → List Value → Bool
  | [], [] => true
  | a :: as, b :: bs => agrees a b && itemsAgree as bs
  | _, _ => false

def entriesAgree : Entries → Entries → Bool
  | [], _ => true
  | (k, a) :: as, bs =>
    (match bs.get? k with
      | some b => agrees a b
      | none => false) && entriesAgree as bs

end

def equals : Value → Value → Bool
  | .bool a, .bool b => a == b
  | .bool _, _ => false
  | _, .bool _ => false
  | a, b => agrees a b

end Value
end TenantTables
