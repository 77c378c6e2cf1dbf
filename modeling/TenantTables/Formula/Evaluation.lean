import TenantTables.Failure
import TenantTables.Formula.Tree
import TenantTables.Schema.Field

/-!
This module contains the values of formulas. A formula of one term has the value of the term, and a
sum is the text of its terms in order.
-/

namespace TenantTables

def Value.asText : Value → String
  | .null => ""
  | .bool b => if b then "true" else "false"
  | .real x =>
    match x.toInt? with
    | some i => toString i
    | none => x.print
  | v => v.print

namespace Formula

def textOf (v : Value) : Except Fault String :=
  if v.isLong then .error .longInteger else .ok v.asText

def Term.evaluate (values : Entries) (known : List String) : Term → Except Fault Value
  | .text s => .ok (.text s)
  | .whole n => .ok (.int n)
  | .real x => .ok (.real x)
  | .field name =>
    match values.get? name with
    | some v => .ok v
    | none => if known.contains name then .ok .null else .error (.unknownField name)

def evaluate (values : Entries) (known : List String) : Formula → Except Fault Value
  | .term t => t.evaluate values known
  | .add left right => do
    let start ← textOf (← left.evaluate values known)
    let rest ← textOf (← right.evaluate values known)
    return .text (start ++ rest)

end Formula

/--
The value of a computed field, which is null where its formula has no value. Only a number with too
many digits fails, in the formula or in a value that it takes the text of.
-/
def Field.compute (f : Field) (values : Entries) (known : List String) : Outcome Value :=
  match f.formula with
  | none => .ok .null
  | some formula =>
    if formula.isEmpty then .ok .null
    else
      match Formula.read formula >>= Formula.evaluate values known with
      | .ok v => .ok v
      | .error (.digitLimit digits) => .error (.digitLimit digits)
      | .error .longInteger => .error (.formula .longInteger)
      | .error _ => .ok .null

/--
Computes the computed fields in order. Values that were supplied for them are dropped first, so a
formula sees a computed field only once it is computed.
-/
def computeFields (fields : List Field) (data : Entries) : Outcome Entries :=
  let computed := fields.filter Field.isComputed
  let supplied := data.filter fun e => !computed.any (·.name == e.1)
  computed.foldlM
    (fun values f => do
      return values.put f.name (← f.compute values (fields.map (·.name))))
    supplied

end TenantTables
