import TenantTables.Proofs.Operation.Fresh
import TenantTables.Proofs.Record.Keyed

namespace TenantTables

namespace Store

structure IsKeyed (s : Store) (tableId : String) : Prop where
  defaults : ∀ t, s.table? tableId = some t → ∀ f ∈ t.fields, f.defaultValue.isKeyed = true
  data : ∀ r ∈ s.live tableId, r.data.isKeyed = true

variable {s : Store} {tableId : String} {new : Record}

end Store

def Work.isKeyed : Work → Bool
  | .insert payload _ => payload.isKeyed
  | .update _ payload _ => payload.isKeyed
  | _ => true

namespace Operation

def isKeyed : Operation → Bool
  | .work _ job => job.isKeyed
  | .importRows _ _ rows _ => rows.all Value.isKeyed
  | _ => true

end Operation

namespace World

variable {source : Source} {w w' : World} {tableId : String}

end World
end TenantTables
