import TenantTables.Operation.Transfer
import TenantTables.Proofs.Operation.Insert

namespace TenantTables

open Program

namespace Records

def Follows (fields : List Field) (old data : Entries) : Prop :=
  ∀ f ∈ uniqueFields fields data, ∀ v, old.get? f.name = some v → v.equals (data.get f.name) = false

end Records

namespace Transfer

variable {source : Source} {w : World} {table : Table} {dropped : List String} {actor : Value}

end Transfer
end TenantTables
