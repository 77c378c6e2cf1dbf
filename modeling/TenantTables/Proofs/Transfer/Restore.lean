import TenantTables.Proofs.Operation.Upkeep
import TenantTables.Proofs.Schema.Relation
import TenantTables.Proofs.Transfer.Cell
import TenantTables.Proofs.Transfer.Export
import TenantTables.Proofs.Transfer.Import

namespace TenantTables

open Program

namespace Field

variable {f g : Field} {v : Value}

end Field

namespace Transfer

variable {source : Source} {w : World} {table copy : Table} {records : List Record}

end Transfer

deriving instance DecidableEq for FieldSpec

namespace World

open Transfer

variable {source : Source} {w : World}

end World
end TenantTables
