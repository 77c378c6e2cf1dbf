import TenantTables.Proofs.Calendar.Iso
import TenantTables.Proofs.Number.Decimal
import TenantTables.Proofs.Record.Denote
import TenantTables.Proofs.Transfer.Sheet

/-!
This module contains what the cells of an export are for an import: fields take the text of a cell for the value
that it was written from, and sheets leave it alone.
-/

namespace TenantTables

open Text

namespace Value

end Value

namespace Field

variable {f : Field} {v : Value}

end Field

namespace IsoReader

open Calendar

end IsoReader
end TenantTables
