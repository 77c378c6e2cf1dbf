import Mathlib.Data.Nat.Digits.Defs
import Mathlib.Tactic.Ring
import TenantTables.Number.Reading
import TenantTables.Number.Shortest
import TenantTables.Proofs.Text.Digit

namespace TenantTables.Binary64

section Rounding

variable {num den k : Nat}

end Rounding

namespace Decimal

end Decimal

namespace Decimal

end Decimal

end TenantTables.Binary64
