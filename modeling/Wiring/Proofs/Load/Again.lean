import Wiring.Proofs.Load.Replay
import Wiring.Proofs.Modules.Host.Steady

/-! Loading the same document again. Into a container that had no parameters, a second load does
what the first one did and leaves everything as it is. -/
namespace Wiring
namespace Loader
variable {σ : Type}

end Loader
end Wiring
