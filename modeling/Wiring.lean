import Wiring.Model
import Wiring.Modules.Host.Local
import Wiring.Modules.Memory
import Wiring.Modules.Registry
import Wiring.Proofs.Argument.Lossless
import Wiring.Proofs.Compile.Aliases
import Wiring.Proofs.Compile.Heeded
import Wiring.Proofs.Compile.Stages
import Wiring.Proofs.Container.Decorators
import Wiring.Proofs.Container.Following
import Wiring.Proofs.Document.Pruned
import Wiring.Proofs.Document.ReadBack
import Wiring.Proofs.Load.Again
import Wiring.Proofs.Load.Chain
import Wiring.Proofs.Load.Depth
import Wiring.Proofs.Load.Environment
import Wiring.Proofs.Load.Importing
import Wiring.Proofs.Load.Interchange
import Wiring.Proofs.Load.Partial
import Wiring.Proofs.Load.Places
import Wiring.Proofs.Load.Tagged
import Wiring.Proofs.Load.Traversal
import Wiring.Proofs.Modules.Folders
import Wiring.Proofs.Modules.Host.Owned
import Wiring.Proofs.Modules.Legacy
import Wiring.Proofs.Modules.Loadable
import Wiring.Proofs.Modules.Raising
import Wiring.Proofs.Modules.Selection
import Wiring.Proofs.Modules.Suffixed
import Wiring.Proofs.Reading.Outcomes
import Wiring.Reading.Files
import Wiring.Reading.Stored
import Wiring.Settings
