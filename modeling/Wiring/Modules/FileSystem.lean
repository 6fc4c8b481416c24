import Wiring.Act
import Wiring.Path
import Wiring.Table
import Wiring.Value

/-! What the search for modules needs of a file system, and how modules are named by paths. -/
namespace Wiring

abbrev Exports := Table Value

namespace Modules

/-- The files that a module path may denote: itself, with the suffix, or a package. -/
def candidates (path suffix : String) : List String :=
  [path, path ++ suffix, Path.join path ("__init__" ++ suffix)]

/-- Dotted names become nested paths; names with a slash or with the suffix stay. -/
def specifierPath (specifier suffix : String) : String :=
  if specifier.toList.contains '/' || Text.endsWith specifier suffix then specifier
  else String.ofList (specifier.toList.map (fun c => if c = '.' then '/' else c))

def searched (specifier suffix : String) (roots : List String) : List String :=
  if Path.isAbsolute specifier then [specifier]
  else roots.map (fun root => Path.join root (specifierPath specifier suffix))

end Modules

structure FileSystem (σ : Type) where
  present : σ → String → Bool
  /-- The roots that the process already knows for a module name. -/
  processRoots : σ → String → List String
  resolveModule : σ → String → List String → Except Failure String
  loadModule : String → Act σ Exports

end Wiring
