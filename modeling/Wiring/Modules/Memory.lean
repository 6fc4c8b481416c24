import Wiring.Modules.FileSystem

/-! A file system in memory: exports stored under normalised paths. -/
namespace Wiring.Modules

structure Memory where
  modules : Table Exports := ∅
  roots : List String := []

namespace Memory

def suffix : String := ".py"

def add (m : Memory) (path : String) (exports : Exports) : Memory :=
  { m with modules := m.modules.set (Path.normal path) exports }

def ofList (modules : List (String × Exports)) (roots : List String) : Memory :=
  modules.foldl (fun m e => m.add e.1 e.2) { roots }

/-- A path is there when a module is stored at it or below it. -/
def present (m : Memory) (path : String) : Bool :=
  let p := Path.normal path
  m.modules.contains p || m.modules.names.any (fun stored => Text.startsWith stored (p ++ "/"))

def storedAt? (m : Memory) (path : String) : Option String :=
  (candidates (Path.normal path) suffix).find? m.modules.contains

def resolveModule (m : Memory) (specifier : String) (roots : List String) : Except Failure String :=
  let paths := searched specifier suffix roots
  match paths.findSome? m.storedAt? with
  | some path => .ok path
  | none => .error (.unresolved specifier (some (.noModule paths.length)))

def loadModule (m : Memory) (location : String) : Except Failure Exports :=
  match (m.storedAt? location).bind m.modules.get? with
  | some exports => .ok exports
  | none => .error (.unresolved location (some .noModuleFile))

def fileSystem : FileSystem Memory where
  present := present
  processRoots m _ := m.roots
  resolveModule := resolveModule
  loadModule location := fun m => (Traced.ofExcept (m.loadModule location), m)

end Memory
end Wiring.Modules
