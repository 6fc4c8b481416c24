import Wiring.Disk

/-! The modules of a process: what was loaded so far, by name and by file. -/
namespace Wiring.Modules

/-- Where a module comes from: a file, directories for modules inside it, or both. -/
structure Spec where
  file : Option String := none
  portions : List String := []
deriving DecidableEq, Repr

def Spec.isPackage (s : Spec) : Bool := s.portions ≠ []

/-- Two modules are one when their numbers are equal. -/
structure Module where
  number : Nat
  spec : Spec
  exports : Exports

/-- The first table holds the names that the process has from elsewhere, each with the directory
that holds what it names, if one does. The others hold modules by dotted name, those loaded straight
from a file by its path, and those that the present file system found before by the path it found. -/
structure Host where
  disk : Disk
  workingDir : Location := .root
  searchRoots : List String := []
  foreign : Table (Option String) := ∅
  byName : Table Module := ∅
  byFile : Table Module := ∅
  found : Table Module := ∅
  created : Nat := 0

namespace Host

def forget (p : Host) : Host := { p with found := ∅ }

def isFile (p : Host) (path : String) : Bool := p.disk.isFile p.workingDir path

def absolute (p : Host) (path : String) : String := Path.absolute p.workingDir.text path

def realPath (p : Host) (path : String) : String :=
  Disk.fullPath (Disk.segmentsOf (p.absolute path))

/-- The directories in which modules are searched; an empty one is the working directory. -/
def roots (p : Host) : List String := p.searchRoots.map p.absolute

def newModule (p : Host) (spec : Spec) (exports : Exports) : Module := ⟨p.created, spec, exports⟩

/-- What running a file gives, and what the module offers even if running it fails. -/
def run (p : Host) (path : String) : Exports × Option Failure :=
  match p.disk.openFile p.workingDir path with
  | .ok (.program q) => (q.exports, q.raises)
  | .ok .broken => (∅, some (.unparsable (Path.base path)))
  | .ok (.bytes _) | .error _ => (∅, none)

end Host
end Wiring.Modules
