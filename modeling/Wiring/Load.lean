import Wiring.Compile
import Wiring.Document.Schema
import Wiring.Location

/-! Loading a document into a container, with everything that it imports: its parameters first,
then its imports in order, each of them whole, then its services. -/
namespace Wiring

/-- A source of documents. Only stored locations can be read, and those are finitely many. -/
structure Reader where
  read : Location → Except Failure Value
  stored : List Location
  mem_stored : ∀ {location : Location} {v : Value}, read location = .ok v → location ∈ stored

namespace Reader

/-- The stored locations that are not on a chain of imports. -/
def remaining (r : Reader) (chain : List Location) : List Location :=
  r.stored.filter (· ∉ chain)

theorem length_remaining_lt {r : Reader} {chain : List Location} {location : Location} {v : Value}
    (hread : r.read location = .ok v) (h : location ∉ chain) :
    (r.remaining (chain ++ [location])).length < (r.remaining chain).length := by
  have hsub : r.remaining (chain ++ [location]) = (r.remaining chain).filter (· ≠ location) := by
    simp [remaining, List.filter_filter, not_or, and_comm]
  rw [hsub]
  exact List.length_filter_lt_length_iff_exists.2
    ⟨location, by simp [remaining, r.mem_stored hread, h], by simp⟩

end Reader

/-- What a load works with: documents, exports and variables. -/
structure Loader (σ : Type) where
  reader : Reader
  locator : Modules.Locator σ
  fromEnvironment? : String → Option String
  workingDir : Location := .root

/-- A container that is being filled, beside the state of whatever finds modules. -/
structure Filling (σ : Type) where
  container : Container
  modules : σ

namespace Loader
variable {σ : Type} (l : Loader σ)

def updateContainer (f : Container → Container) : Act (Filling σ) Unit :=
  Act.update fun s => { s with container := f s.container }

def onModules {α : Type} (x : Act σ α) : Act (Filling σ) α := fun s =>
  let (t, modules) := x s.modules
  (t, { s with modules })

def surroundings (c : Container) : Surroundings σ where
  scope := { fromParameters? := c.parameters.get?, fromEnvironment? := l.fromEnvironment? }
  defaultDir := c.defaultDir
  locator := l.locator

def setParameters : List (String × Value) → Act (Filling σ) Unit
  | [] => pure ()
  | (name, v) :: es => do
    updateContainer (·.setParameter name v)
    setParameters es

def register (id : String) : Compiled → Container → Container
  | .alias target, c => c.setAlias id target
  | .definition d, c => c.setDefinition id d

def loadServices (baseDir : String) : List (String × ServiceEntry) → Act (Filling σ) Unit
  | [] => pure ()
  | (id, entry) :: es => do
    let s ← Act.get
    let compiled ← onModules ((l.surroundings s.container).compile id entry baseDir)
    updateContainer (register id compiled)
    Act.log (.registered id)
    loadServices baseDir es

mutual
/-- Loads one document that was reached by a chain of imports. -/
def loadDocument (chain : List Location) (location : Location) : Act (Filling σ) Unit :=
  if hchain : location ∈ chain then
    Act.fail (.circular ((chain ++ [location]).map Location.text))
  else match hread : l.reader.read location with
    | .error e => Act.fail e
    | .ok v => do
      Act.emit (.read location.text)
      match Document.check v with
      | .faulty fs => Act.fail (.document (.invalid location.text fs))
      | .valid d => do
        setParameters d.parameters.entries
        have := Reader.length_remaining_lt hread hchain
        loadImports (chain ++ [location]) location d.imports
        l.loadServices location.directory d.services.entries
        Act.log (.compiled location.text d.parameters.size d.imports.length d.services.size)
termination_by ((l.reader.remaining chain).length, 0)

def loadImports (chain : List Location) (importer : Location) :
    List ImportRecord → Act (Filling σ) Unit
  | [] => pure ()
  | i :: is => do
    let location := importer.resource i.resource
    Act.log (.importing location.text)
    loadDocument chain location
    loadImports chain importer is
termination_by is => ((l.reader.remaining chain).length, is.length + 1)
end

/-- Loads the document at a path, which is seen from the working directory. -/
def load (path : String) : Act (Filling σ) Unit :=
  l.loadDocument [] (l.workingDir.join path)

end Loader
end Wiring
