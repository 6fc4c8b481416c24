import Wiring.Proofs.Load.Plan

/-! One level of a load: what becomes of a document, told by what becomes of its imports. A load is
the level over itself, and it goes down only into what a valid document imports. -/
namespace Wiring

/-- A load in progress: a location, and the chain of imports by which it was reached. -/
structure Arrival where
  chain : List Location
  location : Location

namespace Reader

/-- A load goes down from a valid document into an import, and the chain grows by the importer. -/
inductive Descends (r : Reader) : Arrival → Arrival → Prop where
  | imports {chain : List Location} {location next : Location} {d : Document}
      (hnot : location ∉ chain) (hd : r.Holds location d) (hnext : next ∈ d.imported location) :
      Descends r ⟨chain, location⟩ ⟨chain ++ [location], next⟩

end Reader

namespace Loader
variable {σ : Type} (l : Loader σ)

def loadEach (next : Location → Act (Filling σ) Unit) : List Location → Act (Filling σ) Unit
  | [] => pure ()
  | imported :: locations => do
    Act.log (.importing imported.text)
    next imported
    loadEach next locations

/-- Takes over what a document says, with `next` in place of the load of an import. -/
def fill (next : Location → Act (Filling σ) Unit) (location : Location) (d : Document) :
    Act (Filling σ) Unit := do
  setParameters d.parameters.entries
  loadEach next (d.imported location)
  l.loadServices location.directory d.services.entries
  Act.log (.compiled location.text d.parameters.size d.imports.length d.services.size)

/-- What a load does with one location, with `next` in place of the loads further down. -/
def level (next : Arrival → Act (Filling σ) Unit) (a : Arrival) : Act (Filling σ) Unit :=
  if a.location ∈ a.chain then
    Act.fail (.circular ((a.chain ++ [a.location]).map Location.text))
  else match l.reader.read a.location with
    | .error e => Act.fail e
    | .ok v => do
      Act.emit (.read a.location.text)
      match Document.check v with
      | .faulty fs => Act.fail (.document (.invalid a.location.text fs))
      | .valid d => l.fill (fun location => next ⟨a.chain ++ [a.location], location⟩) a.location d

variable {l}

theorem level_of_refused {next : Arrival → Act (Filling σ) Unit} {a : Arrival} {es : List Event}
    {e : Failure} (h : l.reader.Refused a.chain a.location es e) :
    l.level next a = fun s => (⟨.error e, es⟩, s) := by
  cases h with
  | circular h =>
    rw [level, if_pos h]
    rfl
  | unreadable h hread =>
    rw [level, if_neg h, hread]
    rfl
  | invalid h hread hcheck =>
    rw [level, if_neg h, hread]
    simp only [hcheck]
    rfl

theorem level_of_holds {next : Arrival → Act (Filling σ) Unit} {a : Arrival} {d : Document}
    (h : a.location ∉ a.chain) (hd : l.reader.Holds a.location d) :
    l.level next a = (do
      Act.emit (.read a.location.text)
      l.fill (fun location => next ⟨a.chain ++ [a.location], location⟩) a.location d) := by
  obtain ⟨v, hread, hcheck⟩ := hd
  rw [level, if_neg h, hread]
  simp only [hcheck]

theorem loadEach_congr {next next' : Location → Act (Filling σ) Unit} {locations : List Location}
    (h : ∀ imported ∈ locations, next imported = next' imported) :
    loadEach next locations = loadEach next' locations := by
  induction locations with
  | nil => rfl
  | cons imported locations ih =>
    have hfirst := h imported (List.mem_cons_self ..)
    have hrest := ih fun other hother => h other (List.mem_cons_of_mem _ hother)
    rw [loadEach, loadEach, hfirst, hrest]

theorem level_congr {next next' : Arrival → Act (Filling σ) Unit} {a : Arrival}
    (h : ∀ b, l.reader.Descends a b → next b = next' b) : l.level next a = l.level next' a := by
  obtain ⟨es, e, hrefused⟩ | ⟨hnot, d, hd⟩ := l.reader.refused_or_holds a.chain a.location
  · rw [level_of_refused hrefused, level_of_refused hrefused]
  · rw [level_of_holds hnot hd, level_of_holds hnot hd]
    have hnext := loadEach_congr fun imported himported => h _ (.imports hnot hd himported)
    rw [fill, fill, hnext]

variable (l)

theorem loadImports_eq_loadEach (chain : List Location) (importer : Location)
    (is : List ImportRecord) :
    l.loadImports chain importer is =
      loadEach (l.loadDocument chain) (is.map fun i => importer.resource i.resource) := by
  induction is with
  | nil =>
    rw [loadImports]
    rfl
  | cons i is ih =>
    rw [loadImports, ih]
    rfl

/-- A load is one level over itself. -/
theorem loadDocument_eq_level (a : Arrival) :
    l.loadDocument a.chain a.location =
      l.level (fun b => l.loadDocument b.chain b.location) a := by
  obtain ⟨es, e, hrefused⟩ | ⟨hnot, d, hd⟩ := l.reader.refused_or_holds a.chain a.location
  · rw [level_of_refused hrefused, loadDocument_eq_perform, Reader.plan_of_refused hrefused,
      perform_singleton]
    rfl
  · rw [level_of_holds hnot hd]
    obtain ⟨v, hread, hcheck⟩ := hd
    rw [loadDocument, dif_neg hnot]
    split
    · next e he => rw [hread] at he; cases he
    · next v' hv =>
      rw [hread] at hv
      cases hv
      rw [hcheck]
      simp only [loadImports_eq_loadEach]
      rfl

end Loader
end Wiring
