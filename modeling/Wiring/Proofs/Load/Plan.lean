import Wiring.Load
import Wiring.Proofs.Act

/-! What loading a location is going to do, told by the stored documents alone: a flat list of
steps, which performed one after the other is the load itself. -/
namespace Wiring

inductive Step where
  | importing (location : Location)
  | enter (location : Location) (d : Document)
  | parameter (name : String) (v : Value)
  | service (id : String) (entry : ServiceEntry) (baseDir : String)
  | leave (location : Location) (d : Document)
  | refuse (events : List Event) (e : Failure)

namespace Document

def parameterSteps (d : Document) : List Step :=
  d.parameters.entries.map fun e => .parameter e.1 e.2

def serviceSteps (d : Document) (location : Location) : List Step :=
  d.services.entries.map fun e => .service e.1 e.2 location.directory

def imported (d : Document) (location : Location) : List Location :=
  d.imports.map fun i => location.resource i.resource

end Document

namespace Reader

def Holds (r : Reader) (location : Location) (d : Document) : Prop :=
  ∃ v, r.read location = .ok v ∧ Document.check v = .valid d

theorem Holds.unique {r : Reader} {location : Location} {d d' : Document}
    (h : r.Holds location d) (h' : r.Holds location d') : d = d' := by
  obtain ⟨v, hv, hd⟩ := h
  obtain ⟨v', hv', hd'⟩ := h'
  rw [hv] at hv'
  cases hv'
  rw [hd] at hd'
  cases hd'
  rfl

mutual
/-- The steps of a location that was reached by a chain of imports. -/
def plan (r : Reader) (chain : List Location) (location : Location) : List Step :=
  if hchain : location ∈ chain then
    [.refuse [] (.circular ((chain ++ [location]).map Location.text))]
  else match hread : r.read location with
    | .error e => [.refuse [] e]
    | .ok v =>
      match Document.check v with
      | .faulty fs => [.refuse [.read location.text] (.document (.invalid location.text fs))]
      | .valid d =>
        have := length_remaining_lt hread hchain
        .enter location d :: d.parameterSteps ++
          planImports r (chain ++ [location]) (d.imported location) ++
          d.serviceSteps location ++ [.leave location d]
termination_by ((r.remaining chain).length, 0)

def planImports (r : Reader) (chain : List Location) : List Location → List Step
  | [] => []
  | location :: locations =>
    .importing location :: plan r chain location ++ planImports r chain locations
termination_by locations => ((r.remaining chain).length, locations.length + 1)
end

theorem planImports_eq (r : Reader) (chain locations : List Location) :
    r.planImports chain locations =
      locations.flatMap fun location => .importing location :: r.plan chain location := by
  induction locations with
  | nil => simp [planImports]
  | cons location locations ih => simp [planImports, ih]

/-- Why a location that was reached by a chain is not entered, and what is seen of it. -/
inductive Refused (r : Reader) (chain : List Location) (location : Location) :
    List Event → Failure → Prop where
  | circular (h : location ∈ chain) :
      Refused r chain location [] (.circular ((chain ++ [location]).map Location.text))
  | unreadable {e : Failure} (h : location ∉ chain) (hread : r.read location = .error e) :
      Refused r chain location [] e
  | invalid {v : Value} {fs : List Schema.Fault} (h : location ∉ chain)
      (hread : r.read location = .ok v) (hcheck : Document.check v = .faulty fs) :
      Refused r chain location [.read location.text] (.document (.invalid location.text fs))

variable {r : Reader}

theorem refused_or_holds (r : Reader) (chain : List Location) (location : Location) :
    (∃ es e, r.Refused chain location es e) ∨ location ∉ chain ∧ ∃ d, r.Holds location d := by
  by_cases h : location ∈ chain
  · exact .inl ⟨_, _, .circular h⟩
  · cases hread : r.read location with
    | error e => exact .inl ⟨_, _, .unreadable h hread⟩
    | ok v =>
      cases hcheck : Document.check v with
      | faulty fs => exact .inl ⟨_, _, .invalid h hread hcheck⟩
      | valid d => exact .inr ⟨h, d, v, hread, hcheck⟩

theorem plan_of_refused {chain : List Location} {location : Location} {es : List Event}
    {e : Failure} (h : r.Refused chain location es e) :
    r.plan chain location = [.refuse es e] := by
  cases h with
  | circular h => rw [plan, dif_pos h]
  | unreadable h hread =>
    rw [plan, dif_neg h]
    split
    · next e' he => rw [hread] at he; cases he; rfl
    · next v hv => rw [hread] at hv; cases hv
  | invalid h hread hcheck =>
    rw [plan, dif_neg h]
    split
    · next e he => rw [hread] at he; cases he
    · next v hv => rw [hread] at hv; cases hv; rw [hcheck]

theorem plan_of_holds {chain : List Location} {location : Location} {d : Document}
    (h : location ∉ chain) (hd : r.Holds location d) :
    r.plan chain location =
      .enter location d :: d.parameterSteps ++
        (d.imported location).flatMap
          (fun next => .importing next :: r.plan (chain ++ [location]) next) ++
        d.serviceSteps location ++ [.leave location d] := by
  obtain ⟨v, hread, hcheck⟩ := hd
  rw [plan, dif_neg h]
  split
  · next e he => rw [hread] at he; cases he
  · next v' hv =>
    rw [hread] at hv
    cases hv
    rw [hcheck]
    simp only [planImports_eq]

/-- A location is refused, or it is entered and what holds of its imports is known. -/
theorem plan_induction {P : List Location → Location → Prop}
    (refused : ∀ {chain location es e}, r.Refused chain location es e → P chain location)
    (entered : ∀ {chain location d}, location ∉ chain → r.Holds location d →
      (∀ next, P (chain ++ [location]) next) → P chain location)
    (chain : List Location) (location : Location) : P chain location := by
  induction hn : (r.remaining chain).length using Nat.strongRecOn generalizing chain location with
  | _ n ih =>
    obtain ⟨es, e, h⟩ | ⟨h, d, hd⟩ := r.refused_or_holds chain location
    · exact refused h
    · obtain ⟨v, hread, -⟩ := id hd
      have hlt := length_remaining_lt hread h
      exact entered h hd fun next => ih _ (hn ▸ hlt) _ next rfl

end Reader

namespace Loader
variable {σ : Type} (l : Loader σ)

def act : Step → Act (Filling σ) Unit
  | .importing location => Act.log (.importing location.text)
  | .enter location _ => Act.emit (.read location.text)
  | .parameter name v => updateContainer (·.setParameter name v)
  | .service id entry baseDir => l.loadServices baseDir [(id, entry)]
  | .leave location d =>
    Act.log (.compiled location.text d.parameters.size d.imports.length d.services.size)
  | .refuse es e => fun s => (⟨.error e, es⟩, s)

def perform : List Step → Act (Filling σ) Unit
  | [] => pure ()
  | x :: xs => do
    l.act x
    perform xs

theorem perform_append (xs ys : List Step) :
    l.perform (xs ++ ys) = (do l.perform xs; l.perform ys) := by
  induction xs with
  | nil => simp [perform]
  | cons x xs ih => simp [perform, ih]

theorem perform_singleton (x : Step) : l.perform [x] = l.act x := by
  simp [perform]

theorem setParameters_eq_perform (es : List (String × Value)) :
    setParameters es = l.perform (es.map fun e => .parameter e.1 e.2) := by
  induction es with
  | nil => rfl
  | cons e es ih =>
    obtain ⟨name, v⟩ := e
    rw [setParameters, List.map_cons, perform, ih]
    rfl

theorem loadServices_eq_perform (baseDir : String) (es : List (String × ServiceEntry)) :
    l.loadServices baseDir es = l.perform (es.map fun e => .service e.1 e.2 baseDir) := by
  induction es with
  | nil => rfl
  | cons e es ih =>
    obtain ⟨id, entry⟩ := e
    rw [List.map_cons, perform, ← ih]
    simp [act, loadServices]

/-- Loading is performing the plan. -/
theorem loadDocument_eq_perform (chain : List Location) (location : Location) :
    l.loadDocument chain location = l.perform (l.reader.plan chain location) := by
  induction chain, location using Reader.plan_induction (r := l.reader) with
  | refused h =>
    rw [Reader.plan_of_refused h, perform_singleton]
    cases h with
    | circular h =>
      rw [loadDocument, dif_pos h]
      rfl
    | unreadable h hread =>
      rw [loadDocument, dif_neg h]
      split
      · next e' he => rw [hread] at he; cases he; rfl
      · next v hv => rw [hread] at hv; cases hv
    | invalid h hread hcheck =>
      rw [loadDocument, dif_neg h]
      split
      · next e he => rw [hread] at he; cases he
      · next v hv => rw [hread] at hv; cases hv; rw [hcheck]; rfl
  | @entered chain location d h hd ih =>
    have himports : ∀ is : List ImportRecord,
        l.loadImports (chain ++ [location]) location is =
          l.perform ((is.map fun i => location.resource i.resource).flatMap
            fun next => .importing next :: l.reader.plan (chain ++ [location]) next) := by
      intro is
      induction is with
      | nil => simp [loadImports, perform]
      | cons i is his => simp [loadImports, perform, perform_append, act, ih, his]
    rw [Reader.plan_of_holds h hd]
    obtain ⟨v, hread, hcheck⟩ := hd
    rw [loadDocument, dif_neg h]
    split
    · next e he => rw [hread] at he; cases he
    · next v' hv =>
      rw [hread] at hv
      cases hv
      rw [hcheck]
      simp only [himports, setParameters_eq_perform l, loadServices_eq_perform]
      simp [perform, perform_append, act, Document.parameterSteps, Document.serviceSteps,
        Document.imported]

theorem load_eq_perform (path : String) :
    l.load path = l.perform (l.reader.plan [] (l.workingDir.join path)) :=
  l.loadDocument_eq_perform [] _

end Loader
end Wiring
