import Wiring.Proofs.Load.Plan
import Wiring.Proofs.Load.Write

/-! Steps that were performed. A run of a plan performs steps up to the first that fails; what it
changes in the container is what the performed steps write. -/
namespace Wiring

/-- A step that was performed, with what it found. -/
inductive Deed where
  | importing (location : Location)
  | enter (location : Location) (d : Document)
  | parameter (name : String) (v : Value)
  | service (id : String) (entry : ServiceEntry) (baseDir : String) (compiled : Compiled)
  | leave (location : Location) (d : Document)

namespace Deed

def step : Deed → Step
  | .importing location => .importing location
  | .enter location d => .enter location d
  | .parameter name v => .parameter name v
  | .service id entry baseDir _ => .service id entry baseDir
  | .leave location d => .leave location d

def write? : Deed → Option Write
  | .parameter name v => some (.parameter name v)
  | .service id _ _ compiled => some (.service id compiled)
  | _ => none

def entered? : Deed → Option Document
  | .enter _ d => some d
  | _ => none

def writes (ds : List Deed) : List Write := ds.filterMap write?

def entered (ds : List Deed) : List Document := ds.filterMap entered?

theorem writes_cons (x : Deed) (xs : List Deed) :
    writes (x :: xs) = x.write?.toList ++ writes xs := by
  cases h : x.write? <;> simp [writes, h]

@[simp] theorem writes_enter (location : Location) (d : Document) (xs : List Deed) :
    writes (.enter location d :: xs) = writes xs := rfl

@[simp] theorem writes_importing (location : Location) (xs : List Deed) :
    writes (.importing location :: xs) = writes xs := rfl

theorem writes_append (xs ys : List Deed) : writes (xs ++ ys) = writes xs ++ writes ys :=
  List.filterMap_append ..

theorem writes_flatMap {α : Type} (f : α → List Deed) (xs : List α) :
    writes (xs.flatMap f) = xs.flatMap fun x => writes (f x) := by
  induction xs with
  | nil => rfl
  | cons x xs ih => rw [List.flatMap_cons, writes_append, ih, List.flatMap_cons]

theorem writes_map {α : Type} {f : α → Deed} {g : α → Write} (h : ∀ x, (f x).write? = some (g x))
    (xs : List α) : writes (xs.map f) = xs.map g := by
  induction xs with
  | nil => rfl
  | cons x xs ih => rw [List.map_cons, writes_cons, h, ih]; rfl

end Deed

namespace Loader
variable {σ : Type} (l : Loader σ)

/-- What one performed step makes of a state. -/
def Done (x : Deed) (s s' : Filling σ) : Prop :=
  match x with
  | .parameter name v => s' = { s with container := s.container.setParameter name v }
  | .service id entry baseDir compiled =>
    let compiling := (l.surroundings s.container).compile id entry baseDir
    compiling.result s.modules = .ok compiled ∧
      s' = ⟨register id compiled s.container, compiling.after s.modules⟩
  | _ => s' = s

inductive Does : Filling σ → List Deed → Filling σ → Prop where
  | nil (s : Filling σ) : Does s [] s
  | cons {s s₁ s' : Filling σ} {x : Deed} {xs : List Deed} (h : l.Done x s s₁)
      (hs : Does s₁ xs s') : Does s (x :: xs) s'

variable {l}

theorem Does.split {s s' : Filling σ} {xs ys : List Deed} (h : l.Does s (xs ++ ys) s') :
    ∃ s₁, l.Does s xs s₁ ∧ l.Does s₁ ys s' := by
  induction xs generalizing s with
  | nil => exact ⟨s, .nil s, h⟩
  | cons x xs ih =>
    cases h with
    | cons hx hs =>
      obtain ⟨s₁, h₁, h₂⟩ := ih hs
      exact ⟨s₁, .cons hx h₁, h₂⟩

theorem Done.container {x : Deed} {s s' : Filling σ} (h : l.Done x s s') :
    s'.container = Write.applyAll s.container x.write?.toList := by
  cases x with
  | service id entry baseDir compiled =>
    obtain ⟨-, rfl⟩ := h
    rfl
  | _ =>
    cases h
    rfl

theorem Does.container {s s' : Filling σ} {ds : List Deed} (h : l.Does s ds s') :
    s'.container = Write.applyAll s.container (Deed.writes ds) := by
  induction h with
  | nil s => rfl
  | @cons s s₁ s' x xs hx _ ih =>
    rw [ih, hx.container, ← Write.applyAll_append, Deed.writes_cons]

theorem Does.parameters {s s' : Filling σ} {ds : List Deed} (h : l.Does s ds s') (name : String) :
    s'.container.parameters.get? name =
      (lastSome? (Write.parameter? name) (Deed.writes ds)).or
        (s.container.parameters.get? name) := by
  rw [h.container, Write.parameters_applyAll]

theorem Does.registration {s s' : Filling σ} {ds : List Deed} (h : l.Does s ds s') (id : String) :
    s'.container.registration id =
      (lastSome? (Write.service? id) (Deed.writes ds)).elim (s.container.registration id)
        Compiled.registration := by
  rw [h.container, Write.registration_applyAll]

variable (l)

@[simp] theorem result_onModules {α : Type} (x : Act σ α) (s : Filling σ) :
    (onModules x).result s = x.result s.modules := rfl

@[simp] theorem after_onModules {α : Type} (x : Act σ α) (s : Filling σ) :
    (onModules x).after s = { s with modules := x.after s.modules } := rfl

theorem act_service_of_ok {id : String} {entry : ServiceEntry} {baseDir : String}
    {compiled : Compiled} {s : Filling σ}
    (h : ((l.surroundings s.container).compile id entry baseDir).result s.modules = .ok compiled) :
    (l.act (.service id entry baseDir)).result s = .ok () ∧
      (l.act (.service id entry baseDir)).after s =
        ⟨register id compiled s.container,
          ((l.surroundings s.container).compile id entry baseDir).after s.modules⟩ := by
  have hm : (onModules ((l.surroundings s.container).compile id entry baseDir)).result s =
      .ok compiled := h
  constructor
  · simp [act, loadServices, updateContainer, Act.bind_eq_ok_iff, h]
  · simp only [act, loadServices, updateContainer]
    rw [Act.after_bind_ok (Act.result_get s), Act.after_get, Act.after_bind_ok hm]
    rfl

theorem act_service_of_error {id : String} {entry : ServiceEntry} {baseDir : String}
    {e : Failure} {s : Filling σ}
    (h : ((l.surroundings s.container).compile id entry baseDir).result s.modules = .error e) :
    (l.act (.service id entry baseDir)).result s = .error e ∧
      ((l.act (.service id entry baseDir)).after s).container = s.container := by
  have hm : (onModules ((l.surroundings s.container).compile id entry baseDir)).result s =
      .error e := h
  constructor
  · simp [act, loadServices, Act.bind_eq_error_iff, h]
  · simp only [act, loadServices]
    rw [Act.after_bind_ok (Act.result_get s), Act.after_get, Act.after_bind_error hm]
    rfl

/-- A step is performed, or it fails and leaves the container alone. -/
theorem act_cases (x : Step) (s : Filling σ) :
    (∃ d : Deed, d.step = x ∧ l.Done d s ((l.act x).after s) ∧ (l.act x).result s = .ok ()) ∨
      ∃ e, (l.act x).result s = .error e ∧ ((l.act x).after s).container = s.container := by
  cases x with
  | importing location => exact .inl ⟨.importing location, rfl, rfl, rfl⟩
  | enter location d => exact .inl ⟨.enter location d, rfl, rfl, rfl⟩
  | parameter name v => exact .inl ⟨.parameter name v, rfl, rfl, rfl⟩
  | leave location d => exact .inl ⟨.leave location d, rfl, rfl, rfl⟩
  | refuse es e => exact .inr ⟨e, rfl, rfl⟩
  | service id entry baseDir =>
    cases h : ((l.surroundings s.container).compile id entry baseDir).result s.modules with
    | ok compiled =>
      obtain ⟨hr, ha⟩ := l.act_service_of_ok h
      exact .inl ⟨.service id entry baseDir compiled, rfl, ⟨h, ha⟩, hr⟩
    | error e => exact .inr ⟨e, l.act_service_of_error h⟩

/-- A run performs all its steps, or those before the first that fails. -/
theorem perform_cases (steps : List Step) (s : Filling σ) :
    ∃ ds s₁, l.Does s ds s₁ ∧
      ((l.perform steps).result s = .ok () ∧ (l.perform steps).after s = s₁ ∧
          steps = ds.map Deed.step ∨
        ∃ x rest e, steps = ds.map Deed.step ++ x :: rest ∧ (l.act x).result s₁ = .error e ∧
          (l.perform steps).result s = .error e ∧
          (l.perform steps).after s = (l.act x).after s₁ ∧
          ((l.perform steps).after s).container = s₁.container) := by
  induction steps generalizing s with
  | nil => exact ⟨[], s, .nil s, .inl ⟨rfl, rfl, rfl⟩⟩
  | cons x xs ih =>
    obtain ⟨d, rfl, hd, hok⟩ | ⟨e, herror, hcontainer⟩ := l.act_cases x s
    · obtain ⟨ds, s₁, hds, h⟩ := ih ((l.act d.step).after s)
      have hresult : (l.perform (d.step :: xs)).result s =
          (l.perform xs).result ((l.act d.step).after s) := by
        rw [perform, Act.result_bind, hok]
        rfl
      have hafter : (l.perform (d.step :: xs)).after s =
          (l.perform xs).after ((l.act d.step).after s) := by
        rw [perform, Act.after_bind_ok hok]
      refine ⟨d :: ds, s₁, .cons hd hds, ?_⟩
      rw [hresult, hafter]
      obtain ⟨hr, ha, hsteps⟩ | ⟨x, rest, e, hsteps, he, h⟩ := h
      · exact .inl ⟨hr, ha, by rw [hsteps, List.map_cons]⟩
      · exact .inr ⟨x, rest, e, by rw [hsteps, List.map_cons, List.cons_append], he, h⟩
    · have hresult : (l.perform (x :: xs)).result s = .error e := by
        rw [perform, Act.result_bind, herror]
        rfl
      have hafter : (l.perform (x :: xs)).after s = (l.act x).after s := by
        rw [perform, Act.after_bind_error herror]
      refine ⟨[], s, .nil s, .inr ⟨x, xs, e, rfl, herror, hresult, hafter, ?_⟩⟩
      rw [hafter, hcontainer]

theorem act_of_done {x : Deed} {s s' : Filling σ} (h : l.Done x s s') :
    (l.act x.step).result s = .ok () ∧ (l.act x.step).after s = s' := by
  cases x with
  | service id entry baseDir compiled =>
    obtain ⟨hcompiled, rfl⟩ := h
    exact l.act_service_of_ok hcompiled
  | _ =>
    obtain rfl := h
    exact ⟨rfl, rfl⟩

theorem perform_of_does {ds : List Deed} {s s' : Filling σ} (h : l.Does s ds s') :
    (l.perform (ds.map Deed.step)).result s = .ok () ∧
      (l.perform (ds.map Deed.step)).after s = s' := by
  induction h with
  | nil s => exact ⟨rfl, rfl⟩
  | @cons s s₁ s' x xs hdone _ ih =>
    obtain ⟨hresult, hafter⟩ := l.act_of_done hdone
    rw [List.map_cons, perform, Act.result_bind, hresult, Act.after_bind_ok hresult, hafter]
    exact ih

/-- A load that succeeds performs its whole plan. -/
theorem exists_does_of_load {path : String} {s : Filling σ}
    (h : (l.load path).result s = .ok ()) :
    ∃ ds, ds.map Deed.step = l.reader.plan [] (l.workingDir.join path) ∧
      l.Does s ds ((l.load path).after s) := by
  rw [load_eq_perform] at h ⊢
  obtain ⟨ds, s₁, hdoes, hcases⟩ :=
    l.perform_cases (l.reader.plan [] (l.workingDir.join path)) s
  obtain ⟨-, rfl, hsteps⟩ | ⟨x, rest, e, -, -, herror, -⟩ := hcases
  · exact ⟨ds, hsteps.symm, hdoes⟩
  · rw [h] at herror
    cases herror

end Loader
end Wiring
