import Wiring.Modules.Registry
import Wiring.Proofs.Compile.Variables
import Wiring.Proofs.Load.Partial
import Wiring.Reading.Stored

/-! Which variables a load depends on. Two environments that agree on the variables which the
visited documents read make the same run: outcome, container, modules and every event. -/
namespace Wiring
namespace Loader
variable {σ : Type}

def withEnvironment (l : Loader σ) (fromEnvironment? : String → Option String) : Loader σ :=
  { l with fromEnvironment? }

/-- What the load performs, up to some point, enters the document at its location. -/
def Visits (l : Loader σ) (path : String) (s : Filling σ) (location : Location) (d : Document) :
    Prop :=
  ∃ ds s₁, l.Does s ds s₁ ∧ ds.map Deed.step <+: l.reader.plan [] (l.workingDir.join path) ∧
    .enter location d ∈ ds

variable {l l' : Loader σ}

/-- Two loaders perform the same steps alike where they act alike at every step that is reached. -/
theorem perform_congr {steps : List Step} {s : Filling σ}
    (h : ∀ ds x rest s₁, steps = ds.map Deed.step ++ x :: rest → l.Does s ds s₁ →
      l.act x s₁ = l'.act x s₁) : l.perform steps s = l'.perform steps s := by
  induction steps generalizing s with
  | nil => rfl
  | cons x xs ih =>
    refine Act.bind_apply_congr (h [] x xs s rfl (.nil s)) fun _ hok => ?_
    obtain ⟨d, rfl, hdone, -⟩ | ⟨e, herror, -⟩ := l.act_cases x s
    · refine ih fun ds y rest s₁ hsplit hdoes => ?_
      exact h (d :: ds) y rest s₁ (by rw [hsplit, List.map_cons, List.cons_append])
        (.cons hdone hdoes)
    · rw [hok] at herror
      cases herror

variable {fromEnvironment? : String → Option String}

theorem act_withEnvironment {x : Step} {s : Filling σ}
    (h : ∀ id entry baseDir, x = .service id entry baseDir → ∀ name, entry.ReadsVariable name →
      fromEnvironment? name = l.fromEnvironment? name) :
    (l.withEnvironment fromEnvironment?).act x s = l.act x s := by
  cases x with
  | service id entry baseDir =>
    have hscope : ((l.withEnvironment fromEnvironment?).surroundings s.container).scope.AgreesOn
        (l.surroundings s.container).scope entry.ReadsVariable :=
      ⟨rfl, h id entry baseDir rfl⟩
    have hcompile := Surroundings.compile_congr hscope id baseDir
    have hsurroundings : { l.surroundings s.container with
        scope := ((l.withEnvironment fromEnvironment?).surroundings s.container).scope } =
        (l.withEnvironment fromEnvironment?).surroundings s.container := rfl
    rw [hsurroundings] at hcompile
    simp only [act, loadServices]
    rw [Act.get_bind_apply, Act.get_bind_apply, hcompile]
  | _ => rfl

theorem exists_visits_of_service {path : String} {s s₁ : Filling σ} {ds : List Deed}
    {rest : List Step} {id baseDir : String} {entry : ServiceEntry} (hdoes : l.Does s ds s₁)
    (hplan : l.reader.plan [] (l.workingDir.join path) =
      ds.map Deed.step ++ .service id entry baseDir :: rest) :
    ∃ location d, l.Visits path s location d ∧ d.services.get? id = some entry := by
  have hsplit : l.reader.plan [] (l.workingDir.join path) =
      (ds.map Deed.step ++ [.service id entry baseDir]) ++ rest := by simp [hplan]
  obtain ⟨location, d, henter, hentry⟩ :=
    l.reader.plan_grounded [] (l.workingDir.join path) _ rest hsplit (.service id entry baseDir)
      (by simp)
  have hmem : .enter location d ∈ ds.map Deed.step := by simpa using henter
  obtain ⟨x, hx, hstep⟩ := List.mem_map.mp hmem
  obtain rfl : x = .enter location d := by cases x <;> simp_all [Deed.step]
  exact ⟨location, d, ⟨ds, s₁, hdoes, ⟨_, hplan.symm⟩, hx⟩, Table.mem_entries_iff.mp hentry⟩

/-- A load runs alike under every environment that gives the variables which the services of the
visited documents read the same values: the outcome, the state and every event agree. -/
theorem load_noninterference (l : Loader σ) (fromEnvironment? : String → Option String)
    (path : String) (s : Filling σ)
    (h : ∀ location d, l.Visits path s location d → ∀ name, d.ReadsVariable name →
      fromEnvironment? name = l.fromEnvironment? name) :
    (l.withEnvironment fromEnvironment?).load path s = l.load path s := by
  rw [load_eq_perform, load_eq_perform]
  refine (perform_congr fun ds x rest s₁ hsplit hdoes => ?_).symm
  refine (act_withEnvironment fun id entry baseDir hx name hname => ?_).symm
  subst hx
  obtain ⟨location, d, hvisits, hentry⟩ := exists_visits_of_service hdoes hsplit
  exact h location d hvisits name ⟨id, entry, hentry, hname⟩

def hookRecord : ServiceRecord where
  className := some "mailer"
  arguments := [.list [.text "%env(MODE)%"]]
  tags := [⟨"hook", some (Table.ofList [("token", .text "%env(TOKEN)%")])⟩]

def hookDocument : Document where
  parameters := Table.ofList [("token", .text "%env(TOKEN)%")]
  services := Table.ofList [("mail", .record hookRecord)]

def hookPlace : Location := Location.root.join "app/hook.yml"

def hooked : Loader Modules.Registry where
  reader := (StoredDocuments.ofList
    [("/app/hook.yml", .map
      [(.text "parameters", .map [(.text "token", .text "%env(TOKEN)%")]),
       (.text "services", .map
        [(.text "mail", .map
          [(.text "class", .text "mailer"),
           (.text "arguments", .list [.list [.text "%env(MODE)%"]]),
           (.text "tags", .list
            [.map [(.text "name", .text "hook"),
              (.text "attributes", .map [(.text "token", .text "%env(TOKEN)%")])]])])])])]).reader
  locator := Modules.Registry.locator
  fromEnvironment? name := if name = "MODE" then some "live" else none

def hookStart : Filling Modules.Registry :=
  ⟨{}, Table.ofList [("mailer", .object (.text "Mailer"))]⟩

theorem hooked_visits {s : Filling Modules.Registry} {location : Location} {d : Document}
    (h : hooked.Visits "/app/hook.yml" s location d) : d = hookDocument := by
  obtain ⟨ds, s₁, -, hprefix, hmem⟩ := h
  have hholds : hooked.reader.Holds hookPlace hookDocument := ⟨_, rfl, rfl⟩
  have hplace : hooked.workingDir.join "/app/hook.yml" = hookPlace := by decide +kernel
  have hstep : .enter location d ∈ hooked.reader.plan [] hookPlace :=
    hplace ▸ hprefix.subset (List.mem_map_of_mem hmem)
  rw [Reader.plan_of_holds (by simp) hholds] at hstep
  have himported : hookDocument.imported hookPlace = [] := rfl
  have hentered : location = hookPlace ∧ d = hookDocument := by
    simpa [himported, Document.parameterSteps, Document.serviceSteps] using hstep
  exact hentered.2

theorem hookDocument_readsVariable {name : String} (h : hookDocument.ReadsVariable name) :
    name = "MODE" := by
  obtain ⟨id, entry, hentry, hread⟩ := h
  have hentries : hookDocument.services.entries = [("mail", .record hookRecord)] := rfl
  have hmem := Table.mem_of_find hentry
  rw [hentries, List.mem_singleton] at hmem
  cases hmem
  obtain ⟨-, slot, v, -, hv, way, expression, hnames, hway⟩ := hread
  have htext : "%" ++ expression ++ "%" = "%env(MODE)%" := by
    cases slot with
    | argument n =>
      cases n with
      | succ n => cases hv
      | zero =>
        cases hv
        cases way with
        | nil => cases hway
        | cons m way =>
          cases m with
          | succ m => cases hway
          | zero =>
            cases way with
            | nil => simpa [Value.at?, Value.parts, eq_comm] using hway
            | cons => cases hway
    | property other => cases hv
    | callArgument call n => cases hv
  have hinterpolation : TextMeaning.of "%env(MODE)%" = .interpolation expression :=
    htext ▸ TextMeaning.of_enclosed expression
  have hexpression : TextMeaning.of "%env(MODE)%" = .interpolation "env(MODE)" := by decide
  obtain rfl : expression = "env(MODE)" := by
    rw [hexpression] at hinterpolation
    cases hinterpolation
    rfl
  have hname : variableName? "env(MODE)" = some "MODE" := by decide
  exact Option.some.inj ((variableName?_eq_some_iff.mpr hnames).symm.trans hname)

theorem hooked_noninterference :
    let others : String → Option String := fun name =>
      some (if name = "MODE" then "live" else "secret")
    (∀ location d, hooked.Visits "/app/hook.yml" hookStart location d →
      ∀ name, d.ReadsVariable name → others name = hooked.fromEnvironment? name) ∧
    (hooked.withEnvironment others).load "/app/hook.yml" hookStart =
      hooked.load "/app/hook.yml" hookStart := by
  intro others
  have hagree : ∀ location d, hooked.Visits "/app/hook.yml" hookStart location d →
      ∀ name, d.ReadsVariable name → others name = hooked.fromEnvironment? name := by
    intro location d hvisits name hname
    obtain rfl := hooked_visits hvisits
    obtain rfl := hookDocument_readsVariable hname
    rfl
  exact ⟨hagree, load_noninterference hooked others "/app/hook.yml" hookStart hagree⟩

end Loader
end Wiring
