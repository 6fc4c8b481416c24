import Wiring.Proofs.Compile.Lookups
import Wiring.Proofs.Load.Precedence
import Wiring.Proofs.Modules.Steady

/-! Performed steps that are performed once more, from another state. What was done is done again
wherever the parameters that it looked up are the same, so a load can be repeated. -/
namespace Wiring

def Deed.LooksUp : Deed → String → Prop
  | .service _ entry _ _, name => entry.LooksUp name
  | _, _ => False

/-- The containers have the same under every name, in whatever order. -/
structure Container.Agrees (c c' : Container) : Prop where
  parameters : ∀ name, c'.parameters.get? name = c.parameters.get? name
  aliases : ∀ id, c'.aliases.get? id = c.aliases.get? id
  definitions : ∀ id, c'.definitions.get? id = c.definitions.get? id

theorem Container.Agrees.of_registration {c c' : Container}
    (hparameters : ∀ name, c'.parameters.get? name = c.parameters.get? name)
    (h : ∀ id, c'.registration id = c.registration id) : c.Agrees c' :=
  ⟨hparameters, fun id => congrArg Prod.fst (h id), fun id => congrArg Prod.snd (h id)⟩

namespace Loader
variable {σ : Type} {l : Loader σ}

/-- The second state can stand in for the first: modules are found alike, and the parameters of
some names are there with the values that they have in the first. -/
structure StandsIn (l : Loader σ) (names : String → Prop) (s t : Filling σ) : Prop where
  defaultDir : t.container.defaultDir = s.container.defaultDir
  parameters : ∀ name, names name → ∀ v, s.container.parameters.get? name = some v →
    t.container.parameters.get? name = some v
  modules : l.locator.Alike s.modules t.modules

variable {names : String → Prop} {s s' t : Filling σ}

theorem StandsIn.surroundings (h : l.StandsIn names s t) {looked : String → Prop}
    (hlooked : ∀ name, looked name → names name) :
    (l.surroundings t.container).scope.Covers (l.surroundings s.container).scope looked :=
  ⟨fun name hname => h.parameters name (hlooked name hname), rfl⟩

theorem defaultDir_register (id : String) (compiled : Compiled) (c : Container) :
    (register id compiled c).defaultDir = c.defaultDir := by
  cases compiled <;> rfl

theorem parameters_register (id : String) (compiled : Compiled) (c : Container) :
    (register id compiled c).parameters = c.parameters := by
  cases compiled <;> rfl

theorem StandsIn.refl (l : Loader σ) (names : String → Prop) (s : Filling σ) :
    l.StandsIn names s s :=
  ⟨rfl, fun _ _ _ h => h, .refl l.locator s.modules⟩

theorem StandsIn.compile (h : l.StandsIn names s t) (hl : l.locator.Steady) {entry : ServiceEntry}
    (hlooked : ∀ name, entry.LooksUp name → names name) {id baseDir : String} {compiled : Compiled}
    (hcompiled : ((l.surroundings s.container).compile id entry baseDir).result s.modules =
      .ok compiled) :
    ((l.surroundings t.container).compile id entry baseDir).result t.modules = .ok compiled ∧
      l.locator.Alike s.modules
        (((l.surroundings s.container).compile id entry baseDir).after s.modules) ∧
      l.locator.Alike s.modules
        (((l.surroundings t.container).compile id entry baseDir).after t.modules) := by
  have hsimulated : ((l.surroundings s.container).compile id entry baseDir).SimulatedBy
      (fun m m' => l.locator.Alike s.modules m ∧ l.locator.Alike s.modules m')
      ((l.surroundings t.container).compile id entry baseDir) :=
    Surroundings.compile_simulatedBy (h.surroundings hlooked) h.defaultDir
      (hl.simulatedBy s.modules) id baseDir
  exact hsimulated _ _ ⟨.refl _ _, h.modules⟩ _ hcompiled

/-- One step is performed again, with the same outcome. -/
theorem Done.replay (hl : l.locator.Steady) {x : Deed} (hdone : l.Done x s s')
    (hstands : l.StandsIn names s t) (hlooked : ∀ name, x.LooksUp name → names name) :
    ∃ t', l.Done x t t' ∧ l.StandsIn names s' t' := by
  cases x with
  | parameter name v =>
    obtain rfl := hdone
    refine ⟨_, rfl, hstands.defaultDir, fun other hother w hw => ?_, hstands.modules⟩
    simp only [Container.setParameter, Table.get?_set] at hw ⊢
    by_cases h : other = name
    · simpa [h] using hw
    · rw [if_neg h] at hw ⊢
      exact hstands.parameters other hother w hw
  | service id entry baseDir compiled =>
    obtain ⟨hcompiled, rfl⟩ := hdone
    obtain ⟨hagain, hbefore, hafter⟩ := hstands.compile hl hlooked hcompiled
    refine ⟨_, ⟨hagain, rfl⟩, ?_, ?_, hbefore.symm.trans hafter⟩
    · rw [defaultDir_register, defaultDir_register]
      exact hstands.defaultDir
    · rw [parameters_register, parameters_register]
      exact hstands.parameters
  | _ =>
    obtain rfl := hdone
    exact ⟨t, rfl, hstands⟩

theorem Does.replay (hl : l.locator.Steady) {ds : List Deed} (hdoes : l.Does s ds s')
    (hstands : l.StandsIn names s t) (hlooked : ∀ x ∈ ds, ∀ name, x.LooksUp name → names name) :
    ∃ t', l.Does t ds t' ∧ l.StandsIn names s' t' := by
  induction hdoes generalizing t with
  | nil s => exact ⟨t, .nil t, hstands⟩
  | @cons s s₁ s' x xs hdone _ ih =>
    obtain ⟨t₁, hagain, hstands⟩ := hdone.replay hl hstands (hlooked x (List.mem_cons_self ..))
    obtain ⟨t', hrest, hstands⟩ := ih hstands fun y hy => hlooked y (List.mem_cons_of_mem _ hy)
    exact ⟨t', .cons hagain hrest, hstands⟩

theorem Done.modules (hl : l.locator.Steady) {x : Deed} (h : l.Done x s s') :
    l.locator.Alike s.modules s'.modules := by
  cases x with
  | service id entry baseDir compiled =>
    obtain ⟨hcompiled, rfl⟩ := h
    exact ((StandsIn.refl l entry.LooksUp s).compile hl (fun _ h => h) hcompiled).2.1
  | _ =>
    obtain rfl := h
    exact .refl _ _

theorem Does.modules (hl : l.locator.Steady) {ds : List Deed} (h : l.Does s ds s') :
    l.locator.Alike s.modules s'.modules := by
  induction h with
  | nil s => exact .refl _ _
  | cons hdone _ ih => exact (hdone.modules hl).trans ih

theorem Does.defaultDir {ds : List Deed} (h : l.Does s ds s') :
    s'.container.defaultDir = s.container.defaultDir := by
  rw [h.container, Write.defaultDir_applyAll]

theorem Does.agrees {t' : Filling σ} {ds : List Deed} (h : l.Does s ds s') (h' : l.Does t ds t')
    (hagrees : s.container.Agrees t.container) : s'.container.Agrees t'.container := by
  have hregistration : ∀ id, t.container.registration id = s.container.registration id :=
    fun id => Prod.ext (hagrees.aliases id) (hagrees.definitions id)
  refine .of_registration (fun name => ?_) fun id => ?_
  · rw [h.parameters, h'.parameters, hagrees.parameters]
  · rw [h.registration, h'.registration, hregistration]

end Loader
end Wiring
