import Wiring.Proofs.Load.Partial
import Wiring.Proofs.Load.Replay

/-! Performed steps in another order. Two runs of steps that neither write nor look up what the
other one writes can change places. -/
namespace Wiring

namespace Document

/-- The documents set different parameters and declare different services, and the services of
neither look up what the other one sets. -/
structure Apart (d e : Document) : Prop where
  parameters : ∀ name ∈ d.parameters.names, name ∉ e.parameters.names
  services : ∀ id ∈ d.services.names, id ∉ e.services.names
  lookups : ∀ name ∈ e.parameters.names, ¬ d.LooksUp name
  lookedUp : ∀ name ∈ d.parameters.names, ¬ e.LooksUp name

end Document

namespace Deed

def DeclaredBy (P : Document → Prop) : Deed → Prop
  | .parameter name _ => ∃ d, P d ∧ name ∈ d.parameters.names
  | .service id entry _ _ => ∃ d, P d ∧ d.services.get? id = some entry
  | _ => True

variable {P Q : Document → Prop}

theorem DeclaredBy.mono {x : Deed} (h : x.DeclaredBy P) (hsub : ∀ d, P d → Q d) :
    x.DeclaredBy Q := by
  cases x with
  | parameter name v =>
    obtain ⟨d, hd, hname⟩ := h
    exact ⟨d, hsub d hd, hname⟩
  | service id entry baseDir compiled =>
    obtain ⟨d, hd, hentry⟩ := h
    exact ⟨d, hsub d hd, hentry⟩
  | _ => trivial

theorem DeclaredBy.exists_of_looksUp {x : Deed} (h : x.DeclaredBy P) {name : String}
    (hname : x.LooksUp name) : ∃ d, P d ∧ d.LooksUp name := by
  cases x with
  | service id entry baseDir compiled =>
    obtain ⟨d, hd, hentry⟩ := h
    exact ⟨d, hd, id, entry, hentry, hname⟩
  | _ => exact absurd hname nofun

theorem exists_of_mem_writes {xs : List Deed} (hxs : ∀ x ∈ xs, x.DeclaredBy P) {w : Write}
    (hw : w ∈ writes xs) : ∃ d, P d ∧ w.NamedIn d := by
  obtain ⟨x, hx, hwrite⟩ := List.mem_filterMap.mp hw
  have hdeclared := hxs x hx
  cases x with
  | parameter name v =>
    cases hwrite
    exact hdeclared
  | service id entry baseDir compiled =>
    cases hwrite
    obtain ⟨d, hd, hentry⟩ := hdeclared
    exact ⟨d, hd, Table.mem_names_of_get? hentry⟩
  | _ => cases hwrite

end Deed

namespace Loader
variable {σ : Type} {l : Loader σ} {s s' t t' : Filling σ} {P Q : Document → Prop}

/-! What steps leave alone. -/

theorem lastSome?_parameter_of_declared {xs : List Deed} (hxs : ∀ x ∈ xs, x.DeclaredBy P)
    {name : String} (hname : ∀ d, P d → name ∉ d.parameters.names) :
    lastSome? (Write.parameter? name) (Deed.writes xs) = none := by
  refine lastSome?_eq_none_iff.mpr fun w hw => ?_
  obtain ⟨d, hd, hnamed⟩ := Deed.exists_of_mem_writes hxs hw
  cases w with
  | service => rfl
  | parameter n v => exact if_neg fun (heq : n = name) => hname d hd (heq ▸ hnamed)

theorem lastSome?_service_of_declared {xs : List Deed} (hxs : ∀ x ∈ xs, x.DeclaredBy P)
    {id : String} (hid : ∀ d, P d → id ∉ d.services.names) :
    lastSome? (Write.service? id) (Deed.writes xs) = none := by
  refine lastSome?_eq_none_iff.mpr fun w hw => ?_
  obtain ⟨d, hd, hnamed⟩ := Deed.exists_of_mem_writes hxs hw
  cases w with
  | parameter => rfl
  | service i compiled => exact if_neg fun (heq : i = id) => hid d hd (heq ▸ hnamed)

theorem Does.parameters_of_declared {xs : List Deed} (h : l.Does s xs s')
    (hxs : ∀ x ∈ xs, x.DeclaredBy P) {name : String}
    (hname : ∀ d, P d → name ∉ d.parameters.names) :
    s'.container.parameters.get? name = s.container.parameters.get? name := by
  rw [h.parameters, lastSome?_parameter_of_declared hxs hname, Option.none_or]

/-- Where no name is written by both runs of steps, it does not matter which goes first. -/
theorem Does.agrees_of_apart {xs ys : List Deed} (h : l.Does s (xs ++ ys) s')
    (h' : l.Does s (ys ++ xs) t) (hxs : ∀ x ∈ xs, x.DeclaredBy P)
    (hys : ∀ y ∈ ys, y.DeclaredBy Q) (hapart : ∀ d e, P d → Q e → d.Apart e) :
    s'.container.Agrees t.container := by
  have hparameter : ∀ name, lastSome? (Write.parameter? name) (Deed.writes xs) = none ∨
      lastSome? (Write.parameter? name) (Deed.writes ys) = none := by
    intro name
    by_cases hname : ∃ d, P d ∧ name ∈ d.parameters.names
    · obtain ⟨d, hd, hname⟩ := hname
      exact .inr (lastSome?_parameter_of_declared hys fun e he =>
        (hapart d e hd he).parameters name hname)
    · exact .inl (lastSome?_parameter_of_declared hxs fun d hd hmem => hname ⟨d, hd, hmem⟩)
  have hservice : ∀ id, lastSome? (Write.service? id) (Deed.writes xs) = none ∨
      lastSome? (Write.service? id) (Deed.writes ys) = none := by
    intro id
    by_cases hid : ∃ d, P d ∧ id ∈ d.services.names
    · obtain ⟨d, hd, hid⟩ := hid
      exact .inr (lastSome?_service_of_declared hys fun e he => (hapart d e hd he).services id hid)
    · exact .inl (lastSome?_service_of_declared hxs fun d hd hmem => hid ⟨d, hd, hmem⟩)
  refine .of_registration (fun name => ?_) fun id => ?_
  · rw [h'.parameters, h.parameters, Deed.writes_append, Deed.writes_append,
      lastSome?_append_comm (hparameter name)]
  · rw [h'.registration, h.registration, Deed.writes_append, Deed.writes_append,
      lastSome?_append_comm (hservice id)]

/-! States that a load cannot tell apart. -/

/-- The containers have the same under every name, and modules are found alike. -/
structure Matches (l : Loader σ) (s t : Filling σ) : Prop where
  defaultDir : t.container.defaultDir = s.container.defaultDir
  agrees : s.container.Agrees t.container
  modules : l.locator.Alike s.modules t.modules

theorem Matches.refl (l : Loader σ) (s : Filling σ) : l.Matches s s :=
  ⟨rfl, ⟨fun _ => rfl, fun _ => rfl, fun _ => rfl⟩, .refl _ _⟩

theorem Matches.trans {u : Filling σ} (h : l.Matches s t) (h' : l.Matches t u) : l.Matches s u where
  defaultDir := h'.defaultDir.trans h.defaultDir
  agrees := {
    parameters := fun name => (h'.agrees.parameters name).trans (h.agrees.parameters name)
    aliases := fun id => (h'.agrees.aliases id).trans (h.agrees.aliases id)
    definitions := fun id => (h'.agrees.definitions id).trans (h.agrees.definitions id) }
  modules := h.modules.trans h'.modules

theorem Does.of_matches (hl : l.locator.Steady) {xs : List Deed} (h : l.Does s xs s')
    (hmatches : l.Matches s t) : ∃ t', l.Does t xs t' ∧ l.Matches s' t' := by
  have hstands : l.StandsIn (fun _ => True) s t := by
    refine ⟨hmatches.defaultDir, fun name _ v hv => ?_, hmatches.modules⟩
    rw [hmatches.agrees.parameters, hv]
  obtain ⟨t', hagain, hstands⟩ := h.replay hl hstands fun _ _ _ _ => trivial
  exact ⟨t', hagain, hstands.defaultDir, h.agrees hagain hmatches.agrees, hstands.modules⟩

theorem Does.append {xs ys : List Deed} (h : l.Does s xs t) (h' : l.Does t ys s') :
    l.Does s (xs ++ ys) s' := by
  induction h with
  | nil => exact h'
  | cons hdone _ ih => exact .cons hdone (ih h')

/-! Rearranged steps. -/

/-- Wherever the first steps can be performed, so can the second, and they come to the same. -/
def Rearranged (l : Loader σ) (xs ys : List Deed) : Prop :=
  ∀ s s', l.Does s xs s' → ∃ t, l.Does s ys t ∧ l.Matches s' t

theorem Rearranged.refl (l : Loader σ) (xs : List Deed) : l.Rearranged xs xs :=
  fun _ s' h => ⟨s', h, .refl l s'⟩

theorem Rearranged.trans {xs ys zs : List Deed} (h : l.Rearranged xs ys)
    (h' : l.Rearranged ys zs) : l.Rearranged xs zs := by
  intro s s' hdoes
  obtain ⟨t, hdoes, hmatches⟩ := h s s' hdoes
  obtain ⟨u, hdoes, hmatches'⟩ := h' s t hdoes
  exact ⟨u, hdoes, hmatches.trans hmatches'⟩

theorem Rearranged.append (hl : l.locator.Steady) {xs ys xs' ys' : List Deed}
    (h : l.Rearranged xs ys) (h' : l.Rearranged xs' ys') :
    l.Rearranged (xs ++ xs') (ys ++ ys') := by
  intro s s' hdoes
  obtain ⟨s₁, hfirst, hsecond⟩ := hdoes.split
  obtain ⟨t₁, hfirst, hmatches⟩ := h s s₁ hfirst
  obtain ⟨t, hsecond, hmatches⟩ := hsecond.of_matches hl hmatches
  obtain ⟨u, hsecond, hmatches'⟩ := h' t₁ t hsecond
  exact ⟨u, hfirst.append hsecond, hmatches.trans hmatches'⟩

theorem Rearranged.flatMap (hl : l.locator.Steady) {α : Type} {f : α → List Deed} {as bs : List α}
    (h : List.Forall₂ (fun a b => l.Rearranged (f a) (f b)) as bs) :
    l.Rearranged (as.flatMap f) (bs.flatMap f) := by
  induction h with
  | nil => exact .refl l _
  | cons hfirst _ ih =>
    rw [List.flatMap_cons, List.flatMap_cons]
    exact hfirst.append hl ih

theorem Rearranged.swap (hl : l.locator.Steady) {xs ys : List Deed}
    (hxs : ∀ x ∈ xs, x.DeclaredBy P) (hys : ∀ y ∈ ys, y.DeclaredBy Q)
    (hapart : ∀ d e, P d → Q e → d.Apart e) : l.Rearranged (xs ++ ys) (ys ++ xs) := by
  intro s s' hdoes
  obtain ⟨s₁, hfirst, hsecond⟩ := hdoes.split
  -- what the second steps look up is there before the first steps, which do not set it
  have hbefore : l.StandsIn (fun name => ∃ e, Q e ∧ e.LooksUp name) s₁ s := by
    refine ⟨hfirst.defaultDir.symm, fun name ⟨e, he, hlooked⟩ v hv => ?_, (hfirst.modules hl).symm⟩
    have hunset : ∀ d, P d → name ∉ d.parameters.names :=
      fun d hd hname => (hapart d e hd he).lookedUp name hname hlooked
    rw [← hfirst.parameters_of_declared hxs hunset, hv]
  obtain ⟨t₁, hsecond', -⟩ := hsecond.replay hl hbefore fun y hy name hlooked =>
    (hys y hy).exists_of_looksUp hlooked
  have hafter : l.StandsIn (fun name => ∃ d, P d ∧ d.LooksUp name) s t₁ := by
    refine ⟨hsecond'.defaultDir, fun name ⟨d, hd, hlooked⟩ v hv => ?_, hsecond'.modules hl⟩
    have hunset : ∀ e, Q e → name ∉ e.parameters.names :=
      fun e he hname => (hapart d e hd he).lookups name hname hlooked
    rw [hsecond'.parameters_of_declared hys hunset, hv]
  obtain ⟨t, hfirst', -⟩ := hfirst.replay hl hafter fun x hx name hlooked =>
    (hxs x hx).exists_of_looksUp hlooked
  have hswapped := hsecond'.append hfirst'
  refine ⟨t, hswapped, ?_, hdoes.agrees_of_apart hswapped hxs hys hapart, ?_⟩
  · rw [hswapped.defaultDir, hdoes.defaultDir]
  · exact (hdoes.modules hl).symm.trans (hswapped.modules hl)

end Loader
end Wiring
