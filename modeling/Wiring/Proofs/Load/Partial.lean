import Wiring.Proofs.Load.Deed

/-! How far a load gets. What it writes is told by its plan: all the writes of the plan, or those
before the first step that fails. -/
namespace Wiring

namespace Step

def DeclaredIn (steps : List Step) : Step → Prop
  | .parameter name v =>
    ∃ location d, .enter location d ∈ steps ∧ (name, v) ∈ d.parameters.entries
  | .service id entry _ =>
    ∃ location d, .enter location d ∈ steps ∧ (id, entry) ∈ d.services.entries
  | _ => True

theorem DeclaredIn.mono {xs ys : List Step} {x : Step} (h : x.DeclaredIn xs) (hsub : xs ⊆ ys) :
    x.DeclaredIn ys := by
  cases x with
  | parameter name v =>
    obtain ⟨location, d, hmem, hentry⟩ := h
    exact ⟨location, d, hsub hmem, hentry⟩
  | service id entry baseDir =>
    obtain ⟨location, d, hmem, hentry⟩ := h
    exact ⟨location, d, hsub hmem, hentry⟩
  | _ => trivial

/-- After some steps, whatever part of a list is performed prescribes nothing on its own. -/
def Grounded (earlier steps : List Step) : Prop :=
  ∀ before after, steps = before ++ after → ∀ x ∈ before, x.DeclaredIn (earlier ++ before)

theorem Grounded.mono {xs ys steps : List Step} (h : Grounded xs steps) (hsub : xs ⊆ ys) :
    Grounded ys steps := by
  intro before after hsplit x hx
  refine (h before after hsplit x hx).mono fun y hy => ?_
  obtain hy | hy := List.mem_append.mp hy
  · exact List.mem_append_left _ (hsub hy)
  · exact List.mem_append_right _ hy

theorem Grounded.of_declared {earlier steps : List Step} (h : ∀ x ∈ steps, x.DeclaredIn earlier) :
    Grounded earlier steps := by
  intro before after hsplit x hx
  have hmem : x ∈ steps := hsplit ▸ List.mem_append_left _ hx
  exact (h x hmem).mono (List.subset_append_left ..)

theorem Grounded.append {earlier xs ys : List Step} (hx : Grounded earlier xs)
    (hy : Grounded earlier ys) : Grounded earlier (xs ++ ys) := by
  intro before after hsplit x hmem
  obtain ⟨zs, rfl, hys⟩ | ⟨zs, hxs, -⟩ := List.append_eq_append_iff.mp hsplit
  · obtain h | h := List.mem_append.mp hmem
    · refine (hx xs [] (List.append_nil _).symm x h).mono ?_
      rw [← List.append_assoc]
      exact List.subset_append_left ..
    · refine (hy zs after hys x h).mono fun y hy => ?_
      obtain hy | hy := List.mem_append.mp hy
      · exact List.mem_append_left _ hy
      · exact List.mem_append_right _ (List.mem_append_right _ hy)
  · exact hx before zs hxs x hmem

theorem Grounded.flatMap {α : Type} {earlier : List Step} {f : α → List Step} {xs : List α}
    (h : ∀ a ∈ xs, Grounded earlier (f a)) : Grounded earlier (xs.flatMap f) := by
  induction xs with
  | nil => exact .of_declared (by simp)
  | cons a as ih =>
    rw [List.flatMap_cons]
    exact (h a (List.mem_cons_self ..)).append (ih fun b hb => h b (List.mem_cons_of_mem _ hb))

theorem Grounded.cons {earlier xs : List Step} {x : Step} (hx : x.DeclaredIn earlier)
    (hxs : Grounded (x :: earlier) xs) : Grounded earlier (x :: xs) := by
  intro before after hsplit y hy
  cases before with
  | nil => simp at hy
  | cons z zs =>
    obtain ⟨rfl, htail⟩ := List.cons.inj hsplit
    obtain rfl | hy := List.mem_cons.mp hy
    · exact hx.mono (List.subset_append_left ..)
    · refine (hxs zs after htail y hy).mono fun w hw => ?_
      simpa [or_left_comm] using hw

end Step

namespace Reader

/-- In a plan every write is prescribed by a document that was entered before. -/
theorem plan_grounded (r : Reader) (chain : List Location) (location : Location) :
    Step.Grounded [] (r.plan chain location) := by
  induction chain, location using plan_induction (r := r) with
  | refused h =>
    rw [plan_of_refused h]
    exact .of_declared fun x hx => by rw [List.mem_singleton.mp hx]; trivial
  | @entered chain location d h hd ih =>
    have hparameters : Step.Grounded [.enter location d] d.parameterSteps := by
      refine .of_declared fun x hx => ?_
      obtain ⟨e, he, rfl⟩ := List.mem_map.mp hx
      exact ⟨location, d, List.mem_cons_self .., he⟩
    have hservices : Step.Grounded [.enter location d] (d.serviceSteps location) := by
      refine .of_declared fun x hx => ?_
      obtain ⟨e, he, rfl⟩ := List.mem_map.mp hx
      exact ⟨location, d, List.mem_cons_self .., he⟩
    have himports : Step.Grounded [.enter location d] ((d.imported location).flatMap
        fun next => .importing next :: r.plan (chain ++ [location]) next) := by
      refine .flatMap fun next _ => .cons trivial ?_
      exact (ih next).mono (List.nil_subset _)
    have hleave : Step.Grounded [.enter location d] [.leave location d] :=
      .of_declared fun x hx => by rw [List.mem_singleton.mp hx]; trivial
    rw [plan_of_holds h hd]
    simp only [List.cons_append]
    exact .cons trivial (((hparameters.append himports).append hservices).append hleave)

end Reader

def Write.NamedIn (d : Document) : Write → Prop
  | .parameter name _ => name ∈ d.parameters.names
  | .service id _ => id ∈ d.services.names

namespace Deed

theorem mem_entered {location : Location} {d : Document} {ds : List Deed}
    (h : .enter location d ∈ ds.map step) : d ∈ entered ds := by
  obtain ⟨x, hx, hstep⟩ := List.mem_map.mp h
  obtain rfl : x = .enter location d := by cases x <;> simp_all [step]
  exact List.mem_filterMap.mpr ⟨_, hx, rfl⟩

theorem exists_entered_of_mem_writes {ds : List Deed}
    (hds : ∀ x ∈ ds.map step, x.DeclaredIn (ds.map step)) {w : Write} (hw : w ∈ writes ds) :
    ∃ d ∈ entered ds, w.NamedIn d := by
  obtain ⟨x, hx, hwrite⟩ := List.mem_filterMap.mp hw
  have hdeclared := hds x.step (List.mem_map_of_mem hx)
  cases x with
  | parameter name v =>
    cases hwrite
    obtain ⟨location, d, henter, hentry⟩ := hdeclared
    exact ⟨d, mem_entered henter, List.mem_map_of_mem hentry⟩
  | service id entry baseDir compiled =>
    cases hwrite
    obtain ⟨location, d, henter, hentry⟩ := hdeclared
    exact ⟨d, mem_entered henter, List.mem_map_of_mem hentry⟩
  | _ => cases hwrite

end Deed

namespace Loader
variable {σ : Type}

theorem container_of_not_entered (l : Loader σ) {chain : List Location} {location : Location}
    (h : location ∈ chain ∨ ¬ ∃ d, l.reader.Holds location d) (s : Filling σ) :
    ((l.loadDocument chain location).after s).container = s.container := by
  obtain ⟨es, e, hrefused⟩ | ⟨hnot, hholds⟩ := l.reader.refused_or_holds chain location
  · rw [loadDocument_eq_perform, Reader.plan_of_refused hrefused, perform_singleton]
    rfl
  · obtain h | h := h
    · exact absurd h hnot
    · exact absurd hholds h

/-- Whatever becomes of a load, the container holds what the performed steps wrote: all steps of
the plan, or those before the first that fails. What no entered document names is as it was. -/
theorem load_writes (l : Loader σ) (path : String) (s : Filling σ) :
    ∃ ds s₁, l.Does s ds s₁ ∧
      ((l.load path).after s).container = Write.applyAll s.container (Deed.writes ds) ∧
      ((l.load path).result s = .ok () ∧
          l.reader.plan [] (l.workingDir.join path) = ds.map Deed.step ∨
        ∃ x rest e, l.reader.plan [] (l.workingDir.join path) = ds.map Deed.step ++ x :: rest ∧
          (l.act x).result s₁ = .error e ∧ (l.load path).result s = .error e ∧
          ((l.load path).after s).container = s₁.container) ∧
      (∀ name, (∀ d ∈ Deed.entered ds, name ∉ d.parameters.names) →
        ((l.load path).after s).container.parameters.get? name =
          s.container.parameters.get? name) ∧
      (∀ id, (∀ d ∈ Deed.entered ds, id ∉ d.services.names) →
        ((l.load path).after s).container.aliases.get? id = s.container.aliases.get? id ∧
          ((l.load path).after s).container.definitions.get? id =
            s.container.definitions.get? id) ∧
      ∀ chain location (t : Filling σ),
        (location ∈ chain ∨ ¬ ∃ d, l.reader.Holds location d) →
        ((l.loadDocument chain location).after t).container = t.container := by
  obtain ⟨ds, s₁, hdoes, hcases⟩ :=
    l.perform_cases (l.reader.plan [] (l.workingDir.join path)) s
  rw [← load_eq_perform] at hcases
  have hcontainer : ((l.load path).after s).container =
      Write.applyAll s.container (Deed.writes ds) := by
    rw [← hdoes.container]
    obtain ⟨-, rfl, -⟩ | ⟨x, rest, e, -, -, -, -, h⟩ := hcases
    · rfl
    · exact h
  have hground := l.reader.plan_grounded [] (l.workingDir.join path)
  have hds : ∀ x ∈ ds.map Deed.step, x.DeclaredIn (ds.map Deed.step) := by
    obtain ⟨-, -, h⟩ | ⟨x, rest, e, h, -⟩ := hcases
    · exact hground _ [] (by rw [h, List.append_nil])
    · exact hground _ (x :: rest) h
  refine ⟨ds, s₁, hdoes, hcontainer, ?_, fun name hname => ?_, fun id hid => ?_,
    fun chain location t h => l.container_of_not_entered h t⟩
  · obtain ⟨hok, -, hsteps⟩ | ⟨x, rest, e, hsteps, hfail, herror, -, h⟩ := hcases
    · exact .inl ⟨hok, hsteps⟩
    · exact .inr ⟨x, rest, e, hsteps, hfail, herror, h⟩
  · have hnone : lastSome? (Write.parameter? name) (Deed.writes ds) = none := by
      refine lastSome?_eq_none_iff.mpr fun w hw => ?_
      obtain ⟨d, hd, hnamed⟩ := Deed.exists_entered_of_mem_writes hds hw
      cases w with
      | service => rfl
      | parameter n v => exact if_neg fun (h : n = name) => hname d hd (h ▸ hnamed)
    rw [hcontainer, Write.parameters_applyAll, hnone]
    rfl
  · have hnone : lastSome? (Write.service? id) (Deed.writes ds) = none := by
      refine lastSome?_eq_none_iff.mpr fun w hw => ?_
      obtain ⟨d, hd, hnamed⟩ := Deed.exists_entered_of_mem_writes hds hw
      cases w with
      | parameter => rfl
      | service i compiled => exact if_neg fun (h : i = id) => hid d hd (h ▸ hnamed)
    have hregistration := Write.registration_applyAll s.container (Deed.writes ds) id
    rw [← hcontainer, hnone] at hregistration
    exact Prod.ext_iff.mp hregistration

end Loader
end Wiring
