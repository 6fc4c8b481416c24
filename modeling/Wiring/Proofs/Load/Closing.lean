import Wiring.Proofs.Compile.Failures
import Wiring.Proofs.Load.Visit

/-! What a load tells on its way, in the order of its performed steps: the documents that it reads,
and what it logs as done, the services that it registered and the documents that it compiled. -/
namespace Wiring

def Deed.tells : Deed → List Event
  | .importing location => [.log (.importing location.text)]
  | .enter location _ => [.read location.text]
  | .parameter .. => []
  | .service id _ _ _ => [.log (.registered id)]
  | .leave location d =>
    [.log (.compiled location.text d.parameters.size d.imports.length d.services.size)]

def Deed.closings : Deed → List Event
  | .service id _ _ _ => [.log (.registered id)]
  | .leave location d =>
    [.log (.compiled location.text d.parameters.size d.imports.length d.services.size)]
  | _ => []

theorem Deed.filter_tells (x : Deed) : x.tells.filter Event.isClosing = x.closings := by
  cases x <;> rfl

namespace Visit

/-- What a visit logs as done of its own document: each of its services, and then itself. -/
def closings (t : Visit) : List Event :=
  t.services.names.map (fun id => .log (.registered id)) ++
    (Deed.leave t.location t.document).closings

theorem flatMap_closings_parameters (d : Document) :
    (d.parameters.entries.map fun e => Deed.parameter e.1 e.2).flatMap Deed.closings = [] := by
  simp [List.flatMap_map, Deed.closings]

theorem flatMap_closings_serviceDeeds (t : Visit) :
    t.serviceDeeds.flatMap Deed.closings =
      t.services.names.map fun id => .log (.registered id) := by
  rw [serviceDeeds, List.flatMap_map, Table.names, List.map_map, List.map_eq_flatMap]
  rfl

theorem flatMap_closings_imports {ts : List Visit}
    (h : ∀ t ∈ ts, t.deeds.flatMap Deed.closings = t.postorder.flatMap closings) :
    (ts.flatMap fun t => .importing t.location :: t.deeds).flatMap Deed.closings =
      (ts.flatMap postorder).flatMap closings := by
  rw [List.flatMap_assoc, List.flatMap_assoc]
  exact List.flatMap_congr h

theorem flatMap_closings_deeds (t : Visit) :
    t.deeds.flatMap Deed.closings = t.postorder.flatMap closings := by
  induction t using induction with
  | node location d imports services ih =>
    rw [deeds_eq, opening, postorder]
    simp only [List.flatMap_append, List.flatMap_cons, List.flatMap_nil, List.append_nil,
      List.append_assoc, flatMap_closings_parameters, flatMap_closings_serviceDeeds,
      flatMap_closings_imports ih]
    rfl

theorem text_eq_of_compiled_mem {t : Visit} {text : String} {parameters imports services : Nat}
    (h : .log (.compiled text parameters imports services) ∈ t.closings) :
    text = t.location.text := by
  obtain h | h := List.mem_append.mp h
  · obtain ⟨id, -, h⟩ := List.mem_map.mp h
    cases h
  · cases List.mem_singleton.mp h
    rfl

end Visit

namespace Loader
variable {σ : Type} {l : Loader σ}

theorem Done.filter_events {p : Event → Bool}
    (hquiet : ∀ specifier directory wanted,
      (l.locator specifier directory wanted).EmitsOnly fun e => p e = false)
    (hnotSet : ∀ name, p (.log (.variableNotSet name)) = false)
    (hlocated : ∀ specifier directory wanted, p (.located specifier directory wanted) = false)
    {x : Deed} {s s' : Filling σ} (h : l.Done x s s') :
    ((l.act x.step).events s).filter p = x.tells.filter p := by
  cases x with
  | service id entry baseDir compiled =>
    obtain ⟨hcompiled, -⟩ := h
    have hm : (onModules ((l.surroundings s.container).compile id entry baseDir)).result s =
        .ok compiled := hcompiled
    have hevents : (l.act (.service id entry baseDir)).events s =
        ((l.surroundings s.container).compile id entry baseDir).events s.modules ++
          [.log (.registered id)] := by
      rw [act, loadServices, Act.events_bind_ok (Act.result_get s), Act.after_get,
        Act.events_bind_ok hm]
      rfl
    have hcompile := (l.surroundings s.container).compile_emitsOnly
      (Q := fun e => p e = false) hquiet hnotSet hlocated id entry baseDir
    have hnone :
        (((l.surroundings s.container).compile id entry baseDir).events s.modules).filter p = [] :=
      List.filter_eq_nil_iff.mpr fun e he => by simp [hcompile _ e he]
    rw [Deed.step, hevents, List.filter_append, hnone]
    rfl
  | _ => rfl

theorem Does.filter_events {p : Event → Bool}
    (hquiet : ∀ specifier directory wanted,
      (l.locator specifier directory wanted).EmitsOnly fun e => p e = false)
    (hnotSet : ∀ name, p (.log (.variableNotSet name)) = false)
    (hlocated : ∀ specifier directory wanted, p (.located specifier directory wanted) = false)
    {ds : List Deed} {s s' : Filling σ} (h : l.Does s ds s') :
    ((l.perform (ds.map Deed.step)).events s).filter p = (ds.flatMap Deed.tells).filter p := by
  induction h with
  | nil s => rfl
  | @cons s s₁ s' x xs hdone _ ih =>
    obtain ⟨hresult, hafter⟩ := l.act_of_done hdone
    rw [List.map_cons, perform, Act.events_bind_ok hresult, hafter, List.filter_append, ih,
      hdone.filter_events hquiet hnotSet hlocated, List.flatMap_cons, List.filter_append]

theorem Does.closings
    (hquiet : ∀ specifier directory wanted,
      (l.locator specifier directory wanted).EmitsOnly fun e => e.isClosing = false)
    {ds : List Deed} {s s' : Filling σ} (h : l.Does s ds s') :
    ((l.perform (ds.map Deed.step)).events s).filter Event.isClosing =
      ds.flatMap Deed.closings := by
  rw [h.filter_events hquiet (fun _ => rfl) (fun _ _ _ => rfl), List.filter_flatMap]
  exact List.flatMap_congr fun x _ => x.filter_tells

theorem Does.closings_of_refused
    (hquiet : ∀ specifier directory wanted,
      (l.locator specifier directory wanted).EmitsOnly fun e => e.isClosing = false)
    {ds : List Deed} {s s' : Filling σ} (h : l.Does s ds s') (e : Failure) (rest : List Step) :
    ((l.perform (ds.map Deed.step ++ .refuse [] e :: rest)).events s).filter Event.isClosing =
      ds.flatMap Deed.closings := by
  obtain ⟨hresult, hafter⟩ := l.perform_of_does h
  have hrefused : (l.act (.refuse [] e)).result s' = .error e := rfl
  rw [perform_append, Act.events_bind_ok hresult, hafter, perform, Act.events_bind_error hrefused,
    List.filter_append, h.closings hquiet]
  exact List.append_nil _

end Loader
end Wiring
