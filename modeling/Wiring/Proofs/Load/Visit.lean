import Wiring.Proofs.Load.Deed

/-! The tree of a load: a visit for every time a document is entered, below the visit of its
importer. Parameters are written in pre-order of this tree and services in post-order. -/
namespace Wiring

/-- One visit of a document, with the visits of its imports in order and with what each of its
services compiled to. -/
structure Visit where
  location : Location
  document : Document
  imports : List Visit
  services : Table (ServiceEntry × Compiled)

namespace Visit

theorem induction {P : Visit → Prop}
    (node : ∀ location d imports services, (∀ t ∈ imports, P t) →
      P ⟨location, d, imports, services⟩) : ∀ t, P t
  | ⟨location, d, imports, services⟩ =>
    node location d imports services fun t _ => induction node t

def preorder : Visit → List Visit
  | ⟨location, d, imports, services⟩ => ⟨location, d, imports, services⟩ :: imports.flatMap preorder

def postorder : Visit → List Visit
  | ⟨location, d, imports, services⟩ =>
    imports.flatMap postorder ++ [⟨location, d, imports, services⟩]

theorem mem_postorder_iff {t v : Visit} : v ∈ t.postorder ↔ v ∈ t.preorder := by
  induction t using induction with
  | node location d imports services ih =>
    have himports : v ∈ imports.flatMap postorder ↔ v ∈ imports.flatMap preorder := by
      simp only [List.mem_flatMap]
      exact exists_congr fun t => and_congr_right fun ht => ih t ht
    rw [postorder, preorder, List.mem_append, List.mem_singleton, List.mem_cons, himports, or_comm]

/-- The steps that a visit performs. -/
def deeds : Visit → List Deed
  | ⟨location, d, imports, services⟩ =>
    .enter location d :: d.parameters.entries.map (fun e => .parameter e.1 e.2) ++
      imports.flatMap (fun t => .importing t.location :: deeds t) ++
      services.entries.map (fun e => .service e.1 e.2.1 location.directory e.2.2) ++
      [.leave location d]

def opening (t : Visit) : List Deed :=
  .enter t.location t.document :: t.document.parameters.entries.map (fun e => .parameter e.1 e.2) ++
    t.imports.flatMap (fun t => .importing t.location :: t.deeds)

def serviceDeeds (t : Visit) : List Deed :=
  t.services.entries.map fun e => .service e.1 e.2.1 t.location.directory e.2.2

theorem deeds_eq (t : Visit) :
    t.deeds = t.opening ++ t.serviceDeeds ++ [.leave t.location t.document] := by
  obtain ⟨location, d, imports, services⟩ := t
  rw [deeds]
  rfl

def value? (name : String) (t : Visit) : Option Value := t.document.parameters.get? name

def compiled? (id : String) (t : Visit) : Option Compiled := (t.services.map Prod.snd).get? id

/-- The tree is the one that the stored documents prescribe for a location. -/
inductive Prescribed (r : Reader) : Location → Visit → Prop where
  | node {location : Location} {d : Document} {imports : List Visit}
      {services : Table (ServiceEntry × Compiled)} (hd : r.Holds location d)
      (hservices : services.map Prod.fst = d.services)
      (himports : List.Forall₂ (Prescribed r) (d.imported location) imports) :
      Prescribed r location ⟨location, d, imports, services⟩

theorem writes_parameters (es : List (String × Value)) :
    Deed.writes (es.map fun e => .parameter e.1 e.2) = es.map fun e => .parameter e.1 e.2 :=
  Deed.writes_map (fun _ => rfl) es

theorem writes_imports (ts : List Visit) :
    Deed.writes (ts.flatMap fun t => .importing t.location :: t.deeds) =
      ts.flatMap fun t => Deed.writes t.deeds := by
  simp only [Deed.writes_flatMap, Deed.writes_importing]

theorem writes_opening (t : Visit) :
    Deed.writes t.opening =
      t.document.parameters.entries.map (fun e => .parameter e.1 e.2) ++
        t.imports.flatMap fun t => Deed.writes t.deeds := by
  rw [opening, List.cons_append, Deed.writes_enter, Deed.writes_append, writes_parameters,
    writes_imports]

theorem writes_serviceDeeds (t : Visit) :
    Deed.writes t.serviceDeeds =
      (t.services.map Prod.snd).entries.map fun e => .service e.1 e.2 := by
  have hservices := Deed.writes_map
    (f := fun e : String × ServiceEntry × Compiled => .service e.1 e.2.1 t.location.directory e.2.2)
    (fun _ => rfl) t.services.entries
  rw [serviceDeeds, hservices]
  simp [Table.map]

theorem writes_deeds (t : Visit) :
    Deed.writes t.deeds = Deed.writes t.opening ++ Deed.writes t.serviceDeeds := by
  have hleave : Deed.writes [.leave t.location t.document] = [] := rfl
  rw [deeds_eq, Deed.writes_append, Deed.writes_append, hleave, List.append_nil]

theorem lastSome?_parameter_entries (name : String) (d : Document) :
    lastSome? (Write.parameter? name) (d.parameters.entries.map fun e => .parameter e.1 e.2) =
      d.parameters.get? name := by
  rw [lastSome?_map]
  exact Table.lastSome?_entries d.parameters name

theorem lastSome?_parameter_services (name : String) {directory : String}
    (es : List (String × ServiceEntry × Compiled)) :
    lastSome? (Write.parameter? name)
      (Deed.writes (es.map fun e => .service e.1 e.2.1 directory e.2.2)) = none := by
  rw [Deed.writes_map (g := fun e => .service e.1 e.2.2) (fun _ => rfl), lastSome?_map]
  exact lastSome?_none _

theorem lastSome?_parameter (name : String) (t : Visit) :
    lastSome? (Write.parameter? name) (Deed.writes t.deeds) =
      lastSome? (value? name) t.preorder := by
  induction t using induction with
  | node location d imports services ih =>
    rw [writes_deeds, lastSome?_append, serviceDeeds, lastSome?_parameter_services,
      Option.none_or, writes_opening, preorder, lastSome?_append, lastSome?_cons,
      lastSome?_parameter_entries, lastSome?_flatMap, lastSome?_flatMap, lastSome?_congr ih]
    rfl

theorem lastSome?_parameter_opening (name : String) (t : Visit) :
    lastSome? (Write.parameter? name) (Deed.writes t.opening) =
      lastSome? (value? name) t.preorder := by
  rw [← lastSome?_parameter, writes_deeds, lastSome?_append, serviceDeeds,
    lastSome?_parameter_services, Option.none_or]

/-- What a visit last registers for a service is what the last of its visits in post-order says. -/
theorem lastSome?_service (id : String) (t : Visit) :
    lastSome? (Write.service? id) (Deed.writes t.deeds) =
      lastSome? (compiled? id) t.postorder := by
  induction t using induction with
  | node location d imports services ih =>
    have hown : lastSome? (fun e => Write.service? id (.service e.1 e.2))
        (services.map Prod.snd).entries = compiled? id ⟨location, d, imports, services⟩ :=
      Table.lastSome?_entries (services.map Prod.snd) id
    have hparameters : lastSome? (fun e => Write.service? id (.parameter e.1 e.2))
        d.parameters.entries = none :=
      lastSome?_none _
    rw [writes_deeds, writes_opening, writes_serviceDeeds, postorder, lastSome?_append,
      lastSome?_append, lastSome?_append, lastSome?_cons, lastSome?_map, lastSome?_map,
      lastSome?_flatMap, lastSome?_flatMap, hown, hparameters, lastSome?_congr ih,
      Option.or_none, lastSome?_nil, Option.none_or]

theorem Prescribed.location_eq {r : Reader} {location : Location} {t : Visit}
    (h : Prescribed r location t) : t.location = location := by
  cases h
  rfl

theorem Prescribed.of_mem_imports {r : Reader} {location : Location} {t v : Visit}
    (h : t.Prescribed r location) (hv : v ∈ t.imports) : v.Prescribed r v.location := by
  cases h with
  | node _ _ himports =>
    obtain ⟨next, -, hnext⟩ := exists_mem_of_forall₂ himports.flip hv
    rwa [Prescribed.location_eq hnext]

theorem Prescribed.of_mem_preorder {r : Reader} {location : Location} {t v : Visit}
    (h : t.Prescribed r location) (hv : v ∈ t.preorder) : v.Prescribed r v.location := by
  induction t using induction generalizing location with
  | node place d imports services ih =>
    obtain rfl := h.location_eq
    rw [preorder] at hv
    obtain rfl | hv := List.mem_cons.mp hv
    · exact h
    · obtain ⟨t, ht, hv⟩ := List.mem_flatMap.mp hv
      exact ih t ht (h.of_mem_imports ht) hv

theorem Prescribed.holds {r : Reader} {location : Location} {t : Visit}
    (h : t.Prescribed r location) : r.Holds t.location t.document := by
  cases h with
  | node hd _ _ => exact hd

theorem Prescribed.map_fst_services {r : Reader} {location : Location} {t : Visit}
    (h : t.Prescribed r location) : t.services.map Prod.fst = t.document.services := by
  cases h with
  | node _ hservices _ => exact hservices

theorem eq_of_map_step_parameter {ds : List Deed} {es : List (String × Value)}
    (h : ds.map Deed.step = es.map fun e => .parameter e.1 e.2) :
    ds = es.map fun e => .parameter e.1 e.2 := by
  induction es generalizing ds with
  | nil => simpa using h
  | cons e es ih =>
    obtain ⟨x, xs, rfl, hx, hxs⟩ := List.map_eq_cons_iff.mp h
    obtain rfl : x = .parameter e.1 e.2 := by cases x <;> simp_all [Deed.step]
    rw [ih hxs]
    rfl

theorem exists_of_map_step_service {ds : List Deed} {es : List (String × ServiceEntry)}
    {baseDir : String} (h : ds.map Deed.step = es.map fun e => .service e.1 e.2 baseDir) :
    ∃ cs : List (String × ServiceEntry × Compiled), cs.map (fun c => (c.1, c.2.1)) = es ∧
      ds = cs.map fun c => .service c.1 c.2.1 baseDir c.2.2 := by
  induction es generalizing ds with
  | nil => exact ⟨[], rfl, by simpa using h⟩
  | cons e es ih =>
    obtain ⟨x, xs, rfl, hx, hxs⟩ := List.map_eq_cons_iff.mp h
    obtain ⟨cs, rfl, rfl⟩ := ih hxs
    cases x with
    | service id entry dir compiled =>
      simp only [Deed.step, Step.service.injEq] at hx
      obtain ⟨rfl, rfl, rfl⟩ := hx
      exact ⟨(e.1, e.2, compiled) :: cs, rfl, rfl⟩
    | _ => simp [Deed.step] at hx

theorem exists_of_planImports {r : Reader} {chain : List Location}
    (hvisit : ∀ next (ds : List Deed), ds.map Deed.step = r.plan chain next →
      ∃ t, Prescribed r next t ∧ t.deeds = ds)
    {nexts : List Location} {ds : List Deed}
    (h : ds.map Deed.step = nexts.flatMap fun next => .importing next :: r.plan chain next) :
    ∃ ts, List.Forall₂ (Prescribed r) nexts ts ∧
      ts.flatMap (fun t => .importing t.location :: t.deeds) = ds := by
  induction nexts generalizing ds with
  | nil => exact ⟨[], .nil, by simpa using h.symm⟩
  | cons next nexts ih =>
    rw [List.flatMap_cons] at h
    obtain ⟨ds₁, ds₂, rfl, h₁, h₂⟩ := List.map_eq_append_iff.mp h
    obtain ⟨x, xs, rfl, hx, hxs⟩ := List.map_eq_cons_iff.mp h₁
    obtain ⟨t, ht, rfl⟩ := hvisit next xs hxs
    obtain ⟨ts, hts, rfl⟩ := ih h₂
    obtain rfl : x = .importing next := by cases x <;> simp_all [Deed.step]
    exact ⟨t :: ts, .cons ht hts, by rw [List.flatMap_cons, ht.location_eq]⟩

theorem exists_of_plan {r : Reader} {chain : List Location} {location : Location} {ds : List Deed}
    (h : ds.map Deed.step = r.plan chain location) :
    ∃ t, Prescribed r location t ∧ t.deeds = ds := by
  induction chain, location using Reader.plan_induction (r := r) generalizing ds with
  | refused hrefused =>
    rw [Reader.plan_of_refused hrefused] at h
    obtain ⟨x, xs, rfl, hx, -⟩ := List.map_eq_cons_iff.mp h
    cases x <;> simp [Deed.step] at hx
  | @entered chain location d hnot hd ih =>
    rw [Reader.plan_of_holds hnot hd] at h
    obtain ⟨ds', last, rfl, h, hlast⟩ := List.map_eq_append_iff.mp h
    obtain ⟨ds', ds₃, rfl, h, h₃⟩ := List.map_eq_append_iff.mp h
    obtain ⟨ds', ds₂, rfl, h, h₂⟩ := List.map_eq_append_iff.mp h
    obtain ⟨x, ds₁, rfl, hx, h₁⟩ := List.map_eq_cons_iff.mp h
    obtain ⟨y, ys, rfl, hy, hys⟩ := List.map_eq_cons_iff.mp hlast
    obtain ⟨cs, hcs, rfl⟩ := exists_of_map_step_service h₃
    obtain ⟨ts, hts, rfl⟩ := exists_of_planImports (fun next _ => ih next) h₂
    obtain rfl := eq_of_map_step_parameter h₁
    obtain rfl := List.map_eq_nil_iff.mp hys
    obtain rfl : x = .enter location d := by cases x <;> simp_all [Deed.step]
    obtain rfl : y = .leave location d := by cases y <;> simp_all [Deed.step]
    obtain ⟨services, rfl, hservices⟩ := Table.exists_of_map_entries hcs
    exact ⟨⟨location, d, ts, services⟩, .node hd hservices hts, by rw [deeds]⟩

end Visit

namespace Loader
variable {σ : Type} (l : Loader σ)

/-- A load that succeeds performs the steps of a whole tree. -/
theorem exists_visit_of_load {path : String} {s : Filling σ}
    (h : (l.load path).result s = .ok ()) :
    ∃ t : Visit, t.Prescribed l.reader (l.workingDir.join path) ∧
      l.Does s t.deeds ((l.load path).after s) := by
  obtain ⟨ds, hsteps, hdoes⟩ := l.exists_does_of_load h
  obtain ⟨t, ht, rfl⟩ := Visit.exists_of_plan hsteps
  exact ⟨t, ht, hdoes⟩

end Loader
end Wiring
