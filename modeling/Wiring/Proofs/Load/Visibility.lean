import Wiring.Proofs.Compile.Slots
import Wiring.Proofs.Load.Precedence

/-! Which parameters the services of a visit see: those that were written before the first of
them is compiled, which are what the visits up to the last one below it say. -/
namespace Wiring

namespace Visit

theorem lastSome?_parameter_visits (name : String) (ts : List Visit) :
    lastSome? (Write.parameter? name) (ts.flatMap fun t => Deed.writes t.deeds) =
      lastSome? (value? name) (ts.flatMap preorder) := by
  rw [lastSome?_flatMap, lastSome?_flatMap]
  exact lastSome?_congr fun t _ => lastSome?_parameter name t

theorem exists_deeds_of_preorder {t v : Visit} {before after : List Visit}
    (h : t.preorder = before ++ v :: after) :
    ∃ xs ys, t.deeds = xs ++ v.deeds ++ ys ∧ v.preorder <+: v :: after ∧
      ∀ name, lastSome? (Write.parameter? name) (Deed.writes xs) =
        lastSome? (value? name) before := by
  induction t using induction generalizing before after with
  | node location d imports services ih =>
    rw [preorder] at h
    cases before with
    | nil =>
      obtain ⟨rfl, rfl⟩ := List.cons.inj h
      exact ⟨[], [], by simp, ⟨[], by rw [preorder, List.append_nil]⟩, fun _ => rfl⟩
    | cons self before =>
      obtain ⟨rfl, himports⟩ := List.cons.inj h
      obtain ⟨as, t, cs, vs, ws, rfl, rfl, ht, rfl⟩ := exists_of_flatMap_eq himports
      obtain ⟨xs, ys, hdeeds, hprefix, hwrites⟩ := ih t (by simp) ht
      refine ⟨.enter location d :: d.parameters.entries.map (fun e => .parameter e.1 e.2) ++
          as.flatMap (fun t => .importing t.location :: t.deeds) ++ .importing t.location :: xs,
        ys ++ cs.flatMap (fun t => .importing t.location :: t.deeds) ++
          services.entries.map (fun e => .service e.1 e.2.1 location.directory e.2.2) ++
          [.leave location d], ?_, ?_, fun name => ?_⟩
      · rw [deeds, List.flatMap_append, List.flatMap_cons, hdeeds]
        simp
      · exact hprefix.trans ⟨cs.flatMap preorder, rfl⟩
      · rw [List.cons_append, List.cons_append, Deed.writes_enter, Deed.writes_append,
          Deed.writes_append, Deed.writes_importing, writes_parameters, writes_imports,
          lastSome?_append, lastSome?_append, lastSome?_parameter_entries,
          lastSome?_parameter_visits, hwrites, lastSome?_cons, lastSome?_append, Option.or_assoc]
        rfl

end Visit

namespace Loader
variable {σ : Type} {l : Loader σ}

/-- Where a service of a visit is compiled, the parameters are what the visits up to the last
one below it say, or what they were. -/
theorem Does.exists_compiling {s s' : Filling σ} {t v : Visit} {before after : List Visit}
    (hdoes : l.Does s t.deeds s') (hsplit : t.preorder = before ++ v :: after) {id : String}
    {entry : ServiceEntry} {compiled : Compiled}
    (hservice : v.services.get? id = some (entry, compiled)) :
    ∃ s₁ : Filling σ, (∀ name, s₁.container.parameters.get? name =
        (lastSome? (Visit.value? name) (before ++ v.preorder)).or
          (s.container.parameters.get? name)) ∧
      ((l.surroundings s₁.container).compile id entry v.location.directory).result s₁.modules =
        .ok compiled := by
  obtain ⟨xs, ys, hdeeds, -, hwrites⟩ := Visit.exists_deeds_of_preorder hsplit
  obtain ⟨es, fs, hentries⟩ := List.append_of_mem (Table.mem_of_find hservice)
  let earlier : List Deed := es.map fun e => .service e.1 e.2.1 v.location.directory e.2.2
  let later : List Deed := fs.map fun e => .service e.1 e.2.1 v.location.directory e.2.2
  have hall : t.deeds = (xs ++ v.opening ++ earlier) ++
      .service id entry v.location.directory compiled ::
        (later ++ [.leave v.location v.document] ++ ys) := by
    rw [hdeeds, v.deeds_eq, Visit.serviceDeeds, hentries, List.map_append, List.map_cons]
    simp [earlier, later]
  rw [hall] at hdoes
  obtain ⟨s₁, hbefore, hrest⟩ := hdoes.split
  refine ⟨s₁, fun name => ?_, ?_⟩
  · rw [hbefore.parameters, Deed.writes_append, Deed.writes_append, lastSome?_append,
      lastSome?_append, lastSome?_append, Visit.lastSome?_parameter_services,
      Visit.lastSome?_parameter_opening, hwrites, Option.none_or]
  · cases hrest with
    | cons hdone _ => exact hdone.1

/-- A parameter that a service of a visit interpolates has the value which the last visit, from
the root to the last one below that visit, sets it to. What a later visit sets is not seen. -/
theorem load_visibility (l : Loader σ) (path : String) (s : Filling σ)
    (h : (l.load path).result s = .ok ()) :
    ∃ t : Visit, t.Prescribed l.reader (l.workingDir.join path) ∧
      l.Does s t.deeds ((l.load path).after s) ∧
      ∀ before v after, t.preorder = before ++ v :: after →
        v.preorder <+: v :: after ∧
        ∀ id r, v.document.services.get? id = some (.record r) →
          ∃ d, v.compiled? id = some (.definition d) ∧
            ∀ slot raw way name, r.Reads slot → r.slot? slot = some raw →
              raw.at? way = some (.text ("%" ++ name ++ "%")) → variableName? name = none →
              ∃ value, (lastSome? (Visit.value? name) (before ++ v.preorder)).or
                  (s.container.parameters.get? name) = some value ∧
                (d.slot? slot).bind (fun a => a.at? way) = some (.literal value) := by
  obtain ⟨t, ht, hdoes⟩ := l.exists_visit_of_load h
  refine ⟨t, ht, hdoes, fun before v after hsplit => ⟨?_, fun id r hr => ?_⟩⟩
  · obtain ⟨-, -, -, hprefix, -⟩ := Visit.exists_deeds_of_preorder hsplit
    exact hprefix
  · have hv : v.Prescribed l.reader v.location := ht.of_mem_preorder (by simp [hsplit])
    rw [← hv.map_fst_services, Table.get?_map] at hr
    obtain ⟨⟨entry, compiled⟩, hservice, hentry⟩ := Option.map_eq_some_iff.mp hr
    obtain rfl : entry = .record r := hentry
    obtain ⟨s₁, hparameters, hcompile⟩ := hdoes.exists_compiling hsplit hservice
    obtain ⟨d, rfl, hslots⟩ := Surroundings.exists_slot?_of_compile hcompile
    refine ⟨d, by rw [Visit.compiled?, Table.get?_map, hservice]; rfl, ?_⟩
    intro slot raw way name hreads hraw hleaf hname
    obtain ⟨a, ha, hread⟩ := hslots slot raw hreads hraw
    obtain ⟨b, hb, hread⟩ := Scope.exists_at?_of_read hread hleaf
    obtain ⟨value, hvalue, rfl⟩ := Scope.read_enclosed hname hread
    refine ⟨value, ?_, by rw [ha, Option.bind_some, hb]⟩
    rw [← hparameters]
    exact hvalue

theorem twice_visibility :
    (twice.load "/app/main.yml").result twiceStart = .ok () ∧
      ∃ t : Visit, t.Prescribed twice.reader (twice.workingDir.join "/app/main.yml") ∧
        ∀ before v after, t.preorder = before ++ v :: after →
          v.document.services.get? "mail" =
            some (.record { className := some "mailer", arguments := [.text "%mode%"] }) →
          ∃ d value, v.compiled? "mail" = some (.definition d) ∧
            lastSome? (Visit.value? "mode") (before ++ v.preorder) = some value ∧
            d.slot? (.argument 0) = some (.literal value) := by
  refine ⟨twice_load, ?_⟩
  obtain ⟨t, ht, -, hvisits⟩ := load_visibility twice "/app/main.yml" twiceStart twice_load
  refine ⟨t, ht, fun before v after hsplit hmail => ?_⟩
  obtain ⟨d, hd, hslots⟩ := (hvisits before v after hsplit).2 "mail" _ hmail
  obtain ⟨value, hvalue, hslot⟩ :=
    hslots (.argument 0) _ [] "mode" (.inr nofun) rfl rfl (by decide)
  have hstart : twiceStart.container.parameters.get? "mode" = none := rfl
  rw [hstart, Option.or_none] at hvalue
  exact ⟨d, value, hd, hvalue, by simpa [Argument.at?] using hslot⟩

end Loader
end Wiring
