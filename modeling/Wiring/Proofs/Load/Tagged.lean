import Wiring.Proofs.Document.Written
import Wiring.Proofs.Load.Visibility

/-! Tags from a document to the container. After a load the services that have a tag are those
whose last declaration is a record with a class and with that tag, each with the attributes that
were written there. -/
namespace Wiring

namespace Container

theorem mem_tagged_iff {c : Container} {tag id : String} {attributes : List (Table Value)} :
    (id, attributes) ∈ c.tagged tag ↔ ∃ d, c.definitions.get? id = some d ∧
      attributes = (d.tags.filter (fun t => t.name = tag)).map Tag.attributes ∧
      attributes ≠ [] := by
  unfold tagged
  rw [List.mem_filter, List.mem_map]
  constructor
  · rintro ⟨⟨⟨_, d⟩, he, heq⟩, hne⟩
    cases heq
    exact ⟨d, Table.mem_entries_iff.mp he, rfl, of_decide_eq_true hne⟩
  · rintro ⟨d, hd, rfl, hne⟩
    exact ⟨⟨(id, d), Table.mem_entries_iff.mpr hd, rfl⟩, decide_eq_true hne⟩

theorem map_fst_tagged_sublist (c : Container) (tag : String) :
    ((c.tagged tag).map Prod.fst).Sublist c.definitions.names := by
  unfold tagged
  have hnames : c.definitions.names = (c.definitions.entries.map fun e =>
      (e.1, (e.2.tags.filter (fun t => t.name = tag)).map Tag.attributes)).map Prod.fst := by
    simp [Table.names]
  rw [hnames]
  exact List.filter_sublist.map _

end Container

/-- The attributes of each tag of that name, in declared order. A tag without any has the empty
ones. -/
def ServiceRecord.attributesOf (r : ServiceRecord) (tag : String) : List (Table Value) :=
  (r.tags.filter fun t => t.name = tag).map fun t => t.attributes.getD ∅

namespace Surroundings
variable {σ : Type} {c : Surroundings σ}

theorem attributes_readTag (r : ServiceRecord) (tag : String) :
    ((r.tags.map readTag).filter (fun t => t.name = tag)).map Tag.attributes =
      r.attributesOf tag := by
  rw [List.filter_map, List.map_map]
  rfl

theorem tags_of_compile {id baseDir : String} {entry : ServiceEntry} {s : σ} {d : Definition}
    (h : (c.compile id entry baseDir).result s = .ok (.definition d)) :
    ∃ r, entry = .record r ∧
      (r.factory = none ∧ r.synthetic ≠ some true ∧ d.tags = r.tags.map readTag ∨
        (r.factory ≠ none ∨ r.synthetic = some true) ∧ d.tags = []) := by
  cases entry with
  | «alias» text =>
    unfold compile at h
    dsimp only at h
    split at h
    · cases h
    · cases h
  | record r =>
    obtain ⟨_, hd, heq⟩ := Act.map_eq_ok_iff.mp h
    cases heq
    refine ⟨r, rfl, ?_⟩
    unfold compileRecord at hd
    cases hfactory : r.factory with
    | some f =>
      rw [hfactory] at hd
      obtain ⟨owner, as, -, -, rfl⟩ := exists_of_compileFactory hd
      exact .inr ⟨.inl nofun, rfl⟩
    | none =>
      rw [hfactory] at hd
      dsimp only at hd
      split at hd
      · next hsynthetic =>
        obtain rfl := eq_of_accepted hd
        exact .inr ⟨.inr hsynthetic, rfl⟩
      · next hsynthetic =>
        split at hd
        · cases hd
        · cases hd
        · obtain ⟨as, located, properties, calls, -, -, -, -, rfl⟩ := exists_of_compileClass hd
          exact .inl ⟨rfl, hsynthetic, rfl⟩

theorem attributes_iff_of_compile {id baseDir : String} {entry : ServiceEntry} {s : σ}
    {compiled : Compiled} (h : (c.compile id entry baseDir).result s = .ok compiled)
    (tag : String) (attributes : List (Table Value)) :
    (∃ d, compiled = .definition d ∧
      attributes = (d.tags.filter (fun t => t.name = tag)).map Tag.attributes ∧
      attributes ≠ []) ↔
    ∃ r, entry = .record r ∧ r.factory = none ∧ r.synthetic ≠ some true ∧
      attributes = r.attributesOf tag ∧ attributes ≠ [] := by
  constructor
  · rintro ⟨d, rfl, rfl, hne⟩
    obtain ⟨r, rfl, ⟨hfactory, hsynthetic, htags⟩ | ⟨-, hnone⟩⟩ := tags_of_compile h
    · rw [htags, attributes_readTag] at hne ⊢
      exact ⟨r, rfl, hfactory, hsynthetic, rfl, hne⟩
    · exact absurd (by rw [hnone]; rfl) hne
  · rintro ⟨r, rfl, hfactory, hsynthetic, rfl, hne⟩
    obtain ⟨d, -, rfl⟩ := Act.map_eq_ok_iff.mp h
    obtain ⟨_, hentry, ⟨-, -, htags⟩ | ⟨hdropped, -⟩⟩ := tags_of_compile h
    · cases hentry
      exact ⟨d, rfl, by rw [htags, attributes_readTag], hne⟩
    · cases hentry
      exact absurd hdropped (by simp [hfactory, hsynthetic])

end Surroundings

namespace Visit

def declared? (id : String) (t : Visit) : Option ServiceEntry := t.document.services.get? id

theorem Prescribed.lastSome?_declared {r : Reader} {location : Location} {t : Visit}
    (h : t.Prescribed r location) (id : String) :
    lastSome? (declared? id) t.postorder =
        (lastSome? (fun v => v.services.get? id) t.postorder).map Prod.fst ∧
      lastSome? (compiled? id) t.postorder =
        (lastSome? (fun v => v.services.get? id) t.postorder).map Prod.snd := by
  rw [← lastSome?_map_option, ← lastSome?_map_option]
  refine ⟨lastSome?_congr fun v hv => ?_, lastSome?_congr fun v _ => Table.get?_map ..⟩
  have hservices := (h.of_mem_preorder (mem_postorder_iff.mp hv)).map_fst_services
  rw [declared?, ← hservices, Table.get?_map]

end Visit

namespace Loader
variable {σ : Type} {l : Loader σ}

theorem Does.exists_compiled {s s' : Filling σ} {t : Visit} (hdoes : l.Does s t.deeds s')
    {id : String} {entry : ServiceEntry} {compiled : Compiled}
    (h : lastSome? (fun v => v.services.get? id) t.postorder = some (entry, compiled)) :
    ∃ (v : Visit) (s₁ : Filling σ),
      ((l.surroundings s₁.container).compile id entry v.location.directory).result s₁.modules =
        .ok compiled := by
  obtain ⟨before, v, after, hsplit, hservice, -⟩ := exists_split_of_lastSome? h
  have hv : v ∈ t.preorder := Visit.mem_postorder_iff.mp (hsplit ▸ by simp)
  obtain ⟨before, after, hsplit⟩ := List.append_of_mem hv
  obtain ⟨s₁, -, hcompile⟩ := hdoes.exists_compiling hsplit hservice
  exact ⟨v, s₁, hcompile⟩

/-- A definition in a container that had none was compiled from the last declaration of its id. -/
theorem Does.definitions_eq_some_iff {s s' : Filling σ} {t : Visit} (hdoes : l.Does s t.deeds s')
    (hempty : s.container.definitions = ∅) {id : String} {d : Definition} :
    s'.container.definitions.get? id = some d ↔
      lastSome? (Visit.compiled? id) t.postorder = some (.definition d) := by
  have hregistration := congrArg Prod.snd (hdoes.registration id)
  rw [Visit.lastSome?_service] at hregistration
  have hdefinition : s'.container.definitions.get? id = _ := hregistration
  rw [hdefinition]
  cases lastSome? (Visit.compiled? id) t.postorder with
  | none => simp [Container.registration, hempty]
  | some compiled => cases compiled <;> simp [Compiled.registration]

/-- After a load into a container without definitions, the services that have a tag are those whose
last declaration, the importer's after its imports', is a record with a class, no factory and not
synthetic, that has the tag. Each has the attributes of all its tags of the name in declared order,
as the document has them written, and the services stand in the order of the definitions. -/
theorem load_tagged (l : Loader σ) (path : String) (s : Filling σ)
    (hempty : s.container.definitions = ∅) (h : (l.load path).result s = .ok ()) :
    ∃ t : Visit, t.Prescribed l.reader (l.workingDir.join path) ∧
      l.Does s t.deeds ((l.load path).after s) ∧
      (∀ tag id attributes,
        (id, attributes) ∈ ((l.load path).after s).container.tagged tag ↔
          ∃ r, lastSome? (Visit.declared? id) t.postorder = some (.record r) ∧
            r.factory = none ∧ r.synthetic ≠ some true ∧
            attributes = r.attributesOf tag ∧ attributes ≠ []) ∧
      (∀ tag, ((((l.load path).after s).container.tagged tag).map Prod.fst).Sublist
        ((l.load path).after s).container.definitions.names) ∧
      ∀ v ∈ t.postorder, ∀ id r, v.document.services.get? id = some (.record r) →
        ∃ written, l.reader.read v.location = .ok written ∧ written.DeclaresTags id r.tags := by
  obtain ⟨t, ht, hdoes⟩ := l.exists_visit_of_load h
  refine ⟨t, ht, hdoes, fun tag id attributes => ?_, fun tag => ?_, fun v hv id r hr => ?_⟩
  · obtain ⟨hdeclared, hcompiled⟩ := ht.lastSome?_declared id
    rw [Container.mem_tagged_iff]
    simp only [hdoes.definitions_eq_some_iff hempty, hdeclared, hcompiled]
    cases hlast : lastSome? (fun v => v.services.get? id) t.postorder with
    | none => simp
    | some e =>
      obtain ⟨entry, compiled⟩ := e
      obtain ⟨v, s₁, hcompile⟩ := hdoes.exists_compiled hlast
      simpa using Surroundings.attributes_iff_of_compile hcompile tag attributes
  · exact Container.map_fst_tagged_sublist _ tag
  · obtain ⟨written, hread, hcheck⟩ := (ht.of_mem_preorder (Visit.mem_postorder_iff.mp hv)).holds
    exact ⟨written, hread, Document.declaresTags_of_check hcheck hr⟩

def listenersDocument : Document where
  services := Table.ofList
    [("audit", .record
      { className := some "mailer"
        tags := [⟨"event", some (Table.ofList [("on", .text "%mode%")])⟩, ⟨"event", none⟩] }),
     ("mail", .record { className := some "mailer", tags := [⟨"event", none⟩] })]

def tidyDocument : Document where
  imports := [⟨"parts.yml"⟩]
  services := Table.ofList [("mail", .record { className := some "mailer" })]

def listening : Loader Modules.Registry where
  reader := (StoredDocuments.ofList
    [("/app/main.yml", .map
      [(.text "imports", .list [.map [(.text "resource", .text "parts.yml")]]),
       (.text "services", .map [(.text "mail", .map [(.text "class", .text "mailer")])])]),
     ("/app/parts.yml", .map
      [(.text "services", .map
        [(.text "audit", .map
          [(.text "class", .text "mailer"),
           (.text "tags", .list
            [.map [(.text "name", .text "event"),
                (.text "attributes", .map [(.text "on", .text "%mode%")])],
              .map [(.text "name", .text "event")]])]),
         (.text "mail", .map
          [(.text "class", .text "mailer"),
           (.text "tags", .list [.map [(.text "name", .text "event")]])])])])]).reader
  locator := Modules.Registry.locator
  fromEnvironment? _ := none

theorem listening_plan :
    listening.reader.plan [] mainPlace =
      .enter mainPlace tidyDocument :: tidyDocument.parameterSteps ++
        [partsPlace].flatMap (fun next =>
          .importing next :: (.enter partsPlace listenersDocument ::
            listenersDocument.parameterSteps ++ listenersDocument.serviceSteps partsPlace ++
              [.leave partsPlace listenersDocument])) ++
        tidyDocument.serviceSteps mainPlace ++ [.leave mainPlace tidyDocument] := by
  have hmain : listening.reader.Holds mainPlace tidyDocument := ⟨_, rfl, rfl⟩
  have hparts : listening.reader.Holds partsPlace listenersDocument := ⟨_, rfl, rfl⟩
  have hplan : listening.reader.plan ([] ++ [mainPlace]) partsPlace = _ :=
    Reader.plan_of_holds (by decide +kernel) hparts
  have himported : tidyDocument.imported mainPlace = [partsPlace] := by decide +kernel
  rw [Reader.plan_of_holds (by decide) hmain, himported]
  simp only [List.flatMap_cons, List.flatMap_nil, hplan]
  rfl

theorem listening_load :
    (listening.load "/app/main.yml").result twiceStart = .ok () ∧
      ((listening.load "/app/main.yml").after twiceStart).container.tagged "event" =
        [("audit", [Table.ofList [("on", .text "%mode%")], ∅])] := by
  have hplace : listening.workingDir.join "/app/main.yml" = mainPlace := by decide +kernel
  rw [load_eq_perform, hplace, listening_plan]
  exact ⟨rfl, rfl⟩

theorem listening_tagged :
    twiceStart.container.definitions = ∅ ∧
      (listening.load "/app/main.yml").result twiceStart = .ok () ∧
      ∃ t : Visit, t.Prescribed listening.reader (listening.workingDir.join "/app/main.yml") ∧
        ∀ id attributes,
          (∃ r, lastSome? (Visit.declared? id) t.postorder = some (.record r) ∧
            r.factory = none ∧ r.synthetic ≠ some true ∧
            attributes = r.attributesOf "event" ∧ attributes ≠ []) ↔
          id = "audit" ∧ attributes = [Table.ofList [("on", .text "%mode%")], ∅] := by
  obtain ⟨hload, htagged⟩ := listening_load
  obtain ⟨t, ht, -, hiff, -⟩ := load_tagged listening "/app/main.yml" twiceStart rfl hload
  refine ⟨rfl, hload, t, ht, fun id attributes => ?_⟩
  rw [← hiff, htagged]
  simp

end Loader
end Wiring
