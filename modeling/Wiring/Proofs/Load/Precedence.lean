import Wiring.Modules.Registry
import Wiring.Proofs.Load.Visit
import Wiring.Reading.Stored

/-! Which of several documents counts. Of the visits of a load, the last in pre-order that sets a
parameter gives its value, so imports count before their importer; the last in post-order that
declares a service gives what is registered, so an importer counts before its imports. -/
namespace Wiring
namespace Loader
variable {σ : Type}

/-- After a load the container holds what the last visits say, and what no visit names is as
it was before. -/
theorem load_precedence (l : Loader σ) (path : String) (s : Filling σ)
    (h : (l.load path).result s = .ok ()) :
    ∃ t : Visit, t.Prescribed l.reader (l.workingDir.join path) ∧
      l.Does s t.deeds ((l.load path).after s) ∧
      (∀ name, ((l.load path).after s).container.parameter name =
        match lastSome? (Visit.value? name) t.preorder with
        | some v => .ok v
        | none => s.container.parameter name) ∧
      ∀ id, match lastSome? (Visit.compiled? id) t.postorder with
        | some (.alias target) =>
          ((l.load path).after s).container.aliases.get? id = some target ∧
            ((l.load path).after s).container.definitions.get? id = none
        | some (.definition d) =>
          ((l.load path).after s).container.aliases.get? id = none ∧
            ((l.load path).after s).container.definitions.get? id = some d
        | none =>
          ((l.load path).after s).container.aliases.get? id = s.container.aliases.get? id ∧
            ((l.load path).after s).container.definitions.get? id =
              s.container.definitions.get? id := by
  obtain ⟨t, ht, hdoes⟩ := l.exists_visit_of_load h
  refine ⟨t, ht, hdoes, fun name => ?_, fun id => ?_⟩
  · have hparameter := hdoes.parameters name
    rw [Visit.lastSome?_parameter] at hparameter
    simp only [Container.parameter, hparameter]
    cases lastSome? (Visit.value? name) t.preorder <;> rfl
  · have hregistration := hdoes.registration id
    rw [Visit.lastSome?_service] at hregistration
    cases hlast : lastSome? (Visit.compiled? id) t.postorder with
    | none =>
      rw [hlast] at hregistration
      exact Prod.ext_iff.mp hregistration
    | some compiled =>
      rw [hlast] at hregistration
      cases compiled <;> exact Prod.ext_iff.mp hregistration

def partsDocument : Document where
  parameters := Table.ofList [("mode", .text "parts")]
  services := Table.ofList
    [("mail", .record { className := some "mailer", arguments := [.text "%mode%"] })]

def mainDocument : Document where
  parameters := Table.ofList [("mode", .text "main")]
  imports := [⟨"parts.yml"⟩, ⟨"./parts.yml"⟩]
  services := Table.ofList [("mail", .alias "@smtp")]

def partsPlace : Location := Location.root.join "app/parts.yml"

def mainPlace : Location := Location.root.join "app/main.yml"

def twice : Loader Modules.Registry where
  reader := (StoredDocuments.ofList
    [("/app/main.yml", .map
      [(.text "parameters", .map [(.text "mode", .text "main")]),
       (.text "imports", .list
        [.map [(.text "resource", .text "parts.yml")],
         .map [(.text "resource", .text "./parts.yml")]]),
       (.text "services", .map [(.text "mail", .text "@smtp")])]),
     ("/app/parts.yml", .map
      [(.text "parameters", .map [(.text "mode", .text "parts")]),
       (.text "services", .map
        [(.text "mail", .map
          [(.text "class", .text "mailer"),
           (.text "arguments", .list [.text "%mode%"])])])])]).reader
  locator := Modules.Registry.locator
  fromEnvironment? _ := none

def twiceStart : Filling Modules.Registry :=
  ⟨{}, Table.ofList [("mailer", .object (.text "Mailer"))]⟩

theorem twice_plan :
    twice.reader.plan [] mainPlace =
      .enter mainPlace mainDocument :: mainDocument.parameterSteps ++
        [partsPlace, partsPlace].flatMap (fun next =>
          .importing next :: (.enter partsPlace partsDocument :: partsDocument.parameterSteps ++
            partsDocument.serviceSteps partsPlace ++ [.leave partsPlace partsDocument])) ++
        mainDocument.serviceSteps mainPlace ++ [.leave mainPlace mainDocument] := by
  have hmain : twice.reader.Holds mainPlace mainDocument := ⟨_, rfl, rfl⟩
  have hparts : twice.reader.Holds partsPlace partsDocument := ⟨_, rfl, rfl⟩
  have hplan : twice.reader.plan ([] ++ [mainPlace]) partsPlace = _ :=
    Reader.plan_of_holds (by decide +kernel) hparts
  have himported : mainDocument.imported mainPlace = [partsPlace, partsPlace] := by decide +kernel
  rw [Reader.plan_of_holds (by decide) hmain, himported]
  simp only [List.flatMap_cons, List.flatMap_nil, hplan]
  rfl

theorem twice_load : (twice.load "/app/main.yml").result twiceStart = .ok () := by
  have hplace : twice.workingDir.join "/app/main.yml" = mainPlace := by decide +kernel
  rw [load_eq_perform, hplace, twice_plan]
  rfl

theorem twice_precedence :
    (twice.load "/app/main.yml").result twiceStart = .ok () ∧
      ∃ t : Visit, t.Prescribed twice.reader (twice.workingDir.join "/app/main.yml") ∧
        ((twice.load "/app/main.yml").after twiceStart).container.parameter "mode" =
          match lastSome? (Visit.value? "mode") t.preorder with
          | some v => .ok v
          | none => twiceStart.container.parameter "mode" := by
  refine ⟨twice_load, ?_⟩
  obtain ⟨t, ht, -, hparameters, -⟩ := load_precedence twice "/app/main.yml" twiceStart twice_load
  exact ⟨t, ht, hparameters "mode"⟩

end Loader
end Wiring
