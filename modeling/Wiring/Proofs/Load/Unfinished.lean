import Wiring.Proofs.Load.Closing
import Wiring.Proofs.Load.Cycle
import Wiring.Proofs.Load.Precedence

/-! What a load has done when it meets a cycle. The documents on the chain are entered and not left,
and all visits that were finished before are of documents that lead into no cycle. -/
namespace Wiring
open Relation

namespace Reader

/-- The imports of a location, followed long enough, come back to where they were. -/
def LeadsToCycle (r : Reader) (a : Location) : Prop :=
  ∃ b, ReflTransGen r.Edge a b ∧ TransGen r.Edge b b

variable {r : Reader}

theorem not_leadsToCycle_of_prescribed {location : Location} {t : Visit}
    (h : t.Prescribed r location) : ¬ r.LeadsToCycle location := by
  rintro ⟨b, hreach, hcycle⟩
  exact not_cycle_of_acc (acc_of_reachable hreach (acc_of_prescribed h)) hcycle

theorem leadsToCycle_of_isChain {way : List Location} {last : Location}
    (h : (way ++ [last]).IsChain r.Edge) (hlast : last ∈ way) :
    ∀ a ∈ way ++ [last], r.LeadsToCycle a := by
  obtain ⟨start, hstart⟩ : ∃ start, (way ++ [last]).head? = some start := by
    cases way <;> simp
  have hcycle := (exists_cycle_of_isChain h hstart hlast).2
  intro a ha
  obtain ha | ha := List.mem_append.mp ha
  · obtain ⟨before, after, rfl⟩ := List.append_of_mem ha
    rw [List.append_assoc] at h
    exact ⟨last, (transGen_of_isChain h.right_of_append (by simp)).to_reflTransGen, hcycle⟩
  · obtain rfl := List.mem_singleton.mp ha
    exact ⟨a, .refl, hcycle⟩

end Reader

/-- A visit that was entered and not left: its finished imports, and the one that it is at. -/
structure OpenVisit where
  location : Location
  document : Document
  done : List Visit
  next : Location

namespace OpenVisit

def deeds (o : OpenVisit) : List Deed :=
  .enter o.location o.document ::
      o.document.parameters.entries.map (fun e => .parameter e.1 e.2) ++
    (o.done.flatMap (fun t => .importing t.location :: t.deeds) ++ [.importing o.next])

/-- The visits that were finished inside of an open one, in the order in which they were. -/
def finished (o : OpenVisit) : List Visit := o.done.flatMap Visit.postorder

/-- Open visits, each at the import that the next one is of, and the import that the last is at. -/
inductive Stack (r : Reader) : Location → List OpenVisit → Location → Prop where
  | nil (location : Location) : Stack r location [] location
  | cons {location next last : Location} {d : Document} {earlier later : List Location}
      {done : List Visit} {os : List OpenVisit} (hd : r.Holds location d)
      (himported : d.imported location = earlier ++ next :: later)
      (hdone : List.Forall₂ (Visit.Prescribed r) earlier done) (h : Stack r next os last) :
      Stack r location (⟨location, d, done, next⟩ :: os) last

variable {r : Reader} {location last : Location} {os : List OpenVisit}

theorem Stack.head? (h : Stack r location os last) :
    (os.map OpenVisit.location ++ [last]).head? = some location := by
  cases h <;> rfl

theorem Stack.isChain (h : Stack r location os last) :
    (os.map OpenVisit.location ++ [last]).IsChain r.Edge := by
  induction h with
  | nil location => exact .singleton _
  | @cons location next last d earlier later done os hd himported _ h ih =>
    refine List.IsChain.cons ih fun b hb => ?_
    obtain rfl : next = b := Option.some.inj (h.head?.symm.trans hb)
    exact ⟨d, hd, by simp [himported]⟩

theorem Stack.prescribed_of_finished (h : Stack r location os last) :
    ∀ v ∈ os.flatMap finished, v.Prescribed r v.location := by
  induction h with
  | nil location => simp
  | cons _ _ hdone _ ih =>
    intro v hv
    rw [List.flatMap_cons] at hv
    obtain hv | hv := List.mem_append.mp hv
    · obtain ⟨t, ht, hmem⟩ := List.mem_flatMap.mp hv
      obtain ⟨place, -, hprescribed⟩ := exists_mem_of_forall₂ hdone.flip ht
      exact hprescribed.of_mem_preorder (Visit.mem_postorder_iff.mp hmem)
    · exact ih v hv

theorem flatMap_closings_deeds (os : List OpenVisit) :
    (os.flatMap deeds).flatMap Deed.closings =
      (os.flatMap finished).flatMap Visit.closings := by
  rw [List.flatMap_assoc, List.flatMap_assoc]
  refine List.flatMap_congr fun o _ => ?_
  rw [deeds, finished]
  simp only [List.flatMap_append, List.flatMap_cons, List.flatMap_nil, List.append_nil,
    Visit.flatMap_closings_parameters,
    Visit.flatMap_closings_imports fun t _ => t.flatMap_closings_deeds]
  exact List.append_nil _

theorem exists_of_entered {chain : List Location} {d : Document} {ds : List Deed}
    {es : List Event} {e : Failure} {rest : List Step}
    (h : .enter location d :: d.parameterSteps ++
        ((d.imported location).flatMap (fun next =>
            .importing next :: r.plan (chain ++ [location]) next) ++
          (d.serviceSteps location ++ [.leave location d])) =
      ds.map Deed.step ++ .refuse es e :: rest) :
    ∃ earlier next later done ds' rest', d.imported location = earlier ++ next :: later ∧
      List.Forall₂ (Visit.Prescribed r) earlier done ∧
      ds = deeds ⟨location, d, done, next⟩ ++ ds' ∧
      r.plan (chain ++ [location]) next = ds'.map Deed.step ++ .refuse es e :: rest' := by
  -- a refusal stands neither before the plans of the imports nor after them
  obtain ⟨steps, hsteps, h⟩ | ⟨after, hbefore, -⟩ := exists_of_append_eq h
  case inr =>
    have hmem : Step.refuse es e ∈ Step.enter location d :: d.parameterSteps := by
      rw [hbefore]
      simp
    simp [Document.parameterSteps] at hmem
  obtain ⟨before, -, hafter⟩ | ⟨after, himports, -⟩ := exists_of_append_eq h
  case inl =>
    have hmem : Step.refuse es e ∈ d.serviceSteps location ++ [.leave location d] := by
      rw [hafter]
      simp
    simp [Document.serviceSteps] at hmem
  obtain ⟨earlier, next, later, steps, rest', himported, rfl, hnext, -⟩ :=
    exists_of_flatMap_eq himports
  obtain ⟨ds₁, ds', rfl, h₁, hds'⟩ := List.map_eq_append_iff.mp hsteps
  obtain ⟨ds₂, ds₃, rfl, h₂, rfl⟩ := List.map_eq_append_iff.mp hds'
  obtain ⟨x, xs, rfl, hx, hxs⟩ := List.map_eq_cons_iff.mp h₁
  obtain rfl := Visit.eq_of_map_step_parameter hxs
  obtain rfl : x = .enter location d := by cases x <;> simp_all [Deed.step]
  obtain ⟨done, hdone, rfl⟩ :=
    Visit.exists_of_planImports (fun _ _ => Visit.exists_of_plan) h₂
  cases ds₃ with
  | nil => cases hnext
  | cons y ys =>
    obtain ⟨hy, hplan⟩ := List.cons.inj hnext
    obtain rfl : y = .importing next := by cases y <;> simp_all [Deed.step]
    exact ⟨earlier, next, later, done, ys, rest', himported, hdone, by simp [deeds], hplan⟩

/-- The steps of a plan before a refusal are those of the visits that are open there. -/
theorem exists_stack_of_plan {chain : List Location} {location : Location} {ds : List Deed}
    {es : List Event} {e : Failure} {rest : List Step}
    (h : r.plan chain location = ds.map Deed.step ++ .refuse es e :: rest) :
    ∃ os last, Stack r location os last ∧ os.flatMap deeds = ds ∧
      r.Refused (chain ++ os.map OpenVisit.location) last es e := by
  induction chain, location using Reader.plan_induction (r := r) generalizing ds rest with
  | @refused chain location es' e' hrefused =>
    rw [Reader.plan_of_refused hrefused] at h
    cases ds with
    | nil =>
      cases h
      exact ⟨[], location, .nil location, rfl, by rwa [List.map_nil, List.append_nil]⟩
    | cons x xs => simp at h
  | @entered chain location d hnot hd ih =>
    rw [Reader.plan_of_holds hnot hd, List.append_assoc, List.append_assoc] at h
    obtain ⟨earlier, next, later, done, ds', rest', himported, hdone, rfl, hplan⟩ :=
      exists_of_entered h
    obtain ⟨os, last, hstack, rfl, hrefused⟩ := ih next hplan
    refine ⟨⟨location, d, done, next⟩ :: os, last, .cons hd himported hdone hstack, rfl, ?_⟩
    rwa [List.map_cons, ← List.singleton_append, ← List.append_assoc]

theorem lastSome?_service (id : String) (os : List OpenVisit) :
    lastSome? (Write.service? id) (Deed.writes (os.flatMap deeds)) =
      lastSome? (Visit.compiled? id) (os.flatMap finished) := by
  rw [Deed.writes_flatMap, lastSome?_flatMap, lastSome?_flatMap]
  refine lastSome?_congr fun o _ => ?_
  have hparameters : lastSome? (Write.service? id)
      (o.document.parameters.entries.map fun e => .parameter e.1 e.2) = none := by
    rw [lastSome?_map]
    exact lastSome?_none _
  have himporting : Deed.writes [.importing o.next] = [] := rfl
  rw [deeds, finished, List.cons_append, Deed.writes_enter, Deed.writes_append,
    Deed.writes_append, Visit.writes_parameters, Visit.writes_imports, himporting,
    List.append_nil, lastSome?_append, hparameters, Option.or_none, lastSome?_flatMap,
    lastSome?_flatMap]
  exact lastSome?_congr fun t _ => t.lastSome?_service id

end OpenVisit

namespace Loader
variable {σ : Type}

/-- A load that meets a cycle stands in open visits along the reported chain. It has done what they
did so far. All that it registered and compiled are documents that were finished inside of them, and
those lead into no cycle, while every document on the chain does. A locator reports no circular
imports and logs nothing as registered or compiled. -/
theorem load_circular_unfinished (docs : StoredDocuments) (locator : Modules.Locator σ)
    (hlocator : ∀ specifier directory wanted,
      (locator specifier directory wanted).FailsOnly fun e => ∀ chain, e ≠ .circular chain)
    (hquiet : ∀ specifier directory wanted,
      (locator specifier directory wanted).EmitsOnly fun e => e.isClosing = false)
    (fromEnvironment? : String → Option String) (workingDir : Location) (path : String)
    (s : Filling σ) (chain : List String) :
    let l : Loader σ := ⟨docs.reader, locator, fromEnvironment?, workingDir⟩
    (l.load path).result s = .error (.circular chain) →
    ∃ (os : List OpenVisit) (last : Location),
      chain = (os.map OpenVisit.location ++ [last]).map Location.text ∧
      OpenVisit.Stack docs.reader (workingDir.join path) os last ∧
      l.Does s (os.flatMap OpenVisit.deeds) ((l.load path).after s) ∧
      (∀ id, ((l.load path).after s).container.registration id =
        (lastSome? (Visit.compiled? id) (os.flatMap OpenVisit.finished)).elim
          (s.container.registration id) Compiled.registration) ∧
      ((l.load path).events s).filter Event.isClosing =
        (os.flatMap OpenVisit.finished).flatMap Visit.closings ∧
      (∀ v ∈ os.flatMap OpenVisit.finished, ¬ docs.reader.LeadsToCycle v.location) ∧
      (∀ location ∈ os.map OpenVisit.location ++ [last], docs.reader.LeadsToCycle location) ∧
      ∀ location, docs.reader.LeadsToCycle location → ∀ parameters imports services,
        .log (.compiled location.text parameters imports services) ∉ (l.load path).events s := by
  intro l h
  obtain ⟨ds, es, rest, hdoes, hplan⟩ := exists_does_of_circular hlocator h
  obtain ⟨os, last, hstack, rfl, hrefused⟩ := OpenVisit.exists_stack_of_plan hplan
  rw [List.nil_append] at hrefused
  cases hrefused with
  | unreadable _ hread => exact absurd hread (docs.read_ne_circular _ _)
  | circular hlast =>
    have hclosings : ((l.load path).events s).filter Event.isClosing =
        (os.flatMap OpenVisit.finished).flatMap Visit.closings := by
      rw [load_eq_perform, hplan, hdoes.closings_of_refused hquiet,
        OpenVisit.flatMap_closings_deeds]
    have hfinished : ∀ v ∈ os.flatMap OpenVisit.finished,
        ¬ docs.reader.LeadsToCycle v.location := fun v hv =>
      Reader.not_leadsToCycle_of_prescribed (hstack.prescribed_of_finished v hv)
    refine ⟨os, last, rfl, hstack, hdoes, fun id => ?_, hclosings, hfinished,
      Reader.leadsToCycle_of_isChain hstack.isChain hlast, ?_⟩
    · rw [hdoes.registration, OpenVisit.lastSome?_service]
    · intro location hcycle parameters imports services hmem
      have hmem := List.mem_filter.mpr
        ⟨hmem, (rfl : Event.isClosing (.log (.compiled ..)) = true)⟩
      rw [hclosings] at hmem
      obtain ⟨v, hv, hmem⟩ := List.mem_flatMap.mp hmem
      obtain rfl := Location.text_injective (Visit.text_eq_of_compiled_mem hmem)
      exact hfinished v hv hcycle

def firstPlace : Location := Location.root.join "app/a.yml"

def secondPlace : Location := Location.root.join "app/b.yml"

def topDocument : Document where
  imports := [⟨"parts.yml"⟩, ⟨"a.yml"⟩]

def logDocument : Document where
  services := Table.ofList [("log", .record { synthetic := some true })]

def firstDocument : Document where
  imports := [⟨"parts.yml"⟩, ⟨"b.yml"⟩]
  services := Table.ofList [("mail", .alias "@smtp")]

def secondDocument : Document where
  imports := [⟨"a.yml"⟩]

def tangle : StoredDocuments :=
  StoredDocuments.ofList
    [("/app/main.yml", .map
      [(.text "imports", .list
        [.map [(.text "resource", .text "parts.yml")], .map [(.text "resource", .text "a.yml")]])]),
     ("/app/parts.yml", .map
      [(.text "services", .map [(.text "log", .map [(.text "synthetic", .bool true)])])]),
     ("/app/a.yml", .map
      [(.text "imports", .list
        [.map [(.text "resource", .text "parts.yml")], .map [(.text "resource", .text "b.yml")]]),
       (.text "services", .map [(.text "mail", .text "@smtp")])]),
     ("/app/b.yml", .map [(.text "imports", .list [.map [(.text "resource", .text "a.yml")]])])]

def tangled : Loader Modules.Memory :=
  ⟨tangle.reader, Modules.locate {} Modules.Memory.fileSystem, fun _ => none, .root⟩

def tangleStart : Filling Modules.Memory := ⟨{}, {}⟩

def logSteps : List Step :=
  .enter partsPlace logDocument :: logDocument.serviceSteps partsPlace ++
    [.leave partsPlace logDocument]

theorem tangle_plan :
    tangle.reader.plan [] mainPlace =
      [.enter mainPlace topDocument, .importing partsPlace] ++ logSteps ++
        [.importing firstPlace, .enter firstPlace firstDocument, .importing partsPlace] ++
        logSteps ++
        [.importing secondPlace, .enter secondPlace secondDocument, .importing firstPlace,
          .refuse [] (.circular ["/app/main.yml", "/app/a.yml", "/app/b.yml", "/app/a.yml"]),
          .leave secondPlace secondDocument] ++
        firstDocument.serviceSteps firstPlace ++
        [.leave firstPlace firstDocument, .leave mainPlace topDocument] := by
  have hmain : tangle.reader.Holds mainPlace topDocument := ⟨_, rfl, rfl⟩
  have hfirst : tangle.reader.Holds firstPlace firstDocument := ⟨_, rfl, rfl⟩
  have hsecond : tangle.reader.Holds secondPlace secondDocument := ⟨_, rfl, rfl⟩
  have hmainImports : topDocument.imported mainPlace = [partsPlace, firstPlace] := by decide +kernel
  have hfirstImports : firstDocument.imported firstPlace = [partsPlace, secondPlace] := by
    decide +kernel
  have hsecondImports : secondDocument.imported secondPlace = [firstPlace] := by decide +kernel
  have hchain : [mainPlace, firstPlace, secondPlace, firstPlace].map Location.text =
      ["/app/main.yml", "/app/a.yml", "/app/b.yml", "/app/a.yml"] := by decide +kernel
  have hpart {chain : List Location} (h : partsPlace ∉ chain) :
      tangle.reader.plan chain partsPlace = logSteps := by
    have hholds : tangle.reader.Holds partsPlace logDocument := ⟨_, rfl, rfl⟩
    rw [Reader.plan_of_holds h hholds]
    rfl
  have hplanMain := Reader.plan_of_holds List.not_mem_nil hmain
  have hplanFirst : tangle.reader.plan [mainPlace] firstPlace = _ :=
    Reader.plan_of_holds (by decide +kernel) hfirst
  have hplanSecond : tangle.reader.plan [mainPlace, firstPlace] secondPlace = _ :=
    Reader.plan_of_holds (by decide +kernel) hsecond
  have hcycle : tangle.reader.plan [mainPlace, firstPlace, secondPlace] firstPlace = _ :=
    Reader.plan_of_refused (.circular (by decide +kernel))
  simp only [hmainImports, hfirstImports, hsecondImports, hchain, List.flatMap_cons,
    List.flatMap_nil, List.nil_append, List.cons_append] at hplanMain hplanFirst hplanSecond hcycle
  rw [hplanMain, hplanFirst, hplanSecond, hcycle, hpart (by decide +kernel),
    hpart (by decide +kernel)]
  rfl

theorem tangled_load :
    (tangled.load "/app/main.yml").result tangleStart =
        .error (.circular ["/app/main.yml", "/app/a.yml", "/app/b.yml", "/app/a.yml"]) ∧
      ((tangled.load "/app/main.yml").events tangleStart).filter Event.isClosing =
        [.log (.registered "log"), .log (.compiled partsPlace.text 0 0 1),
          .log (.registered "log"), .log (.compiled partsPlace.text 0 0 1)] := by
  have hplace : tangled.workingDir.join "/app/main.yml" = mainPlace := by decide +kernel
  rw [load_eq_perform, hplace]
  have hreader : tangled.reader = tangle.reader := rfl
  rw [hreader, tangle_plan]
  exact ⟨rfl, rfl⟩

theorem tangled_unfinished :
    (∀ specifier directory wanted, (tangled.locator specifier directory wanted).FailsOnly
      fun e => ∀ chain, e ≠ .circular chain) ∧
    (∀ specifier directory wanted, (tangled.locator specifier directory wanted).EmitsOnly
      fun e => e.isClosing = false) ∧
    (tangled.load "/app/main.yml").result tangleStart =
      .error (.circular ["/app/main.yml", "/app/a.yml", "/app/b.yml", "/app/a.yml"]) ∧
    ∃ (os : List OpenVisit) (last : Location),
      ["/app/main.yml", "/app/a.yml", "/app/b.yml", "/app/a.yml"] =
        (os.map OpenVisit.location ++ [last]).map Location.text ∧
      OpenVisit.Stack tangle.reader (Location.root.join "/app/main.yml") os last ∧
      (os.flatMap OpenVisit.finished).flatMap Visit.closings =
        [.log (.registered "log"), .log (.compiled partsPlace.text 0 0 1),
          .log (.registered "log"), .log (.compiled partsPlace.text 0 0 1)] ∧
      ∀ v ∈ os.flatMap OpenVisit.finished, ¬ tangle.reader.LeadsToCycle v.location := by
  have hlocator := Modules.Memory.locate_ne_circular {}
  have hquiet := Modules.Memory.locate_closes_nothing {}
  obtain ⟨hresult, hevents⟩ := tangled_load
  obtain ⟨os, last, hchain, hstack, -, -, hclosings, hfinished, -⟩ :=
    load_circular_unfinished tangle (Modules.locate {} Modules.Memory.fileSystem) hlocator hquiet
      (fun _ => none) .root "/app/main.yml" tangleStart _ hresult
  exact ⟨hlocator, hquiet, hresult, os, last, hchain, hstack, hclosings.symm.trans hevents,
    hfinished⟩

end Loader
end Wiring
