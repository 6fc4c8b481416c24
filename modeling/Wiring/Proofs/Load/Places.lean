import Wiring.Proofs.Compile.Failures
import Wiring.Proofs.Load.Cycle
import Wiring.Proofs.Load.Level
import Wiring.Proofs.Path.Places

/-! The places that a load comes to, told by texts alone: a start seen from a working directory, and
from each document the resources that it imports, seen from its directory. All of them and their
directories are absolute and in normal form, and they are what the load has on its chains, reads,
reports and compiles services for. -/
namespace Wiring
open Relation

def Event.place? : Event → Option String
  | .read place | .log (.importing place) | .log (.compiled place ..) => some place
  | _ => none

namespace Reader

def HoldsAt (r : Reader) (place : String) (d : Document) : Prop :=
  ∃ location : Location, location.text = place ∧ r.Holds location d

/-- From a start a load comes to a place by a chain of importers. -/
inductive ComesTo (r : Reader) (start : String) : List String → String → Prop
  | start : ComesTo r start [] start
  | imports {chain : List String} {place : String} {d : Document} {i : ImportRecord}
      (h : ComesTo r start chain place) (hnot : place ∉ chain) (hd : r.HoldsAt place d)
      (hi : i ∈ d.imports) :
      ComesTo r start (chain ++ [place]) (Path.normal (Path.join (Path.directory place) i.resource))

variable {r : Reader}

theorem ComesTo.isPlace {start : String} (hstart : Path.IsPlace start) {chain : List String}
    {place : String} (h : r.ComesTo start chain place) :
    ∀ p ∈ chain ++ [place], Path.IsPlace p := by
  induction h with
  | start => simpa using hstart
  | @imports chain place d i _ hnot hd hi ih =>
    intro p hp
    obtain hp | hp := List.mem_append.mp hp
    · exact ih p hp
    · obtain rfl := List.mem_singleton.mp hp
      have hplace : Path.IsPlace place := ih place (by simp)
      exact Path.isPlace_normal_join hplace.directory.1 i.resource

theorem mem_map_text_iff {chain : List Location} {location : Location} :
    location.text ∈ chain.map Location.text ↔ location ∈ chain :=
  List.mem_map_of_injective Location.text_injective

theorem comesTo_of_reachable {start : Location} {a : Arrival}
    (h : ReflTransGen r.Descends ⟨[], start⟩ a) :
    r.ComesTo start.text (a.chain.map Location.text) a.location.text := by
  induction h with
  | refl => exact .start
  | tail _ hstep ih =>
    cases hstep with
    | @imports chain location next d hnot hd hnext =>
      obtain ⟨i, hi, rfl⟩ := List.mem_map.mp hnext
      rw [List.map_append]
      exact .imports ih (mt mem_map_text_iff.mp hnot) ⟨location, rfl, hd⟩ hi

theorem exists_arrival_of_comesTo {start : Location} {chain : List String} {place : String}
    (h : r.ComesTo start.text chain place) :
    ∃ a, ReflTransGen r.Descends ⟨[], start⟩ a ∧ a.chain.map Location.text = chain ∧
      a.location.text = place := by
  induction h with
  | start => exact ⟨⟨[], start⟩, .refl, rfl, rfl⟩
  | @imports chain place d i _ hnot hd hi ih =>
    obtain ⟨a, hreach, rfl, rfl⟩ := ih
    obtain ⟨location, htext, hd⟩ := hd
    obtain rfl := Location.text_injective htext
    have hnext : a.location.resource i.resource ∈ d.imported a.location :=
      List.mem_map_of_mem hi
    exact ⟨_, hreach.tail (.imports (mt mem_map_text_iff.mpr hnot) hd hnext), by simp, rfl⟩

end Reader

def Step.IsAt (location : Location) : Step → Prop
  | .importing place | .enter place _ | .leave place _ => place = location
  | .parameter .. => True
  | .service _ _ baseDir => baseDir = location.directory
  | .refuse es _ => es = [] ∨ es = [.read location.text]

namespace Reader
variable {r : Reader}

/-- Every step of a plan is taken where the load goes down to. -/
theorem exists_arrival_of_mem_plan {chain : List Location} {location : Location} {x : Step}
    (h : x ∈ r.plan chain location) :
    ∃ a, ReflTransGen r.Descends ⟨chain, location⟩ a ∧ x.IsAt a.location := by
  induction chain, location using plan_induction (r := r) with
  | @refused chain location es e hrefused =>
    rw [plan_of_refused hrefused] at h
    obtain rfl := List.mem_singleton.mp h
    refine ⟨_, .refl, ?_⟩
    cases hrefused with
    | circular | unreadable => exact .inl rfl
    | invalid => exact .inr rfl
  | @entered chain location d hnot hd ih =>
    rw [plan_of_holds hnot hd, List.mem_append, List.mem_append, List.mem_append,
      List.mem_cons] at h
    obtain (((rfl | h) | h) | h) | h := h
    · exact ⟨_, .refl, rfl⟩
    · obtain ⟨e, -, rfl⟩ := List.mem_map.mp h
      exact ⟨_, .refl, trivial⟩
    · obtain ⟨next, hnext, h⟩ := List.mem_flatMap.mp h
      have hstep : r.Descends ⟨chain, location⟩ ⟨chain ++ [location], next⟩ :=
        .imports hnot hd hnext
      obtain rfl | h := List.mem_cons.mp h
      · exact ⟨_, .single hstep, rfl⟩
      · obtain ⟨a, hreach, hat⟩ := ih next h
        exact ⟨a, .head hstep hreach, hat⟩
    · obtain ⟨e, -, rfl⟩ := List.mem_map.mp h
      exact ⟨_, .refl, rfl⟩
    · obtain rfl := List.mem_singleton.mp h
      exact ⟨_, .refl, rfl⟩

theorem mem_plan_of_reachable {a b : Arrival} (h : ReflTransGen r.Descends a b) {x : Step}
    (hx : x ∈ r.plan b.chain b.location) : x ∈ r.plan a.chain a.location := by
  induction h with
  | refl => exact hx
  | tail _ hstep ih =>
    cases hstep with
    | @imports chain location next d hnot hd hnext =>
      apply ih
      rw [plan_of_holds hnot hd, List.mem_append, List.mem_append, List.mem_append]
      exact .inl (.inl (.inr (List.mem_flatMap.mpr ⟨next, hnext, List.mem_cons_of_mem _ hx⟩)))

end Reader

namespace Loader
variable {σ : Type} {l : Loader σ} {P : Failure → Prop} {Q : Event → Prop}

theorem onModules_within {α : Type} {x : Act σ α} (hx : x.Within P Q) :
    (onModules x).Within P Q where
  failsOnly s e h := hx.failsOnly s.modules e h
  emitsOnly s e h := hx.emitsOnly s.modules e h

theorem updateContainer_within (f : Container → Container) :
    (updateContainer f : Act (Filling σ) Unit).Within P Q where
  failsOnly _ _ := nofun
  emitsOnly _ _ := nofun

theorem perform_within {steps : List Step} (h : ∀ x ∈ steps, (l.act x).Within P Q) :
    (l.perform steps).Within P Q := by
  induction steps with
  | nil => exact .pure ()
  | cons x steps ih =>
    exact .bind (h x (List.mem_cons_self ..)) fun _ =>
      ih fun y hy => h y (List.mem_cons_of_mem x hy)

theorem act_within_of_isAt
    (hquiet : ∀ specifier directory wanted,
      (l.locator specifier directory wanted).EmitsOnly fun e => e.place? = none)
    {x : Step} {location : Location} (hx : x.IsAt location) :
    (l.act x).Within (fun _ => True)
      fun e => e.place? = none ∨ e.place? = some location.text := by
  cases x with
  | importing place =>
    obtain rfl : place = location := hx
    exact .emit (.inr rfl)
  | enter place d =>
    obtain rfl : place = location := hx
    exact .emit (.inr rfl)
  | leave place d =>
    obtain rfl : place = location := hx
    exact .emit (.inr rfl)
  | parameter name v => exact updateContainer_within (·.setParameter name v)
  | service id entry baseDir =>
    refine .bind .get fun s => .bind (onModules_within ?_) fun compiled =>
      .bind (updateContainer_within _) fun _ => .bind (.emit (.inl rfl)) fun _ => .pure _
    exact ((l.surroundings s.container).compile_emitsOnly
      (fun specifier directory wanted s e he => .inl (hquiet specifier directory wanted s e he))
      (fun _ => .inl rfl) (fun _ _ _ => .inl rfl) id entry baseDir).within
  | refuse es e =>
    refine ⟨fun _ _ _ => trivial, fun s e' he' => ?_⟩
    have hmem : e' ∈ es := he'
    obtain rfl | rfl : es = [] ∨ es = [.read location.text] := hx
    · cases hmem
    · obtain rfl := List.mem_singleton.mp hmem
      exact .inr rfl

theorem exists_arrival_of_mem_events
    (hquiet : ∀ specifier directory wanted,
      (l.locator specifier directory wanted).EmitsOnly fun e => e.place? = none)
    {path : String} {s : Filling σ} {e : Event} (he : e ∈ (l.load path).events s) {place : String}
    (hplace : e.place? = some place) :
    ∃ a, ReflTransGen l.reader.Descends ⟨[], l.workingDir.join path⟩ a ∧
      a.location.text = place := by
  have hwithin : (l.load path).Within (fun _ => True) fun e => ∀ place, e.place? = some place →
      ∃ a, ReflTransGen l.reader.Descends ⟨[], l.workingDir.join path⟩ a ∧
        a.location.text = place := by
    rw [l.load_eq_perform path]
    refine perform_within fun x hx => ?_
    obtain ⟨a, ha, hat⟩ := Reader.exists_arrival_of_mem_plan hx
    refine ⟨fun _ _ _ => trivial, fun s e he place hplace => ⟨a, ha, ?_⟩⟩
    obtain hnone | hsome := (act_within_of_isAt hquiet hat).emitsOnly s e he
    · rw [hplace] at hnone
      cases hnone
    · rw [hplace] at hsome
      exact (Option.some.inj hsome).symm
  exact hwithin.emitsOnly s e he place hplace

theorem load_ne_ok_of_refuse_mem {path : String} {es : List Event} {e : Failure}
    (h : .refuse es e ∈ l.reader.plan [] (l.workingDir.join path)) (s : Filling σ) :
    (l.load path).result s ≠ .ok () := by
  intro hok
  obtain ⟨ds, hplan, -⟩ := l.exists_does_of_load hok
  rw [← hplan] at h
  obtain ⟨x, -, hx⟩ := List.mem_map.mp h
  cases x <;> cases hx

theorem loadDocument_of_respelled {chain : List Location} {location : Location}
    {resource spelling : String} (h : Path.Respelled resource spelling)
    (hback : Path.normal (Path.join (Path.directory location.text) spelling) ∈
      chain.map Location.text) :
    location.resource resource ∈ chain ∧
      l.loadDocument chain (location.resource resource) =
        Act.fail (.circular ((chain ++ [location.resource resource]).map Location.text)) := by
  have htext : (location.resource resource).text ∈ chain.map Location.text := by
    rw [← h.normal_join (Path.isAbsolute_directory location.isAbsolute)] at hback
    exact hback
  have hmem := Reader.mem_map_text_iff.mp htext
  exact ⟨hmem, by rw [loadDocument, dif_pos hmem]⟩

theorem load_ne_ok_of_circular {path : String} {a : Arrival} {d : Document} {i : ImportRecord}
    (ha : ReflTransGen l.reader.Descends ⟨[], l.workingDir.join path⟩ a)
    (hnot : a.location ∉ a.chain) (hd : l.reader.Holds a.location d) (hi : i ∈ d.imports)
    (hback : a.location.resource i.resource ∈ a.chain ++ [a.location]) (s : Filling σ) :
    (l.load path).result s ≠ .ok () := by
  have hstep : l.reader.Descends a ⟨a.chain ++ [a.location], a.location.resource i.resource⟩ :=
    .imports hnot hd (List.mem_map_of_mem hi)
  have hplan := Reader.plan_of_refused (.circular hback : l.reader.Refused _ _ _ _)
  exact load_ne_ok_of_refuse_mem
    (Reader.mem_plan_of_reachable (ha.tail hstep) (hplan ▸ List.mem_singleton_self _)) s

/-- Whatever the working directory, the path and the resources are, a load comes to places only.
These are the locations on its chains, which a load is one level over, and all that it reads and
reports; the directories that it compiles services for are theirs, and places as well. Hence a
resource leads to one place in all its spellings, and a document that imports itself or one of its
importers in any spelling is refused as circular. -/
theorem load_places (l : Loader σ)
    (hquiet : ∀ specifier directory wanted,
      (l.locator specifier directory wanted).EmitsOnly fun e => e.place? = none)
    (workingDir path : String) (habsolute : Path.isAbsolute workingDir = true)
    (hworking : l.workingDir.text = Path.normal workingDir) (s : Filling σ) :
    let start : Arrival := ⟨[], l.workingDir.join path⟩
    let ComesTo := l.reader.ComesTo (Path.absolute workingDir path)
    (∀ chain place, ComesTo chain place →
      ∀ p ∈ chain ++ [place], Path.IsPlace p ∧ Path.IsPlace (Path.directory p)) ∧
    (∀ chain place, ComesTo chain place ↔ ∃ a, ReflTransGen l.reader.Descends start a ∧
      a.chain.map Location.text = chain ∧ a.location.text = place) ∧
    (∀ a, l.loadDocument a.chain a.location =
        l.level (fun b => l.loadDocument b.chain b.location) a ∧
      ∀ next next', (∀ b, l.reader.Descends a b → next b = next' b) →
        l.level next a = l.level next' a) ∧
    (∀ e ∈ (l.load path).events s, ∀ place, e.place? = some place →
      ∃ chain, ComesTo chain place) ∧
    l.load path = l.perform (l.reader.plan [] start.location) ∧
    (∀ id entry baseDir, .service id entry baseDir ∈ l.reader.plan [] start.location →
      ∃ chain place, ComesTo chain place ∧ baseDir = Path.directory place) ∧
    (∀ base p q, Path.isAbsolute base = true → Path.Respelled p q →
      Path.normal (Path.join base p) = Path.normal (Path.join base q)) ∧
    ∀ a d i spelling, ReflTransGen l.reader.Descends start a → a.location ∉ a.chain →
      l.reader.Holds a.location d → i ∈ d.imports → Path.Respelled i.resource spelling →
      Path.normal (Path.join (Path.directory a.location.text) spelling) ∈
        (a.chain ++ [a.location]).map Location.text →
      l.loadDocument (a.chain ++ [a.location]) (a.location.resource i.resource) =
          Act.fail (.circular ((a.chain ++ [a.location] ++
            [a.location.resource i.resource]).map Location.text)) ∧
        (l.load path).result s ≠ .ok () := by
  intro start ComesTo
  have hstart : Path.absolute workingDir path = start.location.text := by
    rw [Path.absolute_eq habsolute, ← hworking]
    exact (l.workingDir.text_join path).symm
  have hcomes : ∀ {a : Arrival}, ReflTransGen l.reader.Descends start a →
      ComesTo (a.chain.map Location.text) a.location.text := by
    intro a ha
    have h := Reader.comesTo_of_reachable ha
    rwa [← hstart] at h
  refine ⟨fun chain place h p hp => ?_, fun chain place => ⟨fun h => ?_, ?_⟩,
    fun a => ⟨l.loadDocument_eq_level a, fun next next' h => level_congr h⟩,
    fun e he place hplace => ?_, l.load_eq_perform path, fun id entry baseDir hmem => ?_,
    fun base p q hbase h => h.normal_join hbase,
    fun a d i spelling ha hnot hd hi hspelled hback => ?_⟩
  · have hp := h.isPlace (Path.isPlace_absolute habsolute path) p hp
    exact ⟨hp, hp.directory⟩
  · change l.reader.ComesTo (Path.absolute workingDir path) chain place at h
    rw [hstart] at h
    exact Reader.exists_arrival_of_comesTo h
  · rintro ⟨a, ha, rfl, rfl⟩
    exact hcomes ha
  · obtain ⟨a, ha, rfl⟩ := exists_arrival_of_mem_events hquiet he hplace
    exact ⟨_, hcomes ha⟩
  · obtain ⟨a, ha, hat⟩ := Reader.exists_arrival_of_mem_plan hmem
    exact ⟨_, _, hcomes ha, hat⟩
  · obtain ⟨hmem, hrefused⟩ := loadDocument_of_respelled (l := l) hspelled hback
    exact ⟨hrefused, load_ne_ok_of_circular ha hnot hd hi hmem s⟩

/-- Documents that import each other by spellings of their own are refused all the same. -/
theorem knot_places :
    let l : Loader Modules.Memory := ⟨knot.reader, Modules.locate {} Modules.Memory.fileSystem,
      fun _ => none, Location.root.join "app"⟩
    (∀ specifier directory wanted,
      (l.locator specifier directory wanted).EmitsOnly fun e => e.place? = none) ∧
    Path.isAbsolute "/app/.//" = true ∧ l.workingDir.text = Path.normal "/app/.//" ∧
    Path.Respelled "./a.yml" "x/..//a.yml" ∧
    l.loadDocument [Location.root.join "app/a.yml", Location.root.join "app/b.yml"]
        ((Location.root.join "app/b.yml").resource "./a.yml") =
      Act.fail (.circular ["/app/a.yml", "/app/b.yml", "/app/a.yml"]) ∧
    (l.load "a.yml").result ⟨{}, {}⟩ ≠ .ok () := by
  intro l
  have hquiet : ∀ specifier directory wanted,
      (l.locator specifier directory wanted).EmitsOnly fun e => e.place? = none :=
    Modules.Memory.locate_emitsOnly {} ⟨fun _ _ => rfl, fun _ _ => rfl, fun _ => rfl, fun _ => rfl,
      fun _ _ => rfl⟩
  have hworking : l.workingDir.text = Path.normal "/app/.//" := by decide +kernel
  have hstart : l.workingDir.join "a.yml" = Location.root.join "app/a.yml" := by decide +kernel
  have hspelled : Path.Respelled "./a.yml" "x/..//a.yml" := by
    refine ⟨by decide, .trans _ [['a', '.', 'y', 'm', 'l']] _ (.rel _ _ ?_)
      (.symm _ _ (.trans _ [[], ['a', '.', 'y', 'm', 'l']] _ (.rel _ _ ?_) (.rel _ _ ?_)))⟩
    · exact .here [] [['a', '.', 'y', 'm', 'l']]
    · exact .back (by decide) [] [[], ['a', '.', 'y', 'm', 'l']]
    · exact .blank [] [['a', '.', 'y', 'm', 'l']]
  have hfirst : knot.reader.Holds (Location.root.join "app/a.yml")
      { imports := [⟨"sub/../b.yml"⟩] } := ⟨_, rfl, rfl⟩
  have hsecond : knot.reader.Holds (Location.root.join "app/b.yml")
      { imports := [⟨"./a.yml"⟩] } := ⟨_, rfl, rfl⟩
  have hreach : ReflTransGen l.reader.Descends ⟨[], l.workingDir.join "a.yml"⟩
      ⟨[Location.root.join "app/a.yml"], Location.root.join "app/b.yml"⟩ := by
    rw [hstart]
    exact .single (.imports List.not_mem_nil hfirst (by decide +kernel))
  obtain ⟨hrefused, hfails⟩ :=
    (load_places l hquiet "/app/.//" "a.yml" (by decide) hworking ⟨{}, {}⟩).2.2.2.2.2.2.2
      _ _ ⟨"./a.yml"⟩ _ hreach (by decide +kernel) hsecond (List.mem_singleton_self _) hspelled
      (by decide +kernel)
  have hchain : ([Location.root.join "app/a.yml"] ++ [Location.root.join "app/b.yml"] ++
      [(Location.root.join "app/b.yml").resource "./a.yml"]).map Location.text =
      ["/app/a.yml", "/app/b.yml", "/app/a.yml"] := by decide +kernel
  rw [hchain] at hrefused
  exact ⟨hquiet, by decide, hworking, hspelled, hrefused, hfails⟩

end Loader
end Wiring
