import Mathlib.Data.List.Chain
import Wiring.Proofs.Compile.Failures
import Wiring.Proofs.Load.Visit
import Wiring.Proofs.Modules.Failures
import Wiring.Reading.Stored

/-! Cycles among imports. A load fails by a cycle only where the stored documents have one, the
chain that it reports is a way into that cycle and around it, and no cycle lets a load succeed. -/
namespace Wiring
open Relation

namespace Reader

/-- One location holds a valid document that imports the other. -/
def Edge (r : Reader) (a b : Location) : Prop := ∃ d, r.Holds a d ∧ b ∈ d.imported a

variable {r : Reader}

theorem exists_refused_of_mem_plan {chain : List Location} {location : Location}
    {es : List Event} {e : Failure} (h : .refuse es e ∈ r.plan chain location) :
    ∃ way last, r.Refused (chain ++ way) last es e ∧ (way ++ [last]).head? = some location ∧
      (way ++ [last]).IsChain r.Edge ∧ (chain.Nodup → (chain ++ way).Nodup) := by
  induction chain, location using plan_induction (r := r) with
  | @refused chain location es' e' hrefused =>
    rw [plan_of_refused hrefused] at h
    cases List.mem_singleton.mp h
    exact ⟨[], location, by rwa [List.append_nil], rfl, .singleton _,
      fun hn => by rwa [List.append_nil]⟩
  | @entered chain location d hnot hd ih =>
    obtain ⟨next, hnext, hmem⟩ : ∃ next ∈ d.imported location,
        Step.refuse es e ∈ r.plan (chain ++ [location]) next := by
      rw [plan_of_holds hnot hd] at h
      simpa [Document.parameterSteps, Document.serviceSteps] using h
    obtain ⟨way, last, hrefused, hhead, hway, hnodup⟩ := ih next hmem
    rw [List.append_assoc, List.singleton_append] at hrefused hnodup
    refine ⟨location :: way, last, hrefused, rfl, ?_, fun hn => hnodup ?_⟩
    · refine List.IsChain.cons hway fun b hb => ?_
      obtain rfl : next = b := Option.some.inj (hhead.symm.trans hb)
      exact ⟨d, hd, hnext⟩
    · have hlocation : ∀ a ∈ chain, a ≠ location := fun a ha heq => hnot (heq ▸ ha)
      rw [List.nodup_append]
      exact ⟨hn, by simp, by simpa using hlocation⟩

theorem transGen_of_isChain {a b : Location} {way : List Location}
    (h : (a :: way).IsChain r.Edge) (hb : b ∈ way) : TransGen r.Edge a b :=
  (h.imp fun _ _ => TransGen.single).rel_cons hb

theorem exists_cycle_of_isChain {start last : Location} {way : List Location}
    (h : (way ++ [last]).IsChain r.Edge) (hhead : (way ++ [last]).head? = some start)
    (hlast : last ∈ way) : ReflTransGen r.Edge start last ∧ TransGen r.Edge last last := by
  obtain ⟨before, after, rfl⟩ := List.append_of_mem hlast
  have hcycle : TransGen r.Edge last last := by
    rw [List.append_assoc] at h
    exact transGen_of_isChain h.right_of_append (by simp)
  refine ⟨?_, hcycle⟩
  cases before with
  | nil =>
    cases hhead
    exact .refl
  | cons a before =>
    cases hhead
    exact (transGen_of_isChain h (by simp)).to_reflTransGen

theorem acc_of_prescribed {location : Location} {t : Visit} (h : t.Prescribed r location) :
    Acc (Function.swap r.Edge) location := by
  induction t using Visit.induction generalizing location with
  | node place d imports services ih =>
    cases h with
    | node hd hservices himports =>
      refine .intro _ fun b hb => ?_
      obtain ⟨d', hd', hmem⟩ := hb
      rw [hd'.unique hd] at hmem
      obtain ⟨t, ht, hprescribed⟩ := exists_mem_of_forall₂ himports hmem
      exact ih t ht hprescribed

theorem acc_of_reachable {a b : Location} (h : ReflTransGen r.Edge a b)
    (ha : Acc (Function.swap r.Edge) a) : Acc (Function.swap r.Edge) b := by
  induction h with
  | refl => exact ha
  | tail _ hedge ih => exact ih.inv hedge

theorem not_cycle_of_acc {a : Location} (h : Acc (Function.swap r.Edge) a) :
    ¬ TransGen r.Edge a a := by
  intro hcycle
  rw [← transGen_swap] at hcycle
  replace h := h.transGen
  induction h with
  | intro b _ ih => exact ih b hcycle hcycle

end Reader

namespace Loader
variable {σ : Type}

theorem exists_does_of_circular {l : Loader σ}
    (hlocator : ∀ specifier directory wanted,
      (l.locator specifier directory wanted).FailsOnly fun e => ∀ chain, e ≠ .circular chain)
    {path : String} {s : Filling σ} {chain : List String}
    (h : (l.load path).result s = .error (.circular chain)) :
    ∃ ds es rest, l.Does s ds ((l.load path).after s) ∧
      l.reader.plan [] (l.workingDir.join path) =
        ds.map Deed.step ++ .refuse es (.circular chain) :: rest := by
  rw [load_eq_perform] at h ⊢
  obtain ⟨ds, s₁, hdoes, hcases⟩ := l.perform_cases (l.reader.plan [] (l.workingDir.join path)) s
  obtain ⟨hok, -⟩ | ⟨x, rest, e, hsteps, hfail, herror, hafter, -⟩ := hcases
  · rw [h] at hok
    cases hok
  · rw [h] at herror
    cases herror
    cases x with
    | refuse es e =>
      cases hfail
      exact ⟨ds, es, rest, hafter ▸ hdoes, hsteps⟩
    | service id entry baseDir =>
      have hcompile := (l.surroundings s₁.container).compile_failsOnly
        (P := fun e => ∀ chain, e ≠ .circular chain) hlocator (fun _ _ => nofun)
        (fun _ _ => nofun) (fun _ _ => nofun) id entry baseDir
      cases hresult :
        ((l.surroundings s₁.container).compile id entry baseDir).result s₁.modules with
      | ok compiled =>
        rw [(l.act_service_of_ok hresult).1] at hfail
        cases hfail
      | error e =>
        rw [(l.act_service_of_error hresult).1] at hfail
        cases hfail
        exact absurd rfl (hcompile _ _ hresult chain)
    | _ => cases hfail

/-- A load that fails by a cycle met it in its plan, where locators know of no cycles. -/
theorem refuse_mem_plan_of_load {l : Loader σ}
    (hlocator : ∀ specifier directory wanted,
      (l.locator specifier directory wanted).FailsOnly fun e => ∀ chain, e ≠ .circular chain)
    {path : String} {s : Filling σ} {chain : List String}
    (h : (l.load path).result s = .error (.circular chain)) :
    ∃ es, .refuse es (.circular chain) ∈ l.reader.plan [] (l.workingDir.join path) := by
  obtain ⟨ds, es, rest, -, hplan⟩ := exists_does_of_circular hlocator h
  exact ⟨es, by rw [hplan]; simp⟩

end Loader

theorem StoredDocuments.read_ne_circular (docs : StoredDocuments) (path : String)
    (chain : List String) : docs.read path ≠ .error (.circular chain) := by
  intro h
  unfold read at h
  split at h <;> cases h

namespace Loader
variable {σ : Type}

/-- Cycles are found exactly: none of them lets a load succeed, a reported one is there, and
without one none is reported. A locator looks for classes and reports no circular imports. -/
theorem load_circular_exact (docs : StoredDocuments) (locator : Modules.Locator σ)
    (hlocator : ∀ specifier directory wanted,
      (locator specifier directory wanted).FailsOnly fun e => ∀ chain, e ≠ .circular chain)
    (fromEnvironment? : String → Option String) (workingDir : Location) (path : String)
    (s : Filling σ) :
    let load := Loader.load ⟨docs.reader, locator, fromEnvironment?, workingDir⟩ path
    let start := workingDir.join path
    let Cyclic := ∃ a, ReflTransGen docs.reader.Edge start a ∧ TransGen docs.reader.Edge a a
    (Cyclic → load.result s ≠ .ok ()) ∧
    (∀ chain, load.result s = .error (.circular chain) → ∃ way last,
      chain = (way ++ [last]).map Location.text ∧ (way ++ [last]).head? = some start ∧
        (way ++ [last]).IsChain docs.reader.Edge ∧ way.Nodup ∧ last ∈ way) ∧
    (¬ Cyclic → ∀ chain, load.result s ≠ .error (.circular chain)) := by
  intro load start Cyclic
  have hreported : ∀ chain, load.result s = .error (.circular chain) → ∃ way last,
      chain = (way ++ [last]).map Location.text ∧ (way ++ [last]).head? = some start ∧
        (way ++ [last]).IsChain docs.reader.Edge ∧ way.Nodup ∧ last ∈ way := by
    intro chain h
    obtain ⟨es, hmem⟩ := refuse_mem_plan_of_load hlocator h
    obtain ⟨way, last, hrefused, hhead, hway, hnodup⟩ := Reader.exists_refused_of_mem_plan hmem
    rw [List.nil_append] at hrefused hnodup
    cases hrefused with
    | circular hlast => exact ⟨way, last, rfl, hhead, hway, hnodup .nil, hlast⟩
    | unreadable _ hread => exact absurd hread (docs.read_ne_circular _ _)
  refine ⟨?_, hreported, ?_⟩
  · rintro ⟨a, hreach, hcycle⟩ hok
    obtain ⟨t, ht, -⟩ := exists_visit_of_load _ hok
    exact Reader.not_cycle_of_acc
      (Reader.acc_of_reachable hreach (Reader.acc_of_prescribed ht)) hcycle
  · intro hacyclic chain h
    obtain ⟨way, last, -, hhead, hway, -, hlast⟩ := hreported chain h
    exact hacyclic ⟨last, Reader.exists_cycle_of_isChain hway hhead hlast⟩

def knot : StoredDocuments :=
  StoredDocuments.ofList
    [("/app/main.yml", .map [(.text "imports", .list [.map [(.text "resource", .text "a.yml")]])]),
     ("/app/a.yml", .map
      [(.text "imports", .list [.map [(.text "resource", .text "sub/../b.yml")]])]),
     ("/app/b.yml", .map [(.text "imports", .list [.map [(.text "resource", .text "./a.yml")]])])]

theorem knot_edges :
    knot.reader.Edge (Location.root.join "/app/main.yml") (Location.root.join "app/a.yml") ∧
      knot.reader.Edge (Location.root.join "app/a.yml") (Location.root.join "app/b.yml") ∧
      knot.reader.Edge (Location.root.join "app/b.yml") (Location.root.join "app/a.yml") := by
  refine ⟨⟨{ imports := [⟨"a.yml"⟩] }, ⟨_, rfl, rfl⟩, ?_⟩,
    ⟨{ imports := [⟨"sub/../b.yml"⟩] }, ⟨_, rfl, rfl⟩, ?_⟩,
    ⟨{ imports := [⟨"./a.yml"⟩] }, ⟨_, rfl, rfl⟩, ?_⟩⟩
  · decide +kernel
  · decide +kernel
  · decide +kernel

theorem knot_fails :
    (∀ specifier directory wanted,
      (Modules.locate {} Modules.Memory.fileSystem specifier directory wanted).FailsOnly
        fun e => ∀ chain, e ≠ .circular chain) ∧
    (Loader.load ⟨knot.reader, Modules.locate {} Modules.Memory.fileSystem, fun _ => none, .root⟩
      "/app/main.yml").result ⟨{}, {}⟩ ≠ .ok () := by
  have hlocator := Modules.Memory.locate_failsOnly (P := fun e => ∀ chain, e ≠ .circular chain)
    {} fun _ _ => nofun
  obtain ⟨hmain, hab, hba⟩ := knot_edges
  refine ⟨hlocator, ?_⟩
  exact (load_circular_exact knot (Modules.locate {} Modules.Memory.fileSystem) hlocator
    (fun _ => none) .root "/app/main.yml" ⟨{}, {}⟩).1 ⟨_, .single hmain, .tail (.single hab) hba⟩

end Loader
end Wiring
