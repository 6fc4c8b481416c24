import Wiring.Proofs.Load.Unfinished

/-! The chain that a circular import is reported with. It runs from the loaded document into the
cycle and around it, so its ends are the same place only where the loaded document is on it. -/
namespace Wiring
open Relation

namespace Reader
variable {r : Reader}

theorem transGen_of_round {last : Location} {around : List Location}
    (h : (last :: around ++ [last]).IsChain r.Edge) :
    ∀ a ∈ last :: around, TransGen r.Edge a a := by
  intro a ha
  have hround : TransGen r.Edge last last := transGen_of_isChain h (by simp)
  obtain rfl | ha := List.mem_cons.mp ha
  · exact hround
  · obtain ⟨before, after, rfl⟩ := List.append_of_mem ha
    have hto : TransGen r.Edge last a := transGen_of_isChain h (by simp)
    have hrest : (a :: (after ++ [last])).IsChain r.Edge := by
      have hsplit : last :: (before ++ a :: after) ++ [last] =
          (last :: before) ++ a :: (after ++ [last]) := by simp
      rw [hsplit] at h
      exact h.right_of_append
    have hback : TransGen r.Edge a last := transGen_of_isChain hrest (by simp)
    exact hback.trans hto

end Reader

theorem Location.head?_eq_getLast?_iff {lead around : List Location} {last : Location}
    (h : (lead ++ last :: around).Nodup) :
    ((lead ++ last :: around ++ [last]).map Location.text).head? =
        ((lead ++ last :: around ++ [last]).map Location.text).getLast? ↔ lead = [] := by
  have hlast :
      ((lead ++ last :: around ++ [last]).map Location.text).getLast? = some last.text := by
    rw [List.map_append]
    exact List.getLast?_concat ..
  rw [hlast]
  cases lead with
  | nil => simp
  | cons a lead =>
    have hne : a ≠ last := by
      rintro rfl
      exact (List.nodup_cons.mp h).1 (by simp)
    simpa using fun heq : a.text = last.text => hne (Location.text_injective heq)

namespace Loader
variable {σ : Type}

/-- A reported chain leads from the loaded document to the cycle and once around it: what precedes
the first place of its last entry is entered once, and every later entry is on the cycle. Its first
and its last entry are equal exactly where nothing precedes, and so never for a document that is on
no cycle itself. -/
theorem load_circular_chain (docs : StoredDocuments) (locator : Modules.Locator σ)
    (hlocator : ∀ specifier directory wanted,
      (locator specifier directory wanted).FailsOnly fun e => ∀ chain, e ≠ .circular chain)
    (fromEnvironment? : String → Option String) (workingDir : Location) (path : String)
    (s : Filling σ) (chain : List String) :
    let load := Loader.load ⟨docs.reader, locator, fromEnvironment?, workingDir⟩ path
    let start := workingDir.join path
    load.result s = .error (.circular chain) →
    (∃ lead last around, chain = (lead ++ last :: around ++ [last]).map Location.text ∧
      (lead ++ [last]).head? = some start ∧
      (lead ++ last :: around ++ [last]).IsChain docs.reader.Edge ∧
      (lead ++ last :: around).Nodup ∧
      (∀ a ∈ last :: around, TransGen docs.reader.Edge a a) ∧
      (chain.head? = chain.getLast? ↔ lead = [])) ∧
    (¬ TransGen docs.reader.Edge start start → chain.head? ≠ chain.getLast?) := by
  intro load start h
  obtain ⟨es, hmem⟩ := refuse_mem_plan_of_load hlocator h
  obtain ⟨way, last, hrefused, hhead, hway, hnodup⟩ := Reader.exists_refused_of_mem_plan hmem
  rw [List.nil_append] at hrefused hnodup
  cases hrefused with
  | unreadable _ hread => exact absurd hread (docs.read_ne_circular _ _)
  | circular hlast =>
    obtain ⟨lead, around, rfl⟩ := List.append_of_mem hlast
    have hstart : (lead ++ [last]).head? = some start := by
      cases lead <;> exact hhead
    have hround : ∀ a ∈ last :: around, TransGen docs.reader.Edge a a := by
      rw [List.append_assoc] at hway
      exact Reader.transGen_of_round hway.right_of_append
    have hends := Location.head?_eq_getLast?_iff (hnodup .nil)
    refine ⟨⟨lead, last, around, rfl, hstart, hway, hnodup .nil, hround, hends⟩, ?_⟩
    intro hacyclic hequal
    obtain rfl := hends.mp hequal
    obtain rfl := Option.some.inj hstart
    exact hacyclic (hround _ (List.mem_cons_self ..))

theorem tangled_chain :
    (∀ specifier directory wanted, (tangled.locator specifier directory wanted).FailsOnly
      fun e => ∀ chain, e ≠ .circular chain) ∧
    (tangled.load "/app/main.yml").result tangleStart =
      .error (.circular ["/app/main.yml", "/app/a.yml", "/app/b.yml", "/app/a.yml"]) ∧
    ∃ lead last around, ["/app/main.yml", "/app/a.yml", "/app/b.yml", "/app/a.yml"] =
        (lead ++ last :: around ++ [last]).map Location.text ∧ lead ≠ [] ∧
      ∀ a ∈ last :: around, TransGen tangle.reader.Edge a a := by
  have hlocator := Modules.Memory.locate_ne_circular {}
  obtain ⟨⟨lead, last, around, hchain, -, -, -, hround, hends⟩, -⟩ :=
    load_circular_chain tangle (Modules.locate {} Modules.Memory.fileSystem) hlocator
      (fun _ => none) .root "/app/main.yml" tangleStart _ tangled_load.1
  have hapart : lead ≠ [] := fun hnil => absurd (hends.mpr hnil) (by decide)
  exact ⟨hlocator, tangled_load.1, lead, last, around, hchain, hapart, hround⟩

theorem tangled_chain_apart :
    ∃ chain, (tangled.load "/app/main.yml").result tangleStart = .error (.circular chain) ∧
      chain.head? ≠ chain.getLast? :=
  ⟨_, tangled_load.1, by decide⟩

end Loader
end Wiring
