import Mathlib.Data.List.Perm.Subperm
import Mathlib.Logic.Relation
import Wiring.Proofs.Load.Level
import Wiring.Reading.Stored

/-! How deep a load goes. Every importer on a chain is another stored document, so no branch of a
load is longer than the stored documents are many, whichever way they import each other. -/
namespace Wiring
open Relation

namespace Reader
variable {r : Reader} {a b : Arrival}

theorem Descends.length_chain (h : r.Descends a b) : b.chain.length = a.chain.length + 1 := by
  cases h with
  | imports => exact List.length_append

theorem Descends.length_remaining_lt (h : r.Descends a b) :
    (r.remaining b.chain).length < (r.remaining a.chain).length := by
  cases h with
  | imports hnot hd _ =>
    obtain ⟨v, hread, -⟩ := hd
    exact Reader.length_remaining_lt hread hnot

/-- A chain of imports holds distinct locations, with a valid document at each. -/
structure Sound (r : Reader) (chain : List Location) : Prop where
  nodup : chain.Nodup
  holds : ∀ location ∈ chain, ∃ d, r.Holds location d

theorem Sound.nil : r.Sound [] := ⟨.nil, by simp⟩

theorem Sound.nodup_append {chain : List Location} (h : r.Sound chain) {location : Location}
    (hnot : location ∉ chain) : (chain ++ [location]).Nodup := by
  have hne : ∀ other ∈ chain, other ≠ location := fun other hother heq => hnot (heq ▸ hother)
  exact List.nodup_append.mpr ⟨h.nodup, by simp, by simpa using hne⟩

theorem Sound.of_descends (ha : r.Sound a.chain) (h : r.Descends a b) : r.Sound b.chain := by
  cases h with
  | @imports chain location next d hnot hd hnext =>
    refine ⟨ha.nodup_append hnot, fun other hother => ?_⟩
    obtain hother | hother := List.mem_append.mp hother
    · exact ha.holds other hother
    · obtain rfl := List.mem_singleton.mp hother
      exact ⟨d, hd⟩

theorem Sound.of_reachable (ha : r.Sound a.chain) (h : ReflTransGen r.Descends a b) :
    r.Sound b.chain := by
  induction h with
  | refl => exact ha
  | tail _ hstep ih => exact ih.of_descends hstep

theorem Sound.length_le {chain : List Location} (h : r.Sound chain) :
    chain.length ≤ r.stored.length := by
  have hstored : chain ⊆ r.stored := by
    intro location hlocation
    obtain ⟨d, v, hread, -⟩ := h.holds location hlocation
    exact r.mem_stored hread
  exact (h.nodup.subperm hstored).length_le

theorem reachable_of_branch {branch : Nat → Arrival} {n : Nat}
    (h : ∀ k < n, r.Descends (branch k) (branch (k + 1))) :
    ReflTransGen r.Descends (branch 0) (branch n) ∧
      (branch n).chain.length = (branch 0).chain.length + n := by
  induction n with
  | zero => exact ⟨.refl, rfl⟩
  | succ n ih =>
    obtain ⟨hreach, hlength⟩ := ih fun k hk => h k (by omega)
    have hstep := h n (by omega)
    refine ⟨hreach.tail hstep, ?_⟩
    rw [hstep.length_chain, hlength, Nat.add_assoc]

theorem length_branch_le {branch : Nat → Arrival} {n : Nat} (hstart : (branch 0).chain = [])
    (h : ∀ k < n, r.Descends (branch k) (branch (k + 1))) : n ≤ r.stored.length := by
  obtain ⟨hreach, hlength⟩ := reachable_of_branch h
  have hsound : r.Sound (branch 0).chain := hstart ▸ .nil
  have hle := (hsound.of_reachable hreach).length_le
  rw [hlength, hstart, List.length_nil] at hle
  omega

end Reader

theorem StoredDocuments.length_stored_le (docs : StoredDocuments) :
    docs.reader.stored.length ≤ docs.documents.size := by
  have h : docs.reader.stored.length ≤ docs.documents.names.length :=
    List.length_filterMap_le ..
  rwa [Table.names, List.length_map] at h

namespace Loader
variable {σ : Type}

/-- Loading with a limit to the depth of imports, where `beyond` stands for what follows below. -/
def loadWithin (l : Loader σ) (beyond : Arrival → Act (Filling σ) Unit) :
    Nat → Arrival → Act (Filling σ) Unit
  | 0 => beyond
  | n + 1 => l.level (l.loadWithin beyond n)

/-- A limit above the number of stored locations off the chain is never reached. -/
theorem loadWithin_eq (l : Loader σ) (beyond : Arrival → Act (Filling σ) Unit) {n : Nat}
    {a : Arrival} (h : (l.reader.remaining a.chain).length < n) :
    l.loadWithin beyond n a = l.loadDocument a.chain a.location := by
  induction n generalizing a with
  | zero => exact absurd h (Nat.not_lt_zero _)
  | succ n ih =>
    rw [loadWithin, loadDocument_eq_level]
    refine level_congr fun b hb => ih ?_
    have hlt := hb.length_remaining_lt
    omega

/-- A load goes down from a document to its imports only, each chain of imports on its way holds
distinct locations that are all stored but perhaps the last, and so no branch has more levels than
there are documents and one. Nothing below those levels matters to the load. -/
theorem load_terminates (docs : StoredDocuments) (locator : Modules.Locator σ)
    (fromEnvironment? : String → Option String) (workingDir : Location) (path : String) :
    let l : Loader σ := ⟨docs.reader, locator, fromEnvironment?, workingDir⟩
    let start : Arrival := ⟨[], workingDir.join path⟩
    let Descends := docs.reader.Descends
    (∀ a, l.loadDocument a.chain a.location =
      l.level (fun b => l.loadDocument b.chain b.location) a) ∧
    (∀ a next next', (∀ b, Descends a b → next b = next' b) → l.level next a = l.level next' a) ∧
    (∀ a, ReflTransGen Descends start a →
      a.chain.Nodup ∧ (∀ location ∈ a.chain, ∃ d, docs.reader.Holds location d) ∧
        a.chain.length ≤ docs.documents.size ∧
        (a.location ∉ a.chain → (a.chain ++ [a.location]).Nodup ∧
          (a.chain ++ [a.location]).length ≤ docs.documents.size + 1)) ∧
    (∀ (branch : Nat → Arrival) n, branch 0 = start →
      (∀ k < n, Descends (branch k) (branch (k + 1))) → n ≤ docs.documents.size) ∧
    (¬ ∃ branch : Nat → Arrival, branch 0 = start ∧
      ∀ k, Descends (branch k) (branch (k + 1))) ∧
    ∀ beyond, l.loadWithin beyond (docs.documents.size + 1) start = l.load path := by
  intro l start Descends
  have hsize := docs.length_stored_le
  have hsound : ∀ a, ReflTransGen Descends start a → docs.reader.Sound a.chain :=
    fun a h => Reader.Sound.nil.of_reachable (a := start) h
  have hbranch : ∀ (branch : Nat → Arrival) n, branch 0 = start →
      (∀ k < n, Descends (branch k) (branch (k + 1))) → n ≤ docs.documents.size := by
    intro branch n hstart hsteps
    have hle := Reader.length_branch_le (congrArg Arrival.chain hstart) hsteps
    omega
  refine ⟨l.loadDocument_eq_level, fun a next next' h => level_congr (l := l) h, fun a h => ?_,
    hbranch, ?_, fun beyond => ?_⟩
  · have hle := (hsound a h).length_le
    refine ⟨(hsound a h).nodup, (hsound a h).holds, by omega, fun hnot => ?_⟩
    refine ⟨(hsound a h).nodup_append hnot, ?_⟩
    rw [List.length_append, List.length_singleton]
    omega
  · rintro ⟨branch, hstart, hsteps⟩
    have hle := hbranch branch (docs.documents.size + 1) hstart fun k _ => hsteps k
    omega
  · have hremaining : (l.reader.remaining start.chain).length ≤ docs.reader.stored.length :=
      List.length_filter_le ..
    exact l.loadWithin_eq beyond (by omega)

end Loader
end Wiring
