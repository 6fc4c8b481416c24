import Wiring.Proofs.Load.Cycle
import Wiring.Proofs.Load.Rearranged
import Wiring.Proofs.Modules.Host.Steady

/-! Independent imports. Two imports that stand side by side in a document can change places where
the documents below the one are apart from those below the other. -/
namespace Wiring
open Relation

namespace Reader
variable {r : Reader}

/-- The document is loaded with the one at the start: it is there or is imported from there. -/
def Below (r : Reader) (start : Location) (d : Document) : Prop :=
  ∃ location, ReflTransGen r.Edge start location ∧ r.Holds location d

/-- All documents below the one location are apart from all below the other. -/
def Independent (r : Reader) (a b : Location) : Prop :=
  ∀ d e, r.Below a d → r.Below b e → d.Apart e

theorem Below.of_edge {a b : Location} {d : Document} (hedge : r.Edge a b) (h : r.Below b d) :
    r.Below a d := by
  obtain ⟨location, hreach, hd⟩ := h
  exact ⟨location, .head hedge hreach, hd⟩

end Reader

namespace Visit

def asImport (t : Visit) : List Deed := .importing t.location :: t.deeds

theorem Prescribed.declaredBy {r : Reader} {location : Location} {t : Visit}
    (h : t.Prescribed r location) : ∀ x ∈ t.deeds, x.DeclaredBy (r.Below location) := by
  induction t using induction generalizing location with
  | node place d imports services ih =>
    cases h with
    | node hd hservices himports =>
      have hown : r.Below place d := ⟨place, .refl, hd⟩
      intro x hx
      simp only [deeds, List.cons_append, List.mem_cons, List.mem_append, List.mem_map,
        List.mem_flatMap, List.not_mem_nil, or_false] at hx
      obtain rfl | ((⟨e, he, rfl⟩ | ⟨t, ht, rfl | hx⟩) | ⟨e, he, rfl⟩) | rfl := hx
      · trivial
      · exact ⟨d, hown, List.mem_map_of_mem he⟩
      · trivial
      · obtain ⟨next, hnext, hprescribed⟩ := exists_mem_of_forall₂ himports.flip ht
        refine (ih t ht hprescribed x hx).mono fun e he => ?_
        exact he.of_edge ⟨d, hd, hnext⟩
      · refine ⟨d, hown, ?_⟩
        rw [← hservices, Table.get?_map, Table.mem_entries_iff.mp he]
        rfl
      · trivial

end Visit

namespace Loader
variable {σ : Type} {l : Loader σ}

/-- Two imports side by side, of documents that are apart, change places. -/
theorem Rearranged.imports (hl : l.locator.Steady) {r : Reader} {a b : Location}
    (hindependent : r.Independent a b) {u v : Visit} (hu : u.Prescribed r a)
    (hv : v.Prescribed r b) (before after : List Visit) :
    l.Rearranged ((before ++ u :: v :: after).flatMap Visit.asImport)
      ((before ++ v :: u :: after).flatMap Visit.asImport) := by
  have hdeclared : ∀ {location : Location} {t : Visit}, t.Prescribed r location →
      ∀ x ∈ t.asImport, x.DeclaredBy (r.Below location) := by
    intro location t ht x hx
    obtain rfl | hx := List.mem_cons.mp hx
    · trivial
    · exact ht.declaredBy x hx
  have hpair : l.Rearranged (u.asImport ++ v.asImport) (v.asImport ++ u.asImport) :=
    .swap hl (hdeclared hu) (hdeclared hv) hindependent
  have hall := (Rearranged.refl l (before.flatMap Visit.asImport)).append hl
    (hpair.append hl (.refl l (after.flatMap Visit.asImport)))
  simpa using hall

def bothStored (resources : List Value) : StoredDocuments :=
  StoredDocuments.ofList
    [("/app/main.yml", .map [(.text "imports", .list resources)]),
     ("/app/parts.yml", .map
      [(.text "parameters", .map [(.text "mode", .text "parts")]),
       (.text "services", .map
        [(.text "mail", .map
          [(.text "class", .text "mailer"),
           (.text "arguments", .list [.text "%mode%"])])])]),
     ("/app/levels.yml", .map
      [(.text "parameters", .map [(.text "level", .text "low")]),
       (.text "services", .map [(.text "log", .text "@file")])])]

def partsFirst : StoredDocuments :=
  bothStored [.map [(.text "resource", .text "parts.yml")],
    .map [(.text "resource", .text "levels.yml")]]

def both : Loader Modules.Registry where
  reader := partsFirst.reader
  locator := Modules.Registry.locator
  fromEnvironment? _ := none

end Loader
end Wiring
