import Wiring.Argument.Reading
import Wiring.Proofs.Act
import Wiring.Proofs.Lists

/-! Places inside values. A value and the argument it is read as have the same places, and each
part of the argument is the reading of the part of the value at its place. -/
namespace Wiring

namespace Value

def parts : Value → List Value
  | .list vs => vs
  | .map es => es.map Prod.snd
  | .scalar _ | .set _ => []

/-- What stands in a value at the end of a way, which counts the parts at each turn. -/
def at? : Value → List Nat → Option Value
  | v, [] => some v
  | v, n :: way => v.parts[n]?.bind fun part => at? part way

end Value

namespace Argument

def parts : Argument → List Argument
  | .list as => as
  | .map es => es.map Prod.snd
  | _ => []

def at? : Argument → List Nat → Option Argument
  | a, [] => some a
  | a, n :: way => a.parts[n]?.bind fun part => at? part way

end Argument

namespace TextMeaning

theorem of_enclosed (name : String) : of ("%" ++ name ++ "%") = .interpolation name := by
  have hchars : ("%" ++ name ++ "%").toList = '%' :: (name.toList ++ ['%']) := by simp
  have hlast : ('%' :: (name.toList ++ ['%'])).getLast? = some '%' := by
    rw [← List.cons_append, List.getLast?_concat]
  rw [of, hchars]
  simp [hlast]

end TextMeaning

namespace Scope
variable {scope : Scope}

theorem forall₂_of_readItems {vs : List Value} {as : List Argument}
    (h : (scope.readItems vs).result = .ok as) :
    List.Forall₂ (fun v a => (scope.read v).result = .ok a) vs as := by
  induction vs generalizing as with
  | nil =>
    cases h
    exact .nil
  | cons v vs ih =>
    obtain ⟨a, ha, h⟩ := Traced.bind_eq_ok_iff.mp h
    obtain ⟨rest, hrest, h⟩ := Traced.bind_eq_ok_iff.mp h
    cases h
    exact .cons ha (ih hrest)

theorem readEntries_eq (scope : Scope) (es : List (Scalar × Value)) :
    scope.readEntries es = scope.readValues es := by
  induction es with
  | nil => rfl
  | cons e es ih =>
    rw [readEntries, ih, readValues, readValues, List.map_cons, List.map_cons, readItems]
    simp only [map_eq_pure_bind, bind_assoc, pure_bind, List.zip_cons_cons]

theorem forall₂_of_readValues {κ : Type} {es : List (κ × Value)} {fs : List (κ × Argument)}
    (h : (scope.readValues es).result = .ok fs) :
    List.Forall₂ (fun e f => f.1 = e.1 ∧ (scope.read e.2).result = .ok f.2) es fs := by
  obtain ⟨as, has, rfl⟩ := Traced.map_eq_ok_iff.mp h
  have hread := List.forall₂_map_left_iff.mp (forall₂_of_readItems has)
  clear h has
  induction hread with
  | nil => exact .nil
  | cons ha _ ih => exact .cons ⟨rfl, ha⟩ ih

theorem parts_of_readText {s : String} {a : Argument} (h : (scope.readText s).result = .ok a) :
    a.parts = [] := by
  unfold readText at h
  split at h
  · cases h
    rfl
  · obtain ⟨v, -, rfl⟩ := Traced.map_eq_ok_iff.mp h
    rfl
  · cases h
    rfl
  · cases h
    rfl
  · cases h
    rfl

theorem forall₂_parts {v : Value} {a : Argument} (h : (scope.read v).result = .ok a) :
    List.Forall₂ (fun v a => (scope.read v).result = .ok a) v.parts a.parts := by
  cases v with
  | list vs =>
    obtain ⟨as, has, rfl⟩ := Traced.map_eq_ok_iff.mp h
    exact forall₂_of_readItems has
  | map es =>
    obtain ⟨fs, hfs, rfl⟩ := Traced.map_eq_ok_iff.mp h
    have hentries := forall₂_of_readValues (scope.readEntries_eq es ▸ hfs)
    simp only [Value.parts, Argument.parts, List.forall₂_map_left_iff, List.forall₂_map_right_iff]
    exact hentries.imp fun _ _ hread => hread.2
  | set ms =>
    cases h
    exact .nil
  | scalar s =>
    have hparts : a.parts = [] := by
      cases s with
      | text s => exact parts_of_readText h
      | _ =>
        cases h
        rfl
    rw [hparts]
    exact .nil

theorem exists_at?_of_read {v leaf : Value} {a : Argument} {way : List Nat}
    (hread : (scope.read v).result = .ok a) (hleaf : v.at? way = some leaf) :
    ∃ b, a.at? way = some b ∧ (scope.read leaf).result = .ok b := by
  induction way generalizing v a with
  | nil =>
    cases hleaf
    exact ⟨a, rfl, hread⟩
  | cons n way ih =>
    obtain ⟨part, hpart, hleaf⟩ := Option.bind_eq_some_iff.mp hleaf
    obtain ⟨read, hn, hread⟩ := exists_getElem?_of_forall₂ (forall₂_parts hread) hpart
    obtain ⟨b, hb, hleaf⟩ := ih hread hleaf
    exact ⟨b, by rw [Argument.at?, hn, Option.bind_some, hb], hleaf⟩

theorem read_enclosed {name : String} {a : Argument} (hname : variableName? name = none)
    (h : (scope.read (.text ("%" ++ name ++ "%"))).result = .ok a) :
    ∃ v, scope.fromParameters? name = some v ∧ a = .literal v := by
  have htext : scope.read (.text ("%" ++ name ++ "%")) = .literal <$> scope.interpolate name := by
    rw [read, readText, TextMeaning.of_enclosed]
  rw [htext] at h
  obtain ⟨v, hv, rfl⟩ := Traced.map_eq_ok_iff.mp h
  rw [interpolate, hname] at hv
  cases hp : scope.fromParameters? name with
  | none => simp [hp] at hv
  | some w =>
    simp only [hp, Traced.result_pure, Except.ok.injEq] at hv
    exact ⟨v, by rw [hv], rfl⟩

end Scope
end Wiring
