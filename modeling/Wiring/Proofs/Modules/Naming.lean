import Wiring.Modules.Export
import Wiring.Path.Normal

/-! How modules are called. A specifier names a module by its last segment, without one suffix and
from the last dot on; in camel case each part of that name starts with a capital letter. -/
namespace Wiring

namespace Modules

/-- What is left of a segment once the suffix at its end, if it has one there, is cut off. -/
def CutsOff (suffix segment stem : String) : Prop :=
  segment = stem ++ suffix ∨ segment = stem ∧ Text.endsWith segment suffix = false

theorem CutsOff.unique {suffix segment stem stem' : String} (h : CutsOff suffix segment stem)
    (h' : CutsOff suffix segment stem') : stem = stem' := by
  obtain rfl | ⟨rfl, hends⟩ := h
  · obtain h' | ⟨rfl, hends⟩ := h'
    · rw [← String.toList_inj, String.toList_append, String.toList_append] at h'
      exact String.toList_inj.mp (List.append_cancel_right h')
    · rw [Text.endsWith_append] at hends
      cases hends
  · obtain rfl | ⟨rfl, -⟩ := h'
    · rw [Text.endsWith_append] at hends
      cases hends
    · rfl

theorem stem_empty (specifier : String) : stem specifier "" = "" := by
  rw [stem, if_pos, if_pos rfl]
  exact Text.endsWith_iff.mpr List.nil_suffix

theorem cutsOff_stem (specifier : String) {suffix : String} (h : suffix ≠ "") :
    CutsOff suffix (Path.Trail.ofText specifier).name (stem specifier suffix) := by
  rw [stem]
  split
  · next hends =>
    obtain ⟨front, hfront⟩ := Text.endsWith_iff.mp hends
    left
    rw [← String.toList_inj, String.toList_append, String.toList_ofList, ← hfront]
    congr 1
    rw [← String.length_toList, ← String.length_toList, ← hfront]
    simp
  · next hends => exact .inr ⟨rfl, Bool.eq_false_iff.mpr hends⟩

/-- The empty suffix takes everything instead of nothing. -/
theorem cutsOff_stem_iff {specifier suffix : String} :
    CutsOff suffix (Path.Trail.ofText specifier).name (stem specifier suffix) ↔
      suffix ≠ "" ∨ (Path.Trail.ofText specifier).name = "" := by
  by_cases hsuffix : suffix = ""
  · subst hsuffix
    rw [stem_empty]
    constructor
    · exact fun hcuts => .inr (hcuts.elim id And.left)
    · exact fun h => .inl (h.resolve_left fun hne => hne rfl)
  · exact ⟨fun _ => .inl hsuffix, fun _ => cutsOff_stem specifier hsuffix⟩

def NamesModule (specifier suffix name : String) : Prop :=
  ∃ stem, CutsOff suffix (Path.Trail.ofText specifier).name stem ∧
    Text.FollowsLast '.' stem.toList name.toList

theorem namesModule_iff {specifier suffix name : String} (h : suffix ≠ "") :
    NamesModule specifier suffix name ↔ name = moduleName specifier suffix := by
  have hstem := cutsOff_stem specifier h
  constructor
  · rintro ⟨stem', hcuts, hlast⟩
    obtain rfl := hcuts.unique hstem
    rw [moduleName, ← hlast.eq_afterLast, String.ofList_toList]
  · rintro rfl
    refine ⟨_, hstem, ?_⟩
    rw [moduleName, String.toList_ofList]
    exact Text.followsLast_afterLast ..

def capitalised : List Char → List Char
  | [] => []
  | c :: cs => Text.upper c ++ cs

theorem camelCase_eq (name : String) :
    camelCase name = String.ofList ((Text.split '_' name.toList).flatMap capitalised) := by
  rw [camelCase]
  rfl

/-- A name in camel case: its parts between underscores, each with a capital letter, in a row. -/
def InCamelCase (name camel : String) : Prop :=
  ∃ parts, parts ≠ [] ∧ (∀ part ∈ parts, '_' ∉ part) ∧ Text.join '_' parts = name.toList ∧
    camel.toList = parts.flatMap capitalised

theorem inCamelCase_iff {name camel : String} :
    InCamelCase name camel ↔ camel = camelCase name := by
  rw [camelCase_eq]
  constructor
  · rintro ⟨parts, hne, hclean, hjoin, hcamel⟩
    rw [← hjoin, Path.split_join hne hclean, ← hcamel, String.ofList_toList]
  · rintro rfl
    exact ⟨_, Text.split_ne_nil '_' _, fun _ => Text.sep_not_mem_of_mem_split,
      Text.join_split '_' _, String.toList_ofList⟩

end Modules
end Wiring
