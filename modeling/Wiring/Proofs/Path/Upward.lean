import Mathlib.Data.List.Infix
import Wiring.Modules.Search
import Wiring.Proofs.Path.Names

/-! The directories from a location up to the root, and the folders of one name in them. -/
namespace Wiring
open Wiring.Path (Segment)

namespace Location

/-- The location itself, then each directory above it, up to the root. -/
def upward (l : Location) : List String :=
  l.segments.inits.reverse.map (Path.ofSegments l.slashes)

theorem upward_eq (l : Location) : l.upward =
    (List.range (l.segments.length + 1)).reverse.map fun k =>
      Path.ofSegments l.slashes (l.segments.take k) := by
  have hinits : l.segments.inits = (List.range (l.segments.length + 1)).map (l.segments.take ·) := by
    apply List.ext_getElem
    · simp
    · intro n h h'
      simp [List.getElem_inits]
  rw [upward, hinits, ← List.map_reverse, List.map_map]
  rfl

example : (Location.root.join "srv/app").upward = ["/srv/app", "/srv", "/"] := by decide +kernel

theorem mem_upward_iff (l : Location) {dir : String} :
    dir ∈ l.upward ↔ ∃ ss, ss <+: l.segments ∧ Path.ofSegments l.slashes ss = dir := by
  rw [upward, List.mem_map]
  simp only [List.mem_reverse, List.mem_inits]

theorem trail_text (l : Location) : Path.Trail.ofText l.text =
    ⟨String.ofList (List.replicate l.slashes '/'), l.segments.map String.ofList⟩ := by
  obtain ⟨n, hsplit⟩ := l.split_text
  have hkept : l.segments.filter (fun s => s ≠ [] ∧ s ≠ Path.here) = l.segments := by
    rw [List.filter_eq_self]
    intro s hs
    have hname := l.isName_of_mem_segments hs
    simp [hname.ne_nil, hname.ne_here]
  have hfilter : (Text.split '/' l.text.toList).filter (fun s => s ≠ [] ∧ s ≠ Path.here) =
      l.segments := by
    rw [hsplit, List.filter_append, List.filter_append, hkept]
    simp
  rw [Path.Trail.ofText, hfilter]
  rfl

theorem trail_name {name : String} (h : Path.IsName name.toList) :
    Path.Trail.ofText name = ⟨"", [name]⟩ := by
  have hroot : Path.rootSlashes name.toList = 0 := by
    unfold Path.rootSlashes
    split
    all_goals first | rfl | next heq => exact absurd (by simp [heq]) h.clean
  rw [Path.Trail.ofText, hroot, Text.split_of_not_mem h.clean]
  simp [h.ne_nil, h.ne_here]

theorem intercalate_map_ofList (ss : List Segment) :
    "/".intercalate (ss.map String.ofList) = String.ofList (Text.join '/' ss) := by
  have htexts : (ss.map String.ofList).map String.toList = ss := by simp
  rw [← String.toList_inj, Text.toList_intercalate (c := '/') rfl, htexts, String.toList_ofList]

theorem text_append_name (l : Location) {name : String} (h : Path.IsName name.toList) :
    (Path.Trail.append ⟨String.ofList (List.replicate l.slashes '/'),
      l.segments.map String.ofList⟩ ⟨"", [name]⟩).text = Path.join l.text name := by
  have hroot : String.ofList (List.replicate l.slashes '/') ≠ "" := by
    rw [Ne, String.ofList_eq_empty_iff, List.replicate_eq_nil_iff]
    exact l.slashes_ne_zero
  have hsegments : l.segments.map String.ofList ++ [name] =
      (l.segments ++ [name.toList]).map String.ofList := by simp
  rw [l.join_name h, text_child, ← String.toList_inj, toList_ofSegments, Path.Trail.append,
    if_neg (by simp), Path.Trail.text, if_neg (by simp [hroot]), hsegments, intercalate_map_ofList,
    String.toList_append, String.toList_ofList, String.toList_ofList]

end Location

namespace Modules

/-- The roots of a search from a location: the location, and the dependency folder in it and in
each directory above it, the deepest first. -/
theorem searchPaths_location (rules : SearchRules)
    (hfolder : Path.IsName rules.dependencyDir.toList) (l : Location) :
    searchPaths rules l.text =
      l.text :: l.upward.map (Path.join · rules.dependencyDir) := by
  have hfolders : ∀ n, (Path.Trail.append ⟨String.ofList (List.replicate l.slashes '/'),
      (l.segments.map String.ofList).take n⟩ ⟨"", [rules.dependencyDir]⟩).text =
        Path.join (Path.ofSegments l.slashes (l.segments.take n)) rules.dependencyDir := by
    intro n
    have hform : Path.NormalForm l.slashes (l.segments.take n) :=
      l.normalForm.of_prefix (List.take_prefix n _)
    have hplace := (Location.ofSegments l.slashes_ne_zero hform).text_append_name hfolder
    rw [Location.slashes_ofSegments, Location.segments_ofSegments, List.map_take] at hplace
    exact hplace
  rw [searchPaths, l.trail_text, Location.trail_name hfolder, Path.Trail.ancestors, l.upward_eq]
  simp [hfolders, Function.comp_def]

end Modules
end Wiring
