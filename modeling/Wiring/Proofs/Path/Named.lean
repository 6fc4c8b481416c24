import Wiring.Proofs.Path.Joined
import Wiring.Proofs.Path.Spelled

/-! Relative paths that are spelled with names only. Seen from a location they lead below it, one
level down for each name. -/
namespace Wiring
open Wiring.Path (Segment IsName)

namespace Path

def Named (p : String) : Prop := ∀ s ∈ Text.split '/' p.toList, IsName s

instance (p : String) : Decidable (Named p) :=
  inferInstanceAs (Decidable (∀ s ∈ Text.split '/' p.toList, IsName s))

theorem isAbsolute_of_head?_ne {p : String} (h : p.toList.head? ≠ some '/') :
    isAbsolute p = false := by
  simpa [isAbsolute] using h

section Named
variable {p tail : String}

theorem Named.toList_ne_nil (h : Named p) : p.toList ≠ [] := by
  intro hnil
  exact (h [] (by simp [hnil, Text.split])).ne_nil rfl

theorem Named.isAbsolute (h : Named p) : isAbsolute p = false := by
  refine isAbsolute_of_head?_ne fun hhead => ?_
  obtain ⟨cs, hcs⟩ := List.head?_eq_some_iff.mp hhead
  have hblank : [] ∈ Text.split '/' p.toList := by
    rw [hcs, Text.split, if_pos rfl]
    exact List.mem_cons_self
  exact (h _ hblank).ne_nil rfl

theorem Named.isName_base (h : Named p) : IsName (base p).toList := by
  rw [toList_base]
  exact h _ (List.getLast_mem (Text.split_ne_nil '/' p.toList))

theorem split_append_eq (htail : '/' ∉ tail.toList) : Text.split '/' (p ++ tail).toList =
    (Text.split '/' p.toList).dropLast ++ [(base p ++ tail).toList] := by
  rw [String.toList_append, Text.split_append_of_not_mem htail, String.toList_append, toList_base]

theorem Named.append (h : Named p) (hname : IsName (base p ++ tail).toList) :
    Named (p ++ tail) := by
  have htail : '/' ∉ tail.toList := by
    have hmem := hname.clean
    rw [String.toList_append, List.mem_append, not_or] at hmem
    exact hmem.2
  intro s hs
  rw [split_append_eq htail] at hs
  obtain hs | hs := List.mem_append.mp hs
  · exact h s (List.mem_of_mem_dropLast hs)
  · obtain rfl := List.mem_singleton.mp hs
    exact hname

end Named

theorem normal_join_normal {base part : String} (hbase : isAbsolute base = true)
    (hpart : isAbsolute part = false) :
    normal (join (normal base) part) = normal (join base part) := by
  have hbase' : isAbsolute (normal base) = true := by rw [isAbsolute_normal, hbase]
  have hslashes : rootSlashes (join (normal base) part).toList =
      rootSlashes (join base part).toList := by
    rw [rootSlashes_join hbase' hpart, rootSlashes_join hbase hpart, rootSlashes_normal]
  have hsegments : normalSegments (join (normal base) part).toList =
      normalSegments (join base part).toList := by
    rw [normalSegments_join hbase' hpart, normalSegments_join hbase hpart, normalSegments_normal]
  exact congrArg₂ ofSegments hslashes hsegments

end Path

namespace Location
variable {l l' : Location} {p tail : String}

theorem ext_segments (hslashes : l.slashes = l'.slashes) (hsegments : l.segments = l'.segments) :
    l = l' := by
  apply text_injective
  rw [← l.ofSegments_segments, hslashes, hsegments, l'.ofSegments_segments]

theorem text_join (l : Location) (p : String) :
    (l.join p).text = Path.normal (Path.join l.text p) := text_ofBase l.text p l.isAbsolute

theorem text_join_absolute (l : Location) (h : Path.isAbsolute p = true) :
    (l.join p).text = Path.normal p := by
  rw [text_join, Path.join, if_pos h]

theorem slashes_join_absolute (l : Location) (h : Path.isAbsolute p = true) :
    (l.join p).slashes = Path.rootSlashes p.toList := by
  rw [slashes, l.text_join_absolute h, Path.rootSlashes_normal]

theorem slashes_join (l : Location) (h : Path.isAbsolute p = false) :
    (l.join p).slashes = l.slashes := by
  rw [slashes, text_join, Path.rootSlashes_normal, Path.rootSlashes_join l.isAbsolute h, slashes]

theorem segments_join (l : Location) (h : Path.isAbsolute p = false) : (l.join p).segments =
    ((Text.split '/' p.toList).foldl (Path.climb true) l.segments.reverse).reverse := by
  have hsegments := Path.normalSegments_join l.isAbsolute h
  rw [← Path.normalSegments_normal, ← text_join] at hsegments
  exact hsegments

theorem segments_join_named (l : Location) (h : Path.Named p) :
    (l.join p).segments = l.segments ++ Text.split '/' p.toList := by
  rw [l.segments_join h.isAbsolute, Path.foldl_climb_names h, List.reverse_append,
    List.reverse_reverse, List.reverse_reverse]

theorem text_join_append (l : Location) (h : Path.Named p)
    (hname : IsName (Path.base p ++ tail).toList) :
    (l.join (p ++ tail)).text = (l.join p).text ++ tail := by
  rw [text_join, text_join, Path.normal_join_append l.isAbsolute h.isAbsolute h.isName_base hname]

theorem split_text_of_ne_nil (hne : l.segments ≠ []) : Text.split '/' l.text.toList =
    List.replicate l.slashes [] ++ l.segments := by
  rw [l.toList_slashes, Path.split_replicate_append, Path.split_join hne l.normalForm.clean]

theorem base_text {ss : List Segment} {s : Segment} (h : l.segments = ss ++ [s]) :
    (Path.base l.text).toList = s := by
  have hsplit : Text.split '/' l.text.toList = List.replicate l.slashes [] ++ ss ++ [s] := by
    rw [split_text_of_ne_nil (by simp [h]), h, List.append_assoc]
  have hlast := Text.getLast?_split '/' l.text.toList
  rw [hsplit, List.getLast?_concat] at hlast
  rw [Path.toList_base]
  exact (Option.some.inj hlast).symm

end Location
end Wiring
