import Wiring.Proofs.Path.Names

/-! Relative paths that are joined to an absolute one. The place that they lead to is known by the
name at their end, and a tail such as a suffix lengthens the place as it lengthens the name. -/
namespace Wiring.Path
open Wiring.Text

theorem toList_base (p : String) : (base p).toList = afterLast '/' p.toList :=
  String.toList_ofList

theorem base_append {p tail : String} (h : '/' ∉ tail.toList) :
    base (p ++ tail) = base p ++ tail := by
  have hsplit : split '/' (p.toList ++ tail.toList) = _ := split_append_of_not_mem h
  have hlast := congrArg List.getLast? hsplit
  rw [getLast?_split, List.getLast?_concat] at hlast
  rw [← String.toList_inj, String.toList_append, toList_base, toList_base, String.toList_append]
  exact Option.some.inj hlast

theorem base_suffix (p : String) : (base p).toList <:+ p.toList := by
  rw [toList_base]
  obtain ⟨-, h | ⟨front, h⟩⟩ := followsLast_afterLast '/' p.toList
  · exact h ▸ List.suffix_rfl
  · exact ⟨front ++ ['/'], by simp [← h]⟩

theorem isName_base {p : String} (h : base p ∉ ["", ".", ".."]) : IsName (base p).toList := by
  simp only [List.mem_cons, List.not_mem_nil, or_false, not_or, ← String.toList_inj] at h
  obtain ⟨hblank, hdot, hdots⟩ := h
  refine ⟨hblank, hdot, hdots, ?_⟩
  rw [toList_base]
  exact (followsLast_afterLast '/' p.toList).1

theorem Trail.name_ofText {p : String} (h : IsName (base p).toList) :
    (ofText p).name = base p := by
  rw [toList_base] at h
  rw [name, ofText, split_eq_concat, List.filter_append, List.map_append, List.getLast?_append]
  simp [h.ne_nil, h.ne_here, base]

theorem rootSlashes_append_of_getLast? {cs part : List Char} (hcs : cs.head? = some '/')
    (h : cs.getLast? = some '/' → part.head? ≠ some '/') :
    rootSlashes (cs ++ part) = rootSlashes cs := by
  obtain ⟨cs, rfl⟩ : ∃ rest, cs = '/' :: rest := List.head?_eq_some_iff.mp hcs
  cases cs with
  | nil => exact rootSlashes_append (n := 1) (by decide) (h rfl)
  | cons c cs =>
    by_cases hc : c = '/'
    · subst hc
      cases cs with
      | nil => exact rootSlashes_append (n := 2) (by decide) (h rfl)
      | cons d cs => by_cases hd : d = '/' <;> simp [rootSlashes, hd]
    · simp [rootSlashes, hc]

theorem rootSlashes_join {base part : String} (hbase : isAbsolute base = true)
    (hpart : isAbsolute part = false) :
    rootSlashes (join base part).toList = rootSlashes base.toList := by
  have hhead : base.toList.head? = some '/' := by simpa [isAbsolute] using hbase
  have hpart' : part.toList.head? ≠ some '/' := by simpa [isAbsolute] using hpart
  have hne : base ≠ "" := by
    rintro rfl
    cases hbase
  rw [join, hpart, if_neg (by decide)]
  by_cases hlast : base.toList.getLast? = some '/'
  · rw [if_pos (.inr hlast), String.toList_append]
    exact rootSlashes_append_of_getLast? hhead fun _ => hpart'
  · rw [if_neg (by simp [hne, hlast]), String.append_assoc, String.toList_append]
    exact rootSlashes_append_of_getLast? hhead fun h => absurd h hlast

theorem join_concat_append (sep : Char) (ss : List Segment) (s tail : Segment) :
    Text.join sep (ss ++ [s ++ tail]) = Text.join sep (ss ++ [s]) ++ tail := by
  by_cases hss : ss = []
  · simp [hss, Text.join]
  · rw [Text.join_append sep hss (by simp), Text.join_append sep hss (by simp)]
    simp [Text.join]

theorem normal_join_of_concat {base part : String} (hbase : isAbsolute base = true)
    (hpart : isAbsolute part = false) {front : List Segment} {s : Segment} (hs : IsName s)
    (hsplit : Text.split '/' part.toList = front ++ [s]) :
    (normal (join base part)).toList = List.replicate (rootSlashes base.toList) '/' ++
      Text.join '/'
        ((front.foldl (climb true) (normalSegments base.toList).reverse).reverse ++ [s]) := by
  have hblank : ¬ (s = [] ∨ s = here) := fun h => h.elim hs.ne_nil hs.ne_here
  rw [normal, rootSlashes_join hbase hpart, normalSegments_join hbase hpart, hsplit,
    List.foldl_append, List.foldl_cons, List.foldl_nil, climb_name hblank hs.ne_up,
    List.reverse_cons, toList_ofSegments (by simp)]

/-- A tail that leaves a name at the end of a relative path lengthens the place it leads to. -/
theorem normal_join_append {base part tail : String} (hbase : isAbsolute base = true)
    (hpart : isAbsolute part = false) (hname : IsName (Path.base part).toList)
    (hname' : IsName (Path.base part ++ tail).toList) :
    normal (join base (part ++ tail)) = normal (join base part) ++ tail := by
  have hclean : '/' ∉ tail.toList := by
    have hmem := hname'.clean
    rw [String.toList_append, List.mem_append, not_or] at hmem
    exact hmem.2
  have hpart' : isAbsolute (part ++ tail) = false := by
    have hne : part.toList ≠ [] := by
      intro hempty
      rw [toList_base, hempty] at hname
      exact hname.ne_nil rfl
    obtain ⟨c, cs, hcs⟩ := List.exists_cons_of_ne_nil hne
    rw [isAbsolute, hcs] at hpart
    rw [isAbsolute, String.toList_append, hcs]
    exact hpart
  rw [String.toList_append, toList_base] at hname'
  rw [toList_base] at hname
  have hsplit : Text.split '/' (part ++ tail).toList =
      (Text.split '/' part.toList).dropLast ++ [afterLast '/' part.toList ++ tail.toList] := by
    rw [String.toList_append, split_append_of_not_mem hclean]
  rw [← String.toList_inj, String.toList_append, normal_join_of_concat hbase hpart' hname' hsplit,
    normal_join_of_concat hbase hpart hname (split_eq_concat ..), join_concat_append,
    List.append_assoc]

end Wiring.Path
