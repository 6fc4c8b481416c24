import Wiring.Proofs.Path.Joined
import Wiring.Proofs.Path.Upward

/-! Paths below a root as they are spelled. Their segments lead down and, where they are `..`, up
again, by one level at a time; where they end is the normal form of the path. -/
namespace Wiring
open Wiring.Path (Segment IsName NormalForm)

namespace Path

/-- The segments that a path is spelled with, `..` among them, without blanks and `.`. -/
def spelled (p : String) : List Segment :=
  (Text.split '/' p.toList).filter (fun s => s ≠ [] ∧ s ≠ here)

theorem ancestors_ofText (p : String) : (Trail.ofText p).ancestors =
    (List.range ((spelled p).length + 1)).reverse.map fun k =>
      ⟨String.ofList (List.replicate (rootSlashes p.toList) '/'),
        ((spelled p).take k).map String.ofList⟩ := by
  have htrail : Trail.ofText p = ⟨String.ofList (List.replicate (rootSlashes p.toList) '/'),
      (spelled p).map String.ofList⟩ := rfl
  rw [htrail, Trail.ancestors, List.length_map]
  simp only [List.map_take]

/-- Where segments lead from the root. -/
def reached (ss : List Segment) : List Segment := (ss.foldl (climb true) []).reverse

theorem foldl_climb_filter (rooted : Bool) (kept ss : List Segment) :
    (ss.filter (fun s => s ≠ [] ∧ s ≠ here)).foldl (climb rooted) kept =
      ss.foldl (climb rooted) kept := by
  induction ss generalizing kept with
  | nil => rfl
  | cons s ss ih =>
    by_cases hblank : s = [] ∨ s = here
    · rw [List.filter_cons_of_neg (by simpa [imp_iff_not_or] using hblank), List.foldl_cons,
        climb_blank hblank, ih]
    · rw [List.filter_cons_of_pos (by simpa [not_or] using hblank), List.foldl_cons,
        List.foldl_cons, ih]

theorem normalSegments_eq_reached {p : String} (h : isAbsolute p = true) :
    normalSegments p.toList = reached (spelled p) := by
  rw [reached, spelled, foldl_climb_filter, normalSegments_of_isAbsolute h]

theorem ne_nil_of_mem_spelled {p : String} {s : Segment} (h : s ∈ spelled p) : s ≠ [] := by
  have hkept := (List.mem_filter.mp h).2
  simp only [decide_eq_true_eq] at hkept
  exact hkept.1

theorem clean_of_mem_spelled {p : String} {s : Segment} (h : s ∈ spelled p) : '/' ∉ s :=
  Text.sep_not_mem_of_mem_split (List.mem_of_mem_filter h)

theorem normalForm_reached {n : Nat} (hn : n ≠ 0) (hle : n ≤ 2) {ss : List Segment}
    (hclean : ∀ s ∈ ss, '/' ∉ s) : NormalForm n (reached ss) where
  le := hle
  settled := by
    rw [reached, List.reverse_reverse, bne_iff_ne.mpr hn]
    exact settled_foldl .nil ss
  clean s hs := by
    obtain h | h := mem_foldl_climb (List.mem_reverse.mp hs)
    · cases h
    · exact hclean s h

theorem reached_concat {ss : List Segment} {s : Segment} (h : IsName s) :
    reached (ss ++ [s]) = reached ss ++ [s] := by
  have hblank : ¬ (s = [] ∨ s = here) := fun hs => hs.elim h.ne_nil h.ne_here
  rw [reached, List.foldl_append, List.foldl_cons, List.foldl_nil, climb_name hblank h.ne_up,
    List.reverse_cons, reached]

theorem reached_concat_cases (ss : List Segment) (s : Segment) :
    reached (ss ++ [s]) = reached ss ∨ reached (ss ++ [s]) = (reached ss).dropLast ∨
      reached (ss ++ [s]) = reached ss ++ [s] := by
  have hclimb : ∀ kept : List Segment, climb true kept s = kept ∨ climb true kept s = kept.tail ∨
      climb true kept s = s :: kept := by
    intro kept
    by_cases hblank : s = [] ∨ s = here
    · exact .inl (climb_blank hblank)
    · by_cases hup : s = up
      · subst hup
        cases kept with
        | nil => exact .inl rfl
        | cons top below =>
          by_cases htop : top = up
          · exact .inr (.inr (if_pos htop))
          · exact .inr (.inl (if_neg htop))
      · exact .inr (.inr (climb_name hblank hup))
  rw [reached, List.foldl_append, List.foldl_cons, List.foldl_nil, reached]
  obtain h | h | h := hclimb (ss.foldl (climb true) [])
  · exact .inl (congrArg List.reverse h)
  · exact .inr (.inl (by rw [h, List.dropLast_reverse]))
  · exact .inr (.inr (by rw [h, List.reverse_cons]))

theorem length_reached_concat_le (ss : List Segment) (s : Segment) :
    (reached (ss ++ [s])).length ≤ (reached ss).length + 1 := by
  obtain h | h | h := reached_concat_cases ss s
  · rw [h]
    omega
  · rw [h, List.length_dropLast]
    omega
  · rw [h, List.length_append, List.length_singleton]

theorem exists_take_reached {ss ts : List Segment} (h : ts <+: reached ss) :
    ∃ k ≤ ss.length, reached (ss.take k) = ts := by
  induction ss using List.reverseRecOn with
  | nil => exact ⟨0, le_rfl, (List.prefix_nil.mp h).symm⟩
  | append_singleton ss s ih =>
    have hback : ts = reached (ss ++ [s]) ∨ ts <+: reached ss := by
      obtain heq | heq | heq := reached_concat_cases ss s
      · exact .inr (heq ▸ h)
      · exact .inr ((heq ▸ h).trans (List.dropLast_prefix _))
      · exact (List.prefix_concat_iff.mp (heq ▸ h)).imp_left fun hts => hts.trans heq.symm
    obtain rfl | hts := hback
    · exact ⟨(ss ++ [s]).length, le_rfl, by rw [List.take_length]⟩
    · obtain ⟨k, hk, hreached⟩ := ih hts
      refine ⟨k, hk.trans (by simp), ?_⟩
      rw [List.take_append_of_le_length hk, hreached]

theorem foldl_climb_names {rooted : Bool} {ss : List Segment} (h : ∀ s ∈ ss, IsName s)
    (kept : List Segment) : ss.foldl (climb rooted) kept = ss.reverse ++ kept := by
  induction ss generalizing kept with
  | nil => rfl
  | cons s ss ih =>
    obtain ⟨hs, hss⟩ := List.forall_mem_cons.mp h
    have hblank : ¬ (s = [] ∨ s = here) := fun h => h.elim hs.ne_nil hs.ne_here
    rw [List.foldl_cons, climb_name hblank hs.ne_up, ih hss, List.reverse_cons, List.append_assoc,
      List.singleton_append]

theorem reached_of_names {ss : List Segment} (h : ∀ s ∈ ss, IsName s) : reached ss = ss := by
  rw [reached, foldl_climb_names h, List.append_nil, List.reverse_reverse]

theorem join_ofSegments {n : Nat} (hn : n ≠ 0) {ss : List Segment} (h : NormalForm n ss)
    {name : String} (hname : IsName name.toList) :
    join (ofSegments n ss) name = ofSegments n (ss ++ [name.toList]) := by
  have hjoin := (Location.ofSegments hn h).join_name hname
  rw [Location.text_child, Location.slashes_ofSegments, Location.segments_ofSegments] at hjoin
  exact hjoin

theorem join_ofSegments_inj {n : Nat} (hn : n ≠ 0) {ss ts : List Segment} (hs : NormalForm n ss)
    (ht : NormalForm n ts) {name : String} (hname : IsName name.toList)
    (h : join (ofSegments n ss) name = join (ofSegments n ts) name) : ss = ts := by
  rw [join_ofSegments hn hs hname, join_ofSegments hn ht hname] at h
  exact List.append_cancel_right (ofSegments_inj (hs.concat hname) (ht.concat hname) h)

/-- A trail below the root means the place that its segments lead to. -/
theorem normal_text_trail {n : Nat} (hn : n ≠ 0) (hle : n ≤ 2) {ss : List Segment}
    (hne : ∀ s ∈ ss, s ≠ []) (hclean : ∀ s ∈ ss, '/' ∉ s) :
    normal (Trail.text ⟨String.ofList (List.replicate n '/'), ss.map String.ofList⟩) =
      ofSegments n (reached ss) := by
  have hroot : String.ofList (List.replicate n '/') ≠ "" := by
    rw [Ne, String.ofList_eq_empty_iff, List.replicate_eq_nil_iff]
    exact hn
  have htext : (Trail.text ⟨String.ofList (List.replicate n '/'), ss.map String.ofList⟩).toList =
      List.replicate n '/' ++ Text.join '/' ss := by
    rw [Trail.text, if_neg fun h => hroot h.1, String.toList_append,
      Location.intercalate_map_ofList, String.toList_ofList, String.toList_ofList]
  have hslashes : rootSlashes (List.replicate n '/' ++ Text.join '/' ss) = n :=
    rootSlashes_append hle (head?_join hne hclean)
  rw [normal, normalSegments, htext, hslashes, bne_iff_ne.mpr hn, split_replicate_append,
    List.foldl_append, foldl_climb_replicate]
  by_cases hempty : ss = []
  · rw [hempty]
    rfl
  · rw [split_join hempty hclean, reached]

end Path
end Wiring
