import Wiring.Proofs.Path.Named

/-! The way down from a location to a file below it, and the extension at the end of that way. -/
namespace Wiring
open Wiring.Path (Segment IsName)

namespace Path

/-! Extensions. -/

/-- What the name of a file can end in: nothing, or a dot and then neither a dot nor a slash. -/
def IsExtension (extension : String) : Prop :=
  extension = "" ∨ ∃ cs, extension.toList = '.' :: cs ∧ '.' ∉ cs ∧ '/' ∉ cs

def plainName (p : String) : List Char := (Text.afterLast '/' p.toList).dropWhile (· = '.')

theorem plainName_suffix (p : String) : plainName p <:+ (base p).toList := by
  rw [toList_base]
  exact List.dropWhile_suffix _

theorem splitExtension_of_no_dot {p : String} (h : '.' ∉ plainName p) :
    splitExtension p = (p, "") := by
  have hcontains : ¬ (plainName p).contains '.' = true := by simpa using h
  exact if_neg hcontains

theorem splitExtension_of_dot {p : String} {front : List Char} (h : '.' ∈ plainName p)
    (hp : p.toList = front ++ '.' :: Text.afterLast '.' (plainName p)) :
    splitExtension p =
      (String.ofList front, String.ofList ('.' :: Text.afterLast '.' (plainName p))) := by
  have hcontains : (plainName p).contains '.' = true := by simpa using h
  have hfront : p.toList.take
      (p.toList.length - ('.' :: Text.afterLast '.' (plainName p)).length) = front := by
    generalize Text.afterLast '.' (plainName p) = last at hp
    rw [hp]
    simp
  refine (if_pos hcontains).trans (congrArg (fun cs => (String.ofList cs, _)) ?_)
  exact hfront

theorem splitExtension_spec (p : String) :
    (splitExtension p).1 ++ (splitExtension p).2 = p ∧ IsExtension (splitExtension p).2 := by
  by_cases hdot : '.' ∈ plainName p
  · obtain ⟨hlast, heq | ⟨front, hfront⟩⟩ := Text.followsLast_afterLast '.' (plainName p)
    · exact absurd (heq ▸ hdot) hlast
    · obtain ⟨before, hbefore⟩ := (plainName_suffix p).trans (base_suffix p)
      have hp : p.toList = before ++ front ++ '.' :: Text.afterLast '.' (plainName p) := by
        rw [List.append_assoc, ← hfront, hbefore]
      have hclean : '/' ∉ plainName p := by
        intro hslash
        have hmem := (plainName_suffix p).subset hslash
        rw [toList_base] at hmem
        exact (Text.followsLast_afterLast '/' p.toList).1 hmem
      rw [splitExtension_of_dot hdot hp]
      refine ⟨?_, .inr ⟨_, String.toList_ofList, hlast, fun hslash => hclean ?_⟩⟩
      · rw [← String.toList_inj, String.toList_append, String.toList_ofList, String.toList_ofList,
          hp]
      · rw [hfront]
        exact List.mem_append_right _ (List.mem_cons_of_mem _ hslash)
  · rw [splitExtension_of_no_dot hdot]
    exact ⟨String.append_empty, .inl rfl⟩

theorem splitExtension_append {stem extension : String} (h : IsExtension extension)
    (hne : (base stem).toList ≠ []) (hdot : '.' ∉ (base stem).toList) :
    splitExtension (stem ++ extension) = (stem, extension) := by
  obtain ⟨c, cs, hname⟩ := List.exists_cons_of_ne_nil hne
  have hc : c ≠ '.' := fun heq => hdot (by simp [hname, heq])
  obtain rfl | ⟨last, hlast, hlastdot, hslash⟩ := h
  · rw [String.append_empty, splitExtension_of_no_dot]
    exact fun hmem => hdot ((plainName_suffix stem).subset hmem)
  · have hclean : '/' ∉ extension.toList := by simp [hlast, hslash]
    have hplain : plainName (stem ++ extension) = (base stem).toList ++ '.' :: last := by
      rw [plainName, ← toList_base, base_append hclean, String.toList_append, hlast, hname,
        List.cons_append, List.dropWhile_cons_of_neg (by simpa using hc)]
    have hafter : last = Text.afterLast '.' (plainName (stem ++ extension)) :=
      Text.FollowsLast.eq_afterLast ⟨hlastdot, .inr ⟨_, hplain⟩⟩
    have hmem : '.' ∈ plainName (stem ++ extension) := by simp [hplain]
    have hstem : (stem ++ extension).toList =
        stem.toList ++ '.' :: Text.afterLast '.' (plainName (stem ++ extension)) := by
      rw [← hafter, String.toList_append, hlast]
    rw [splitExtension_of_dot hmem hstem, ← hafter, ← hlast, String.ofList_toList,
      String.ofList_toList]

/-! The way between two places. -/

theorem dropCommon_append (ss down : List Segment) : dropCommon (ss ++ down) ss = (down, []) := by
  induction ss with
  | nil => cases down <;> rfl
  | cons s ss ih => rw [List.cons_append, dropCommon, if_pos rfl, ih]

end Path

namespace Location
variable {root path : Location} {way : String}

theorem segments_of_way (h : path.text = root.text ++ "/" ++ way) : path.segments =
    ((Text.split '/' way.toList).foldl (Path.climb true) root.segments.reverse).reverse := by
  have hsegments := Path.normalSegments_append_slash root.isAbsolute way
  rw [← h] at hsegments
  exact hsegments

theorem two_le_length_split (l : Location) : 2 ≤ (Text.split '/' l.text.toList).length := by
  obtain ⟨cs, hcs⟩ := List.head?_eq_some_iff.mp (by simpa [Path.isAbsolute] using l.isAbsolute)
  have hpieces : (Text.split '/' cs).length ≠ 0 := by simp [Text.split_ne_nil]
  rw [hcs, Text.split, if_pos rfl, List.length_cons]
  omega

theorem named_of_way (h : path.text = root.text ++ "/" ++ way) (hne : path.segments ≠ []) :
    Path.Named way := by
  have hsplit : List.replicate path.slashes [] ++ path.segments =
      Text.split '/' root.text.toList ++ Text.split '/' way.toList := by
    rw [← split_text_of_ne_nil hne, h, String.toList_append, String.toList_append,
      List.append_assoc]
    exact Text.split_append ..
  have hroot : 2 ≤ (Text.split '/' root.text.toList).length := root.two_le_length_split
  have hslashes : path.slashes ≤ 2 := Path.rootSlashes_le _
  have hsubset : ∀ s ∈ Text.split '/' way.toList, s ∈ path.segments := by
    obtain ⟨as, -, has⟩ | ⟨bs, hbs, hway⟩ := List.append_eq_append_iff.mp hsplit
    · exact fun s hs => has ▸ List.mem_append_right as hs
    · have hlength := congrArg List.length hbs
      rw [List.length_replicate, List.length_append] at hlength
      have hnil : bs = [] := List.eq_nil_of_length_eq_zero (by omega)
      rw [hway, hnil]
      exact fun s hs => hs
  exact fun s hs => path.isName_of_mem_segments (hsubset s hs)

theorem segments_of_named_way (h : path.text = root.text ++ "/" ++ way)
    (hnamed : Path.Named way) : path.segments = root.segments ++ Text.split '/' way.toList := by
  rw [segments_of_way h, Path.foldl_climb_names hnamed, List.reverse_append, List.reverse_reverse,
    List.reverse_reverse]

theorem relative_text (workingDir : Location) {down : List Segment}
    (h : path.segments = root.segments ++ down) :
    Path.relative workingDir.text path.text root.text = Path.ofSegments 0 down := by
  have hpath : Path.normalSegments path.text.toList = root.segments ++ down := h
  have hroot : Path.normalSegments root.text.toList = root.segments := rfl
  rw [Path.relative]
  simp only [absolute_text, hpath, hroot, Path.dropCommon_append, List.map_nil, List.nil_append]

theorem relative_of_way (workingDir : Location) (h : path.text = root.text ++ "/" ++ way)
    (hnamed : Path.Named way) : Path.relative workingDir.text path.text root.text = way := by
  rw [relative_text workingDir (segments_of_named_way h hnamed), ← String.toList_inj,
    Path.toList_ofSegments (fun hroot => Text.split_ne_nil '/' _ hroot.2), Text.join_split]
  rfl

theorem eq_slash_of_mem_text {l : Location} (hroot : l.segments = []) {c : Char}
    (hc : c ∈ l.text.toList) : c = '/' := by
  rw [l.toList_slashes, hroot, Text.join, List.append_nil] at hc
  exact List.eq_of_mem_replicate hc

theorem segments_eq_nil_of_way (h : path.text = root.text ++ "/" ++ way)
    (hroot : path.segments = []) : root.segments = [] := by
  have hne : root.text.toList ≠ [] := mt String.toList_eq_nil_iff.mp root.text_ne_empty
  rw [← root.getLast?_text_iff, List.getLast?_eq_some_getLast hne]
  refine congrArg some (eq_slash_of_mem_text hroot ?_)
  rw [h, String.toList_append, String.toList_append]
  exact List.mem_append_left _ (List.mem_append_left _ (List.getLast_mem hne))

theorem text_eq_of_way (h : path.text = root.text ++ "/" ++ way) (hroot : root.segments = []) :
    root.text = "/" := by
  obtain htext | htext := root.text_eq
  · rw [htext, hroot]
    rfl
  · have hpath : path.text.toList = '/' :: '/' :: '/' :: way.toList := by
      rw [h, htext, hroot]
      simp [Disk.fullPath, Path.ofSegments, Text.join]
    have hslashes : path.slashes = 1 := by rw [slashes, hpath, Path.rootSlashes]
    have hjoin := path.toList_slashes
    rw [hpath, hslashes, List.replicate_one, List.singleton_append, List.cons_inj_right] at hjoin
    exact absurd (by rw [← hjoin]; rfl) (Path.head?_join path.normalForm.ne_nil path.normalForm.clean)

theorem text_eq_join_of_way (h : path.text = root.text ++ "/" ++ way) (hnamed : Path.Named way) :
    path.text = Path.join root.text way ∨
      root.text = "/" ∧ path.text = "/" ++ Path.join root.text way := by
  by_cases hroot : root.segments = []
  · have hslash := text_eq_of_way h hroot
    right
    rw [root.join_root hnamed.isAbsolute hroot, hslash, ← String.append_assoc, h, hslash]
    exact ⟨rfl, rfl⟩
  · left
    rw [h, root.join_not_root hnamed.isAbsolute hroot]

theorem prefix_of_way (h : path.text = root.text ++ "/" ++ way) (hnamed : Path.Named way) :
    root.segments <+: path.segments ∧ root.segments ≠ path.segments := by
  rw [segments_of_named_way h hnamed]
  exact ⟨List.prefix_append .., fun heq =>
    Text.split_ne_nil '/' _ (List.self_eq_append_right.mp heq)⟩

end Location
end Wiring
