import Wiring.Proofs.Modules.Search
import Wiring.Proofs.Path.Named

/-! The file that a specifier with the legacy start names literally, in the folder beside a
directory, and the roots under which what follows the start means that file. -/
namespace Wiring
open Wiring.Path (Segment IsName)

section Shifted
variable {α : Type} {xs : List α} {x y p : α}

theorem concat_eq_cons_iff : xs ++ [x] = p :: xs ↔ ∀ z ∈ xs ++ [x], z = p := by
  constructor
  · induction xs with
    | nil => simp
    | cons z xs ih =>
      intro h
      rw [List.cons_append, List.cons.injEq] at h
      obtain ⟨rfl, h⟩ := h
      rw [List.cons_append, List.forall_mem_cons]
      exact ⟨rfl, ih h⟩
  · intro h
    have hall : xs ++ [x] = List.replicate (xs.length + 1) p :=
      List.eq_replicate_iff.mpr ⟨by simp, h⟩
    have hxs : xs = List.replicate xs.length p :=
      List.eq_replicate_iff.mpr ⟨rfl, fun z hz => h z (List.mem_append_left _ hz)⟩
    rw [hall, List.replicate_succ, ← hxs]

theorem prefix_moved_iff {base : List α} :
    (base ++ (xs ++ [x]) <+: base.dropLast ++ [p] ++ (xs ++ [y]) ∧
        base ++ (xs ++ [x]) ≠ base.dropLast ++ [p] ++ (xs ++ [y])) ↔
      base = [] ∧ ∀ z ∈ xs ++ [x], z = p := by
  rw [← concat_eq_cons_iff]
  constructor
  · rintro ⟨hbegins, hne⟩
    cases base using List.reverseRecOn with
    | nil =>
      have hfront : p :: xs <+: [] ++ [p] ++ (xs ++ [y]) := ⟨[y], by simp⟩
      exact ⟨rfl, List.IsPrefix.eq_of_length
        (List.prefix_of_prefix_length_le hbegins hfront (by simp)) (by simp)⟩
    | append_singleton base b => exact absurd (hbegins.eq_of_length (by simp)) hne
  · rintro ⟨rfl, h⟩
    refine ⟨⟨[y], by simp [h]⟩, fun heq => ?_⟩
    have hlength := congrArg List.length heq
    simp at hlength

theorem eq_of_moved {front back : List α} {z : α}
    (h : front ++ [p] ++ (xs ++ [y]) = back ++ (xs ++ [x]) ++ [z]) : y = z ∧ x = p := by
  rw [← List.append_assoc] at h
  obtain ⟨hfront, hlast⟩ := List.append_inj' h rfl
  rw [List.append_assoc, List.singleton_append] at hfront
  obtain ⟨-, hmoved⟩ := List.append_inj' hfront (by simp)
  exact ⟨List.singleton_inj.mp hlast, concat_eq_cons_iff.mp hmoved.symm x (by simp)⟩

end Shifted

namespace Modules
variable {rest : String} {base root : Location}

theorem isAbsolute_legacy (rest : String) : Path.isAbsolute (legacyStart ++ rest) = false := by
  refine Path.isAbsolute_of_head?_ne ?_
  rw [String.toList_append, List.head?_append_of_ne_nil _ (by decide)]
  decide

namespace Memory

def sharedFolder (base : Location) : Location := base.join "../site-packages"

/-- The file that a specifier names literally, the rest of it standing after the legacy start. -/
def literalFile (base : Location) (rest : String) : String :=
  Path.normal (Path.join base.text (legacyStart ++ rest)) ++ suffix

def folderName : Segment := "site-packages".toList

theorem split_folder : Text.split '/' "../site-packages".toList = [Path.up, folderName] := by
  decide +kernel

theorem slashes_sharedFolder (base : Location) : (sharedFolder base).slashes = base.slashes :=
  base.slashes_join (by decide)

theorem foldl_climb_folder (base : Location) :
    [Path.up, folderName].foldl (Path.climb true) base.segments.reverse =
      folderName :: base.segments.dropLast.reverse := by
  have hordinary : ∀ s ∈ base.segments.reverse, s ≠ Path.up := fun s hs =>
    (base.isName_of_mem_segments (List.mem_reverse.mp hs)).ne_up
  rw [List.foldl_cons, List.foldl_cons, List.foldl_nil, Path.climb_up hordinary,
    Path.climb_name (by decide) (by decide), List.tail_reverse]

theorem segments_sharedFolder (base : Location) :
    (sharedFolder base).segments = base.segments.dropLast ++ [folderName] := by
  rw [sharedFolder, base.segments_join (by decide), split_folder, foldl_climb_folder,
    List.reverse_cons, List.reverse_reverse]

theorem append_suffix_inj {p q : String} (h : p ++ suffix = q ++ suffix) : p = q := by
  rw [← String.toList_inj, String.toList_append, String.toList_append] at h
  exact String.toList_inj.mp (List.append_cancel_right h)

theorem append_suffix_ne {p : String} : p ++ suffix ≠ p := by
  intro h
  have hlength := congrArg (·.toList.length) h
  simp [suffix] at hlength

theorem suffixed_ne_folder (p : String) : (p ++ suffix).toList ≠ folderName := by
  intro h
  have hlast := congrArg List.getLast? h
  rw [String.toList_append, List.getLast?_append_of_ne_nil _ (by decide)] at hlast
  revert hlast
  decide

theorem split_rest (rest : String) : Text.split '/' rest.toList =
    (Text.split '/' rest.toList).dropLast ++ [(Path.base rest).toList] := by
  rw [Path.toList_base, ← Text.split_eq_concat]

section Named
variable (h : Path.Named rest)
include h

theorem isName_suffixed : IsName (Path.base rest ++ suffix).toList := by
  rw [String.toList_append]
  exact IsName.append (c := 'p') h.isName_base.clean (by decide) (by decide) (by decide)

theorem segments_join_rest (l : Location) : (l.join rest).segments =
    l.segments ++ ((Text.split '/' rest.toList).dropLast ++ [(Path.base rest).toList]) := by
  rw [l.segments_join_named h, ← split_rest]

theorem segments_join_suffixed (l : Location) : (l.join (rest ++ suffix)).segments =
    l.segments ++
      ((Text.split '/' rest.toList).dropLast ++ [(Path.base rest ++ suffix).toList]) := by
  rw [l.segments_join_named (h.append (isName_suffixed h)), Path.split_append_eq (by decide)]

theorem literalFile_eq (base : Location) :
    literalFile base rest = ((sharedFolder base).join (rest ++ suffix)).text := by
  have hsplit : Text.split '/' (legacyStart ++ rest).toList =
      [Path.up, folderName] ++ Text.split '/' rest.toList := by
    have hstart : legacyStart.toList = "../site-packages".toList ++ ['/'] := by decide
    rw [String.toList_append, hstart, List.append_assoc, List.singleton_append, Text.split_append,
      split_folder]
  have hsegments : (base.join (legacyStart ++ rest)).segments =
      ((sharedFolder base).join rest).segments := by
    rw [base.segments_join (isAbsolute_legacy rest), hsplit, List.foldl_append, foldl_climb_folder,
      (sharedFolder base).segments_join h.isAbsolute, segments_sharedFolder, List.reverse_append,
      List.reverse_singleton, List.singleton_append]
  have hslashes : (base.join (legacyStart ++ rest)).slashes =
      ((sharedFolder base).join rest).slashes := by
    rw [base.slashes_join (isAbsolute_legacy rest), (sharedFolder base).slashes_join h.isAbsolute,
      slashes_sharedFolder]
  rw [literalFile, ← Location.text_join, Location.ext_segments hslashes hsegments,
    (sharedFolder base).text_join_append h (isName_suffixed h)]

theorem base_join_rest (l : Location) : Path.base (l.join rest).text = Path.base rest := by
  have hsegments := segments_join_rest h l
  rw [← List.append_assoc] at hsegments
  rw [← String.toList_inj, Location.base_text hsegments]

theorem base_literalFile (base : Location) :
    Path.base (literalFile base rest) = Path.base rest ++ suffix := by
  have hsegments := segments_join_suffixed h (sharedFolder base)
  rw [← List.append_assoc] at hsegments
  rw [← String.toList_inj, literalFile_eq h, Location.base_text hsegments]

end Named

theorem base_of_mem_candidates {place : Location} {file : String}
    (h : file ∈ candidates place.text suffix) :
    Path.base file = Path.base place.text ∨ Path.base file = Path.base place.text ++ suffix ∨
      Path.base file = "__init__" ++ suffix := by
  have hpackage : IsName ("__init__" ++ suffix).toList := by decide
  simp only [candidates, List.mem_cons, List.not_mem_nil, or_false] at h
  obtain rfl | rfl | rfl := h
  · exact .inl rfl
  · exact .inr (.inl (Path.base_append (by decide)))
  · refine .inr (.inr ?_)
    rw [place.join_name hpackage, ← String.toList_inj]
    exact Location.base_text (place.segments_child hpackage)

theorem join_suffixed_eq_iff (h : Path.Named rest) :
    (root.join (rest ++ suffix)).text = literalFile base rest ↔ root = sharedFolder base := by
  have hrelative := (h.append (isName_suffixed h)).isAbsolute
  rw [literalFile_eq h]
  constructor
  · intro heq
    have hplace := Location.text_injective heq
    have hslashes := congrArg Location.slashes hplace
    have hsegments := congrArg Location.segments hplace
    rw [(sharedFolder base).slashes_join hrelative, root.slashes_join hrelative] at hslashes
    rw [segments_join_suffixed h, segments_join_suffixed h] at hsegments
    exact Location.ext_segments hslashes (List.append_cancel_right hsegments)
  · rintro rfl
    rfl

theorem join_rest_ne (h : Path.Named rest) : (root.join rest).text ≠ literalFile base rest := by
  intro heq
  have hbase := congrArg Path.base heq
  rw [base_literalFile h, base_join_rest h] at hbase
  exact append_suffix_ne hbase.symm

theorem literalFile_mem_candidates_iff (h : Path.Named rest) :
    literalFile base rest ∈ candidates (root.join rest).text suffix ↔ root = sharedFolder base := by
  rw [← join_suffixed_eq_iff h, root.text_join_append h (isName_suffixed h)]
  constructor
  · intro hmem
    simp only [candidates, List.mem_cons, List.not_mem_nil, or_false] at hmem
    obtain heq | heq | heq := hmem
    · exact absurd heq.symm (join_rest_ne h)
    · exact heq.symm
    · have hpackage : IsName ("__init__" ++ suffix).toList := by decide
      rw [(root.join rest).join_name hpackage, literalFile_eq h] at heq
      have hsegments := congrArg Location.segments (Location.text_injective heq)
      rw [segments_join_suffixed h, segments_sharedFolder, Location.segments_child,
        segments_join_rest h] at hsegments
      obtain ⟨hsuffixed, hfolder⟩ := eq_of_moved hsegments
      have hinit : Path.base rest = "__init__" := append_suffix_inj (String.toList_inj.mp hsuffixed)
      rw [hinit] at hfolder
      exact absurd hfolder (by decide)
  · intro heq
    rw [← heq]
    exact List.mem_cons_of_mem _ List.mem_cons_self

theorem filesUnder_eq {directory : String} (habsolute : Path.isAbsolute directory = true)
    (hroot : root.text = Path.normal directory)
    (hrelative : Path.isAbsolute (specifierPath rest suffix) = false) :
    filesUnder rest directory = candidates (root.join (specifierPath rest suffix)).text suffix := by
  rw [filesUnder, root.text_join, hroot, Path.normal_join_normal habsolute hrelative]

theorem exists_head_of_bare (h : Path.Named rest) (hbare : Text.startsWith rest "." = false) :
    ∃ c cs, rest.toList = c :: cs ∧ c ≠ '.' := by
  obtain ⟨c, cs, hrest⟩ := List.exists_cons_of_ne_nil h.toList_ne_nil
  refine ⟨c, cs, hrest, ?_⟩
  rintro rfl
  have hdot : Text.startsWith rest "." = true := by
    rw [Text.startsWith_iff, hrest]
    exact ⟨cs, rfl⟩
  rw [hdot] at hbare
  cases hbare

def pieces (rest : String) : List Segment :=
  (Text.split '.' rest.toList).filter (fun s => s ≠ [] ∧ s ≠ Path.here)

theorem pieces_ne_nil (h : Path.Named rest) (hbare : Text.startsWith rest "." = false) :
    pieces rest ≠ [] := by
  obtain ⟨c, cs, hrest, hc⟩ := exists_head_of_bare h hbare
  obtain ⟨piece, others, hcs⟩ := List.exists_cons_of_ne_nil (Text.split_ne_nil '.' cs)
  have hsplit : Text.split '.' rest.toList = (c :: piece) :: others := by
    rw [hrest, Text.split, if_neg hc, hcs]
  have hfirst : c :: piece ∈ pieces rest := by
    rw [pieces, hsplit, List.mem_filter]
    exact ⟨List.mem_cons_self, by simp [Path.here, hc]⟩
  exact List.ne_nil_of_mem hfirst

section Dotted
variable (hdotted : specifierPath rest suffix ≠ rest)
include hdotted

theorem specifierPath_of_dotted : '/' ∉ rest.toList ∧ '.' ∈ rest.toList ∧
    (specifierPath rest suffix).toList = rest.toList.map fun c => if c = '.' then '/' else c := by
  rw [specifierPath] at hdotted ⊢
  split at hdotted
  · exact absurd rfl hdotted
  · next hcase =>
    rw [if_neg hcase]
    rw [Bool.or_eq_true, not_or] at hcase
    refine ⟨by simpa using hcase.1, ?_, String.toList_ofList⟩
    by_contra hdot
    have hsame : rest.toList.map (fun c => if c = '.' then '/' else c) = rest.toList.map id :=
      List.map_congr_left fun c hc => if_neg (ne_of_mem_of_not_mem hc hdot)
    exact hdotted (by rw [hsame, List.map_id, String.ofList_toList])

variable (h : Path.Named rest) (hbare : Text.startsWith rest "." = false)
include h hbare

theorem isAbsolute_dotted : Path.isAbsolute (specifierPath rest suffix) = false := by
  obtain ⟨hslash, -, hchars⟩ := specifierPath_of_dotted hdotted
  obtain ⟨c, cs, hrest, hc⟩ := exists_head_of_bare h hbare
  refine Path.isAbsolute_of_head?_ne ?_
  rw [hrest] at hslash
  rw [hchars, hrest, List.map_cons, if_neg hc, List.head?_cons, Ne, Option.some.injEq]
  exact fun heq => hslash (heq ▸ List.mem_cons_self)

omit h hbare in
theorem split_dotted :
    Text.split '/' (specifierPath rest suffix).toList = Text.split '.' rest.toList := by
  obtain ⟨hslash, -, hchars⟩ := specifierPath_of_dotted hdotted
  rw [hchars, Text.split_map_sep hslash]

omit h hbare in
theorem isName_of_mem_pieces {s : Segment} (hs : s ∈ pieces rest) : IsName s ∧ '.' ∉ s := by
  obtain ⟨hs, hkept⟩ := List.mem_filter.mp hs
  simp only [decide_eq_true_eq] at hkept
  have hdot : '.' ∉ s := Text.sep_not_mem_of_mem_split hs
  rw [← split_dotted hdotted] at hs
  refine ⟨⟨hkept.1, hkept.2, ?_, Text.sep_not_mem_of_mem_split hs⟩, hdot⟩
  rintro rfl
  exact hdot (by decide)

theorem segments_join_dotted (root : Location) :
    (root.join (specifierPath rest suffix)).segments = root.segments ++ pieces rest := by
  have hnames : ∀ s ∈ pieces rest, IsName s := fun s hs => (isName_of_mem_pieces hdotted hs).1
  rw [root.segments_join (isAbsolute_dotted hdotted h hbare), split_dotted hdotted,
    ← Path.foldl_climb_filter, ← pieces, Path.foldl_climb_names hnames, List.reverse_append,
    List.reverse_reverse, List.reverse_reverse]

theorem dot_not_mem_base_dotted (root : Location) :
    '.' ∉ (Path.base (root.join (specifierPath rest suffix)).text).toList := by
  have hsegments := segments_join_dotted hdotted h hbare root
  obtain ⟨front, s, hlast⟩ : ∃ front s, pieces rest = front ++ [s] :=
    ⟨_, _, (List.dropLast_concat_getLast (pieces_ne_nil h hbare)).symm⟩
  rw [hlast, ← List.append_assoc] at hsegments
  rw [Location.base_text hsegments]
  exact (isName_of_mem_pieces hdotted (hlast ▸ List.mem_concat_self)).2

theorem literalFile_not_mem_dotted (root : Location) :
    literalFile base rest ∉ candidates (root.join (specifierPath rest suffix)).text suffix := by
  obtain ⟨hslash, hdot, -⟩ := specifierPath_of_dotted hdotted
  have hnodot := dot_not_mem_base_dotted hdotted h hbare root
  have hwhole : (Path.base rest).toList = rest.toList := by
    rw [Path.toList_base]
    exact (Text.FollowsLast.eq_afterLast ⟨hslash, .inl rfl⟩).symm
  rw [← hwhole] at hdot
  intro hmem
  have hbase := base_of_mem_candidates hmem
  rw [base_literalFile h] at hbase
  obtain heq | heq | heq := hbase
  · rw [← heq, String.toList_append] at hnodot
    exact hnodot (List.mem_append_left _ hdot)
  · rw [append_suffix_inj heq] at hdot
    exact hnodot hdot
  · rw [append_suffix_inj heq] at hdot
    revert hdot
    decide

end Dotted

/-- The literal file is among the files under a root exactly where the root is its folder and the
name is not rewritten. -/
theorem literalFile_mem_filesUnder_iff (h : Path.Named rest)
    (hbare : Text.startsWith rest "." = false) {directory : String}
    (habsolute : Path.isAbsolute directory = true) :
    literalFile base rest ∈ filesUnder rest directory ↔
      specifierPath rest suffix = rest ∧ Path.normal directory = (sharedFolder base).text := by
  obtain ⟨root, hroot⟩ : ∃ root : Location, root.text = Path.normal directory :=
    ⟨_, Location.root.text_join_absolute habsolute⟩
  rw [← hroot]
  by_cases hkept : specifierPath rest suffix = rest
  · rw [filesUnder_eq habsolute hroot (hkept.symm ▸ h.isAbsolute), hkept,
      literalFile_mem_candidates_iff h]
    simp [Location.text_injective.eq_iff]
  · rw [filesUnder_eq habsolute hroot (isAbsolute_dotted hkept h hbare)]
    simp [hkept, literalFile_not_mem_dotted hkept h hbare]

end Memory
end Modules
end Wiring
