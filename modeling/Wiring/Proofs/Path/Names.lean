import Wiring.Disk.Location
import Wiring.Modules.Memory

/-! Names that are put below a location or at its end. The files that a location may denote are
locations again. -/
namespace Wiring
open Wiring.Path (Segment)

namespace Path

/-- A segment that names something: neither blank nor one of `.` and `..`. -/
structure IsName (s : Segment) : Prop where
  ne_nil : s ≠ []
  ne_here : s ≠ here
  ne_up : s ≠ up
  clean : '/' ∉ s

instance (s : Segment) : Decidable (IsName s) :=
  decidable_of_iff (s ≠ [] ∧ s ≠ here ∧ s ≠ up ∧ '/' ∉ s)
    ⟨fun ⟨h, h', h'', h'''⟩ => ⟨h, h', h'', h'''⟩, fun ⟨h, h', h'', h'''⟩ => ⟨h, h', h'', h'''⟩⟩

theorem IsName.append {s tail : Segment} {c : Char} (hs : '/' ∉ s) (htail : '/' ∉ tail)
    (hc : c ∈ tail) (hdot : c ≠ '.') : IsName (s ++ tail) := by
  have hmem : c ∈ s ++ tail := List.mem_append_right s hc
  refine ⟨List.ne_nil_of_mem hmem, ?_, ?_, by simp [hs, htail]⟩
  · intro h
    rw [h, here, List.mem_singleton] at hmem
    exact hdot hmem
  · intro h
    rw [h, up, List.mem_cons, List.mem_singleton, or_self] at hmem
    exact hdot hmem

theorem NormalForm.concat {n : Nat} {ss : List Segment} {s : Segment} (h : NormalForm n ss)
    (hs : IsName s) : NormalForm n (ss ++ [s]) where
  le := h.le
  settled := by
    rw [List.reverse_concat]
    exact .plain hs.ne_nil hs.ne_here hs.ne_up h.settled
  clean t ht := by
    obtain ht | ht := List.mem_append.mp ht
    · exact h.clean t ht
    · obtain rfl := List.mem_singleton.mp ht
      exact hs.clean

theorem Settled.of_cons {rooted : Bool} {s : Segment} {kept : List Segment}
    (h : Settled rooted (s :: kept)) : Settled rooted kept := by
  cases h with
  | upward hr hall =>
    subst hr
    exact .of_all_up hall
  | plain _ _ _ h => exact h

theorem Settled.of_append {rooted : Bool} {kept below : List Segment}
    (h : Settled rooted (kept ++ below)) : Settled rooted below := by
  induction kept with
  | nil => exact h
  | cons s kept ih => exact ih h.of_cons

theorem NormalForm.of_append {n : Nat} {front back : List Segment}
    (h : NormalForm n (front ++ back)) : NormalForm n front where
  le := h.le
  settled := by
    have hsettled := h.settled
    rw [List.reverse_append] at hsettled
    exact hsettled.of_append
  clean s hs := h.clean s (List.mem_append_left back hs)

theorem NormalForm.of_prefix {n : Nat} {ss ts : List Segment} (h : NormalForm n ts)
    (hts : ss <+: ts) : NormalForm n ss := by
  obtain ⟨back, rfl⟩ := hts
  exact h.of_append

theorem ofSegments_inj {n : Nat} {ss ts : List Segment} (hs : NormalForm n ss)
    (ht : NormalForm n ts) (h : ofSegments n ss = ofSegments n ts) : ss = ts := by
  rw [← hs.normalSegments_eq, h, ht.normalSegments_eq]

theorem getLast?_join_concat (sep : Char) (ss : List Segment) (s : Segment) (c : Char) :
    (Text.join sep (ss ++ [s ++ [c]])).getLast? = some c := by
  by_cases hss : ss = []
  · subst hss
    simp [Text.join]
  · rw [Text.join_append sep hss (by simp)]
    have hsplit : Text.join sep ss ++ sep :: (s ++ [c]) = Text.join sep ss ++ sep :: s ++ [c] := by
      simp
    rw [Text.join, hsplit, List.getLast?_concat]

theorem isAbsolute_ofSegments {n : Nat} (hn : n ≠ 0) {ss : List Segment} (h : NormalForm n ss) :
    isAbsolute (ofSegments n ss) = true := by
  rw [isAbsolute_iff, h.rootSlashes_eq]
  exact hn

end Path

namespace Location

def slashes (l : Location) : Nat := Path.rootSlashes l.text.toList

theorem slashes_ne_zero (l : Location) : l.slashes ≠ 0 := Nat.pos_iff_ne_zero.mp l.rootSlashes_pos

theorem toList_slashes (l : Location) :
    l.text.toList = List.replicate l.slashes '/' ++ Text.join '/' l.segments := l.toList_text

theorem text_ofBase (base part : String) (h : Path.isAbsolute base = true) :
    (ofBase base part h).text = Path.normal (Path.join base part) := by
  rw [ofBase]

theorem absolute_text (w l : Location) : Path.absolute w.text l.text = l.text := by
  rw [Path.absolute, if_pos l.isAbsolute, l.isNormal]

theorem ofSegments_segments (l : Location) : Path.ofSegments l.slashes l.segments = l.text :=
  l.isNormal

def ofSegments {n : Nat} (hn : n ≠ 0) {ss : List Segment} (h : Path.NormalForm n ss) : Location where
  text := Path.ofSegments n ss
  isAbsolute := Path.isAbsolute_ofSegments hn h
  isNormal := h.normal_ofSegments

theorem slashes_ofSegments {n : Nat} (hn : n ≠ 0) {ss : List Segment} (h : Path.NormalForm n ss) :
    (ofSegments hn h).slashes = n :=
  h.rootSlashes_eq

theorem segments_ofSegments {n : Nat} (hn : n ≠ 0) {ss : List Segment} (h : Path.NormalForm n ss) :
    (ofSegments hn h).segments = ss :=
  h.normalSegments_eq

theorem isName_of_mem_segments (l : Location) {s : Segment} (h : s ∈ l.segments) :
    Path.IsName s where
  ne_nil := l.ne_nil_of_mem_segments h
  ne_here := (l.isOrdinary_of_mem_segments h).1
  ne_up := (l.isOrdinary_of_mem_segments h).2
  clean := l.normalForm.clean s h

def child (l : Location) (s : Segment) (h : Path.IsName s) : Location :=
  ofSegments l.slashes_ne_zero (l.normalForm.concat h)

theorem slashes_child (l : Location) {s : Segment} (h : Path.IsName s) :
    (l.child s h).slashes = l.slashes :=
  slashes_ofSegments ..

theorem segments_child (l : Location) {s : Segment} (h : Path.IsName s) :
    (l.child s h).segments = l.segments ++ [s] :=
  segments_ofSegments ..

theorem text_child (l : Location) {s : Segment} (h : Path.IsName s) :
    (l.child s h).text = Path.ofSegments l.slashes (l.segments ++ [s]) := rfl

theorem toList_ofSegments (l : Location) (ss : List Segment) :
    (Path.ofSegments l.slashes ss).toList =
      List.replicate l.slashes '/' ++ Text.join '/' ss :=
  Path.toList_ofSegments fun h => l.slashes_ne_zero h.1

theorem text_ne_empty (l : Location) : l.text ≠ "" := by
  intro hempty
  have hslashes := l.slashes_ne_zero
  rw [slashes, hempty] at hslashes
  exact hslashes rfl

theorem getLast?_text_iff (l : Location) :
    l.text.toList.getLast? = some '/' ↔ l.segments = [] := by
  constructor
  · intro hlast
    obtain hroot | ⟨front, s, hsegments⟩ := List.eq_nil_or_concat l.segments
    · exact hroot
    · rw [List.concat_eq_append] at hsegments
      have hname : Path.IsName s := l.isName_of_mem_segments (by simp [hsegments])
      obtain ⟨t, c, rfl⟩ : ∃ t c, s = t ++ [c] :=
        ⟨_, _, (List.dropLast_concat_getLast hname.ne_nil).symm⟩
      rw [l.toList_slashes, hsegments, List.getLast?_append, Path.getLast?_join_concat] at hlast
      exact absurd (by simpa using hlast) fun hc : c = '/' => hname.clean (by simp [hc])
  · intro hroot
    obtain ⟨n, hn⟩ := Nat.exists_eq_succ_of_ne_zero l.slashes_ne_zero
    rw [l.toList_slashes, hroot, hn]
    simp [Text.join, List.replicate_succ']

theorem join_root (l : Location) {part : String} (hpart : Path.isAbsolute part = false)
    (hroot : l.segments = []) : Path.join l.text part = l.text ++ part := by
  rw [Path.join, hpart, if_neg (by decide), if_pos (.inr (l.getLast?_text_iff.mpr hroot))]

theorem join_not_root (l : Location) {part : String} (hpart : Path.isAbsolute part = false)
    (hroot : l.segments ≠ []) : Path.join l.text part = l.text ++ "/" ++ part := by
  rw [Path.join, hpart, if_neg (by decide),
    if_neg (by simp [l.text_ne_empty, l.getLast?_text_iff, hroot])]

theorem join_name (l : Location) {name : String} (h : Path.IsName name.toList) :
    Path.join l.text name = (l.child name.toList h).text := by
  have hrelative : Path.isAbsolute name = false := by
    rw [← Bool.not_eq_true]
    intro habsolute
    have hhead : name.toList.head? = some '/' := by simpa [Path.isAbsolute] using habsolute
    exact h.clean (List.mem_of_mem_head? hhead)
  rw [text_child, ← String.toList_inj, toList_ofSegments]
  by_cases hroot : l.segments = []
  · rw [l.join_root hrelative hroot, String.toList_append, l.toList_slashes, hroot]
    simp [Text.join]
  · rw [l.join_not_root hrelative hroot, String.toList_append, String.toList_append,
      l.toList_slashes, Text.join_append '/' hroot (by simp)]
    simp [Text.join]

theorem exists_append (l : Location) {tail : String} {c : Char} (htail : '/' ∉ tail.toList)
    (hc : c ∈ tail.toList) (hdot : c ≠ '.') :
    ∃ l' : Location, l'.text = l.text ++ tail ∧ l'.slashes = l.slashes := by
  have htext := l.toList_slashes
  by_cases hroot : l.segments = []
  · have hname : Path.IsName tail.toList := .append (s := []) (by simp) htail hc hdot
    refine ⟨l.child tail.toList hname, ?_, l.slashes_child hname⟩
    rw [text_child, ← String.toList_inj, toList_ofSegments, String.toList_append, htext, hroot]
    simp [Text.join]
  · obtain ⟨front, s, hsegments⟩ : ∃ front s, l.segments = front ++ [s] :=
      ⟨_, _, (List.dropLast_concat_getLast hroot).symm⟩
    have hclean : '/' ∉ s := (l.isName_of_mem_segments (by simp [hsegments])).clean
    have hfront : Path.NormalForm l.slashes front := by
      have hform : Path.NormalForm l.slashes l.segments := l.normalForm
      rw [hsegments] at hform
      exact hform.of_append
    have hform := hfront.concat (.append hclean htail hc hdot)
    refine ⟨ofSegments l.slashes_ne_zero hform, ?_, hform.rootSlashes_eq⟩
    show Path.ofSegments l.slashes (front ++ [s ++ tail.toList]) = l.text ++ tail
    rw [← String.toList_inj, toList_ofSegments, String.toList_append, htext, hsegments]
    by_cases hfirst : front = []
    · simp [hfirst, Text.join]
    · rw [Text.join_append '/' hfirst (by simp), Text.join_append '/' hfirst (by simp)]
      simp [Text.join]

theorem exists_of_mem_candidates (l : Location) {path : String}
    (h : path ∈ Modules.candidates l.text Modules.Memory.suffix) :
    ∃ l' : Location, l'.text = path ∧ l'.slashes = l.slashes := by
  have hpackage : Path.IsName ("__init__" ++ Modules.Memory.suffix).toList := by decide
  simp only [Modules.candidates, List.mem_cons, List.not_mem_nil, or_false] at h
  obtain rfl | rfl | rfl := h
  · exact ⟨l, rfl, rfl⟩
  · exact l.exists_append (c := 'p') (by decide) (by decide) (by decide)
  · exact ⟨_, (l.join_name hpackage).symm, l.slashes_child hpackage⟩

end Location
end Wiring
