import Mathlib.Logic.Relation
import Wiring.Proofs.Path.Named

/-! Places: absolute paths in normal form. The directory of a place is a place, and whatever is seen
from one is a place again. A part leads to the same place in every spelling that differs by blank
segments, by `.` and by detours. -/
namespace Wiring
open Relation
open Wiring.Path (Segment IsName NormalForm)

namespace Path

def IsPlace (p : String) : Prop := isAbsolute p = true ∧ normal p = p

theorem isPlace_normal {p : String} (h : isAbsolute p = true) : IsPlace (normal p) :=
  ⟨by rw [isAbsolute_normal, h], normal_normal p⟩

theorem isPlace_normal_join {base : String} (h : isAbsolute base = true) (part : String) :
    IsPlace (normal (join base part)) :=
  isPlace_normal (isAbsolute_join h part)

theorem isPlace_absolute {workingDir : String} (h : isAbsolute workingDir = true) (p : String) :
    IsPlace (absolute workingDir p) := by
  unfold absolute
  split
  · next hp => exact isPlace_normal hp
  · exact isPlace_normal_join h p

theorem absolute_eq {workingDir : String} (h : isAbsolute workingDir = true) (p : String) :
    absolute workingDir p = normal (join (normal workingDir) p) := by
  unfold absolute
  split
  · next hp => rw [join, if_pos hp]
  · next hp => rw [normal_join_normal h (Bool.eq_false_iff.mpr hp)]

theorem dropWhile_reverse_append {cs s : List Char} (hs : '/' ∉ s) :
    ((cs ++ '/' :: s).reverse.dropWhile (· ≠ '/')).reverse = cs ++ ['/'] := by
  have hall : ∀ c ∈ s.reverse, decide (c ≠ '/') = true := by
    intro c hc
    exact decide_eq_true fun heq => hs (heq ▸ List.mem_reverse.mp hc)
  rw [List.reverse_append, List.reverse_cons, List.append_assoc,
    List.dropWhile_append_of_pos hall, List.singleton_append, List.dropWhile_cons_of_neg (by simp),
    List.reverse_cons, List.reverse_reverse]

theorem directory_of_concat {cs s : List Char} {c : Char} (hc : c ≠ '/') (hs : '/' ∉ s) :
    directory (String.ofList (cs ++ [c] ++ '/' :: s)) = String.ofList (cs ++ [c]) := by
  have hall : ¬ (cs ++ [c] ++ ['/']).all (· = '/') = true := by simp [hc]
  unfold directory
  simp only [String.toList_ofList]
  rw [dropWhile_reverse_append hs, if_neg hall, List.reverse_append, List.reverse_append]
  simp [hc]

theorem directory_of_root {n : Nat} {s : List Char} (hn : n ≠ 0) (hs : '/' ∉ s) :
    directory (String.ofList (List.replicate n '/' ++ s)) =
      String.ofList (List.replicate n '/') := by
  obtain ⟨k, rfl⟩ := Nat.exists_eq_succ_of_ne_zero hn
  have hroot : List.replicate (k + 1) '/' ++ s = List.replicate k '/' ++ '/' :: s := by
    rw [List.replicate_succ', List.append_assoc, List.singleton_append]
  have hall : (List.replicate k '/' ++ ['/']).all (· = '/') = true := by simp
  unfold directory
  simp only [String.toList_ofList]
  rw [hroot, dropWhile_reverse_append hs, if_pos hall, List.replicate_succ']

theorem exists_concat_of_names {n : Nat} {ss : List Segment} (hss : ss ≠ [])
    (h : ∀ s ∈ ss, IsName s) :
    ∃ cs c, List.replicate n '/' ++ Text.join '/' ss = cs ++ [c] ∧ c ≠ '/' := by
  obtain ⟨front, s, rfl⟩ : ∃ front s, ss = front ++ [s] :=
    ⟨_, _, (List.dropLast_concat_getLast hss).symm⟩
  have hs : IsName s := h s (by simp)
  obtain ⟨t, c, rfl⟩ : ∃ t c, s = t ++ [c] :=
    ⟨_, _, (List.dropLast_concat_getLast hs.ne_nil).symm⟩
  have hlast : (List.replicate n '/' ++ Text.join '/' (front ++ [t ++ [c]])).getLast? = some c := by
    rw [List.getLast?_append, getLast?_join_concat, Option.some_or]
  obtain ⟨cs, hcs⟩ := List.getLast?_eq_some_iff.mp hlast
  exact ⟨cs, c, hcs, fun heq => hs.clean (by simp [heq])⟩

end Path

theorem Location.directory_text (l : Location) :
    Path.directory l.text = Path.ofSegments l.slashes l.segments.dropLast := by
  rw [← String.toList_inj, l.toList_ofSegments, ← l.text.ofList_toList, l.toList_slashes]
  obtain hroot | ⟨ss, s, hsegments⟩ := List.eq_nil_or_concat l.segments
  · rw [hroot, Text.join, Path.directory_of_root l.slashes_ne_zero List.not_mem_nil,
      String.toList_ofList, List.dropLast_nil, Text.join, List.append_nil]
  · rw [List.concat_eq_append] at hsegments
    have hs : IsName s := l.isName_of_mem_segments (by simp [hsegments])
    have hlast : Text.join '/' [s] = s := rfl
    rw [hsegments, List.dropLast_concat]
    by_cases hss : ss = []
    · rw [hss, List.nil_append, hlast, Path.directory_of_root l.slashes_ne_zero hs.clean,
        String.toList_ofList, Text.join, List.append_nil]
    · have hnames : ∀ t ∈ ss, IsName t := fun t ht =>
        l.isName_of_mem_segments (by simp [hsegments, ht])
      obtain ⟨cs, c, hcs, hc⟩ := Path.exists_concat_of_names (n := l.slashes) hss hnames
      rw [Text.join_append '/' hss (by simp), hlast, ← List.append_assoc, hcs,
        Path.directory_of_concat hc hs.clean, String.toList_ofList]

namespace Path

theorem IsPlace.directory {p : String} (h : IsPlace p) : IsPlace (directory p) := by
  refine ⟨isAbsolute_directory h.1, ?_⟩
  let l : Location := ⟨p, h.1, h.2⟩
  have hform : NormalForm l.slashes l.segments.dropLast :=
    l.normalForm.of_prefix (List.dropLast_prefix _)
  have hdirectory : Path.directory p = ofSegments l.slashes l.segments.dropLast := l.directory_text
  rw [hdirectory, hform.normal_ofSegments]

/-- Two spellings of segments, of which the second leaves out a blank one, a `.` or a detour through
a name. -/
inductive Detour : List Segment → List Segment → Prop
  | blank (before after : List Segment) : Detour (before ++ [] :: after) (before ++ after)
  | here (before after : List Segment) : Detour (before ++ here :: after) (before ++ after)
  | back {s : Segment} (h : IsName s) (before after : List Segment) :
      Detour (before ++ s :: up :: after) (before ++ after)

theorem Detour.foldl_climb {ss ts : List Segment} (h : Detour ss ts) (rooted : Bool)
    (kept : List Segment) : ss.foldl (climb rooted) kept = ts.foldl (climb rooted) kept := by
  cases h with
  | blank before after =>
    rw [List.foldl_append, List.foldl_append, List.foldl_cons, climb_blank (.inl rfl)]
  | here before after =>
    rw [List.foldl_append, List.foldl_append, List.foldl_cons, climb_blank (.inr rfl)]
  | @back s hs before after =>
    have hblank : ¬ (s = [] ∨ s = Path.here) := fun h => h.elim hs.ne_nil hs.ne_here
    have hback : ∀ below : List Segment, climb rooted (s :: below) up = below :=
      fun below => if_neg hs.ne_up
    rw [List.foldl_append, List.foldl_append, List.foldl_cons, List.foldl_cons,
      climb_name hblank hs.ne_up, hback]

theorem foldl_climb_of_eqvGen {ss ts : List Segment} (h : EqvGen Detour ss ts) (rooted : Bool)
    (kept : List Segment) : ss.foldl (climb rooted) kept = ts.foldl (climb rooted) kept := by
  induction h with
  | rel ss ts h => exact h.foldl_climb rooted kept
  | refl ss => rfl
  | symm ss ts _ ih => exact ih.symm
  | trans ss ts us _ _ ih ih' => exact ih.trans ih'

/-- Two paths of one root (none, `/` or `//`) that differ by blank segments, by `.` and by detours
through a name. -/
structure Respelled (p q : String) : Prop where
  root : rootSlashes p.toList = rootSlashes q.toList
  segments : EqvGen Detour (Text.split '/' p.toList) (Text.split '/' q.toList)

theorem Respelled.normal_eq {p q : String} (h : Respelled p q) : normal p = normal q := by
  rw [normal, normal, normalSegments, normalSegments, h.root, foldl_climb_of_eqvGen h.segments]

theorem Respelled.isAbsolute_eq {p q : String} (h : Respelled p q) :
    isAbsolute p = isAbsolute q := by
  rw [Bool.eq_iff_iff, isAbsolute_iff, isAbsolute_iff, h.root]

/-- Seen from an absolute path, every spelling leads to the same place. -/
theorem Respelled.normal_join {p q : String} (h : Respelled p q) {base : String}
    (hbase : isAbsolute base = true) : normal (join base p) = normal (join base q) := by
  cases hp : isAbsolute p with
  | true =>
    have hq : isAbsolute q = true := h.isAbsolute_eq ▸ hp
    rw [join, join, if_pos hp, if_pos hq, h.normal_eq]
  | false =>
    have hq : isAbsolute q = false := h.isAbsolute_eq ▸ hp
    rw [normal, normal, rootSlashes_join hbase hp, rootSlashes_join hbase hq,
      normalSegments_join hbase hp, normalSegments_join hbase hq,
      foldl_climb_of_eqvGen h.segments]

end Path
end Wiring
