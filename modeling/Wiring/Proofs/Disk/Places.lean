import Wiring.Proofs.Path.Names

/-! What paths find on a disk. What is found stands at the place of the absolute form of a path, and
a location finds it wherever what is above is a directory. -/
namespace Wiring
open Wiring.Path (Segment)

namespace Disk
variable {d : Disk} {w : Location}

theorem entry?_of_look {path : String} {e : Entry} (h : d.look w path = .ok e) :
    d.entry? (segmentsOf (Path.absolute w.text path)) = some e := by
  unfold look at h
  cases hplace : d.placeOf w path with
  | error f => simp [hplace] at h
  | ok place =>
    rw [← Location.placeOf_eq_ok hplace]
    simp only [hplace] at h
    split at h
    · next found hfound =>
      cases h
      exact hfound
    · cases h

theorem follow_replicate {place : List Segment} (hplace : d.entry? place = some .directory)
    (n : Nat) (ss : List Segment) :
    d.follow place (List.replicate n [] ++ ss) = d.follow place ss := by
  induction n with
  | zero => rfl
  | succ n ih =>
    rw [List.replicate_succ, List.cons_append, follow, hplace]
    exact ih

/-- Whatever is there stands in directories only. -/
structure Nested (d : Disk) : Prop where
  root : d.entry? [] = some .directory
  above : ∀ place rest, rest ≠ [] → (∀ s ∈ place ++ rest, Path.IsName s) →
    d.entry? (place ++ rest) ≠ none → d.entry? place = some .directory

theorem Nested.missing (h : d.Nested) {place rest : List Segment} (hne : rest ≠ [])
    (hnames : ∀ s ∈ place ++ rest, Path.IsName s) (hplace : d.entry? place ≠ some .directory) :
    d.entry? (place ++ rest) = none :=
  Classical.byContradiction fun hthere => hplace (h.above place rest hne hnames hthere)

theorem Nested.follow_names (h : d.Nested) {place ss : List Segment}
    (hnames : ∀ s ∈ place ++ ss, Path.IsName s) :
    (d.follow place ss).toOption.bind d.entry? = d.entry? (place ++ ss) := by
  induction ss generalizing place with
  | nil => simp [follow, Except.toOption]
  | cons s ss ih =>
    have hs : Path.IsName s := hnames s (by simp)
    have hdown : place ++ s :: ss = place ++ [s] ++ ss := by simp
    have hmissing := h.missing (List.cons_ne_nil s ss) hnames
    cases hplace : d.entry? place with
    | none =>
      rw [hmissing (by simp [hplace])]
      simp [follow, hplace, Except.toOption]
    | some e =>
      cases e with
      | file c =>
        rw [hmissing (by simp [hplace])]
        simp [follow, hplace, Except.toOption]
      | directory =>
        rw [follow, hplace]
        simp only [hs.ne_nil, hs.ne_here, hs.ne_up, or_self, if_false]
        rw [hdown]
        exact ih (by rwa [← hdown])

theorem Nested.look_text (h : d.Nested) (l : Location) :
    (d.look w l.text).toOption = d.entry? l.segments := by
  have hne : l.text ≠ "" := by
    intro hempty
    have habsolute := l.isAbsolute
    rw [hempty] at habsolute
    cases habsolute
  have hfollow : d.follow [] (Text.split '/' l.text.toList) = d.follow [] l.segments := by
    rw [l.toList_text, Path.split_replicate_append, follow_replicate h.root]
    by_cases hroot : l.segments = []
    · rw [hroot]
      exact follow_replicate h.root 1 []
    · rw [Path.split_join hroot l.normalForm.clean]
  have hnames : ∀ s ∈ [] ++ l.segments, Path.IsName s := fun s hs => l.isName_of_mem_segments hs
  have hentry := h.follow_names hnames
  rw [List.nil_append] at hentry
  rw [← hentry, look, placeOf, if_neg hne, if_pos l.isAbsolute, hfollow]
  cases d.follow [] l.segments with
  | error f => rfl
  | ok place =>
    show _ = d.entry? place
    cases hplace : d.entry? place with
    | none => simp [hplace, Except.toOption]
    | some e => simp [hplace, Except.toOption]

theorem Nested.look_eq_ok_iff (h : d.Nested) {l : Location} {e : Entry} :
    d.look w l.text = .ok e ↔ d.entry? l.segments = some e := by
  rw [← h.look_text (w := w) l]
  cases d.look w l.text with
  | error f => simp [Except.toOption]
  | ok found => simp [Except.toOption]

end Disk
end Wiring
