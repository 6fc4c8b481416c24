import Wiring.Disk

/-! Locations as places on a disk: a path that leads somewhere ends at the place that its absolute
form spells, and a location at its own segments. -/
namespace Wiring
open Wiring.Path (Segment)

namespace Disk

theorem follow_eq_climb {d : Disk} {place ss p : List Segment} (hplace : ∀ s ∈ place, s ≠ Path.up)
    (h : d.follow place ss = .ok p) : p = (ss.foldl (Path.climb true) place.reverse).reverse := by
  induction ss generalizing place with
  | nil =>
    cases h
    simp
  | cons s ss ih =>
    unfold follow at h
    split at h
    · cases h
    · cases h
    · rw [List.foldl_cons]
      by_cases hblank : s = [] ∨ s = Path.here
      · rw [if_pos hblank] at h
        rw [ih hplace h, Path.climb_blank hblank]
      · rw [if_neg hblank] at h
        by_cases hup : s = Path.up
        · rw [if_pos hup] at h
          have hkept : ∀ s ∈ place.reverse, s ≠ Path.up :=
            fun s hs => hplace s (List.mem_reverse.mp hs)
          rw [ih (fun s hs => hplace s (List.dropLast_subset place hs)) h, hup,
            Path.climb_up hkept, List.tail_reverse]
        · rw [if_neg hup] at h
          have hkept : ∀ t ∈ place ++ [s], t ≠ Path.up := by
            intro t ht
            obtain ht | ht := List.mem_append.mp ht
            · exact hplace t ht
            · exact List.mem_singleton.mp ht ▸ hup
          rw [ih hkept h, Path.climb_name hblank hup, List.reverse_concat]

end Disk

namespace Location

def segments (l : Location) : List Segment := Disk.segmentsOf l.text

theorem normalForm (l : Location) : Path.NormalForm (Path.rootSlashes l.text.toList) l.segments :=
  Path.normalForm_normalSegments _

theorem rootSlashes_pos (l : Location) : 0 < Path.rootSlashes l.text.toList :=
  Nat.pos_of_ne_zero ((Path.isAbsolute_iff _).1 l.isAbsolute)

theorem toList_text (l : Location) : l.text.toList =
    List.replicate (Path.rootSlashes l.text.toList) '/' ++ Text.join '/' l.segments := by
  have hnormal : Path.ofSegments (Path.rootSlashes l.text.toList) l.segments = l.text := l.isNormal
  rw [← Path.toList_ofSegments fun h => Nat.pos_iff_ne_zero.mp l.rootSlashes_pos h.1, hnormal]

theorem ne_nil_of_mem_segments (l : Location) {s : Segment} (h : s ∈ l.segments) : s ≠ [] :=
  l.normalForm.settled.ne_nil s (List.mem_reverse.2 h)

theorem isOrdinary_of_settled {rooted : Bool} {kept : List Segment}
    (h : Path.Settled rooted kept) (hr : rooted = true) {s : Segment} (hs : s ∈ kept) :
    s ≠ Path.here ∧ s ≠ Path.up := by
  induction h with
  | nil => simp at hs
  | upward hf _ => rw [hf] at hr; cases hr
  | plain _ hh hu _ ih =>
    rcases List.mem_cons.1 hs with rfl | hs
    · exact ⟨hh, hu⟩
    · exact ih hs

theorem isOrdinary_of_mem_segments (l : Location) {s : Segment} (h : s ∈ l.segments) :
    s ≠ Path.here ∧ s ≠ Path.up := by
  have hsettled := l.normalForm.settled
  have hrooted : (Path.rootSlashes l.text.toList != 0) = true := by
    have := l.rootSlashes_pos
    simp; omega
  exact isOrdinary_of_settled hsettled hrooted (List.mem_reverse.2 h)

theorem split_text (l : Location) : ∃ n, Text.split '/' l.text.toList =
    List.replicate (Path.rootSlashes l.text.toList) [] ++ l.segments ++ List.replicate n [] := by
  rw [l.toList_text, Path.split_replicate_append, ← l.toList_text]
  by_cases h : l.segments = []
  · exact ⟨1, by simp [h, Text.join, Text.split]⟩
  · exact ⟨0, by rw [Path.split_join h l.normalForm.clean]; simp⟩

/-- Where a path leads to a place, this is the place that its absolute form spells. -/
theorem placeOf_eq_ok {d : Disk} {w : Location} {path : String} {place : List Segment}
    (h : d.placeOf w path = .ok place) :
    place = Disk.segmentsOf (Path.absolute w.text path) := by
  rw [Disk.placeOf] at h
  split at h
  · cases h
  rw [Disk.segmentsOf, Path.absolute, Path.normalSegments_normal]
  by_cases habsolute : Path.isAbsolute path = true
  · rw [if_pos habsolute] at h
    have hrooted : (Path.rootSlashes path.toList != 0) = true := by
      rw [bne_iff_ne]
      exact (Path.isAbsolute_iff path).mp habsolute
    rw [if_pos habsolute, Disk.follow_eq_climb (by simp) h, Path.normalSegments, hrooted]
    rfl
  · rw [if_neg habsolute] at h
    have hplace : ∀ s ∈ Disk.segmentsOf w.text, s ≠ Path.up :=
      fun s hs => (w.isOrdinary_of_mem_segments hs).2
    rw [if_neg habsolute, Path.normalSegments_join w.isAbsolute (Bool.not_eq_true _ ▸ habsolute)]
    exact Disk.follow_eq_climb hplace h

theorem placeOf_text {d : Disk} {w l : Location} {p : List Segment}
    (h : d.placeOf w l.text = .ok p) : p = l.segments := by
  rw [placeOf_eq_ok h, Path.absolute, if_pos l.isAbsolute, l.isNormal]
  rfl

theorem mem_names_of_openFile {d : Disk} {w l : Location} {c : Content}
    (h : d.openFile w l.text = .ok c) : Disk.fullPath l.segments ∈ d.files.names := by
  unfold Disk.openFile Disk.look at h
  cases hp : d.placeOf w l.text with
  | error f => simp [hp] at h
  | ok place =>
    have hplace := placeOf_text hp
    subst hplace
    cases hc : d.files.get? (Disk.fullPath l.segments) with
    | some c => exact Table.mem_names_of_get? hc
    | none =>
      simp only [hp, Disk.entry?, hc] at h
      by_cases hd : d.hasDirectory l.segments = true <;> simp [hd] at h

theorem text_eq (l : Location) :
    l.text = Disk.fullPath l.segments ∨ l.text = "/" ++ Disk.fullPath l.segments := by
  have hpos := l.rootSlashes_pos
  have hle := Path.rootSlashes_le l.text.toList
  have htext := l.toList_text
  have hfull : (Disk.fullPath l.segments).toList = '/' :: Text.join '/' l.segments := by
    simp [Disk.fullPath, Path.ofSegments, List.replicate]
  by_cases h : Path.rootSlashes l.text.toList = 1
  · rw [h] at htext
    exact .inl (String.toList_inj.1 (by rw [htext, hfull]; rfl))
  · have h2 : Path.rootSlashes l.text.toList = 2 := by omega
    rw [h2] at htext
    exact .inr (String.toList_inj.1 (by rw [htext, String.toList_append, hfull]; rfl))

end Location
end Wiring
