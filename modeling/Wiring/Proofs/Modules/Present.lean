import Wiring.Proofs.Modules.Stored

/-! Which paths are there in memory. Apart from the root, these are the paths of the stored modules
and of the directories above them, told by segments and not by the text. -/
namespace Wiring
open Wiring.Path (Segment)

namespace Path

/-- The second place lies below the first: its segments go on from those of the first. -/
def Below (above below : String) : Prop :=
  normalSegments above.toList <+: normalSegments below.toList ∧
    normalSegments above.toList ≠ normalSegments below.toList

instance (above below : String) : Decidable (Below above below) :=
  inferInstanceAs (Decidable (_ ∧ _))

theorem join_append_sep_prefix_iff {sep : Char} {ss ts : List Segment} (hss : ss ≠ [])
    (hs : ∀ s ∈ ss, sep ∉ s) (ht : ∀ t ∈ ts, sep ∉ t) :
    Text.join sep ss ++ [sep] <+: Text.join sep ts ↔ ss <+: ts ∧ ss ≠ ts := by
  constructor
  · rintro ⟨rest, hrest⟩
    have hjoin : Text.join sep ts = Text.join sep ss ++ sep :: rest := by simp [← hrest]
    have hts : ts ≠ [] := by
      rintro rfl
      simp [Text.join] at hjoin
    have hsplit : ts = ss ++ Text.split sep rest := by
      rw [← split_join hts ht, hjoin, Text.split_append, split_join hss hs]
    refine ⟨⟨_, hsplit.symm⟩, fun heq => Text.split_ne_nil sep rest ?_⟩
    exact List.self_eq_append_right.mp (heq.trans hsplit)
  · rintro ⟨⟨back, rfl⟩, hne⟩
    have hback : back ≠ [] := by
      rintro rfl
      exact hne (List.append_nil ss).symm
    rw [Text.join_append sep hss hback]
    exact ⟨Text.join sep back, by simp⟩

end Path

namespace Location

theorem below_iff (l l' : Location) : Path.Below l.text l'.text ↔
    l.segments <+: l'.segments ∧ l.segments ≠ l'.segments :=
  Iff.rfl

theorem text_append_slash_prefix_iff {l l' : Location} (hroot : l.segments ≠ [])
    (hslashes : l'.slashes = l.slashes) :
    (l.text ++ "/").toList <+: l'.text.toList ↔ Path.Below l.text l'.text := by
  rw [below_iff, ← Path.join_append_sep_prefix_iff hroot l.normalForm.clean l'.normalForm.clean,
    String.toList_append, l.toList_slashes, l'.toList_slashes, hslashes, List.append_assoc]
  exact List.prefix_append_right_inj _

theorem segments_eq_nil_iff {l : Location} (h : l.slashes = 1) : l.segments = [] ↔ l.text = "/" := by
  constructor
  · intro hroot
    rw [l.text_eq_fullPath h, hroot]
    rfl
  · intro hroot
    rw [segments, hroot]
    decide

end Location

namespace Modules.Memory
variable {m : Memory} {modules : List (String × Exports)} {process : List String} {path : String}

theorem exists_location_of_mem_names (h : ∀ e ∈ modules, Path.rootSlashes e.1.toList = 1)
    {stored : String} (hstored : stored ∈ (ofList modules process).modules.names) :
    ∃ l : Location, l.text = stored ∧ l.slashes = 1 := by
  obtain ⟨e, he, rfl⟩ := mem_names_ofList.mp hstored
  exact Location.exists_of_rooted (Path.normal_normal e.1)
    ((Path.rootSlashes_normal e.1).trans (h e he))

theorem not_startsWith_root {l : Location} (h : l.slashes = 1) :
    Text.startsWith l.text ("/" ++ "/") = false := by
  rw [Bool.eq_false_iff, Ne, Text.startsWith_iff]
  intro hbegins
  have htwo : ("/" ++ "/").toList = '/' :: ['/'] := by decide
  rw [htwo, l.toList_slashes, h, List.replicate_one, List.singleton_append,
    List.cons_prefix_cons] at hbegins
  obtain ⟨rest, hrest⟩ := hbegins.2
  exact Path.head?_join l.normalForm.ne_nil l.normalForm.clean (by rw [← hrest]; rfl)

/-- A path other than the root is there exactly where a module is stored at it or below it. The
root is there only where a module is stored at the root itself, whatever is stored below it. -/
theorem present_iff_at_or_below (process : List String)
    (hmodules : ∀ e ∈ modules, Path.rootSlashes e.1.toList = 1)
    (hpath : Path.rootSlashes path.toList = 1) :
    let m := ofList modules process
    (Path.normal path ≠ "/" → (m.present path = true ↔ ∃ stored ∈ m.modules.names,
      stored = Path.normal path ∨ Path.Below (Path.normal path) stored)) ∧
    (Path.normal path = "/" → (m.present path = true ↔ "/" ∈ m.modules.names)) := by
  intro m
  obtain ⟨l, hl, hslashes⟩ := Location.exists_of_rooted (Path.normal_normal path)
    ((Path.rootSlashes_normal path).trans hpath)
  rw [← hl]
  have hthere : m.present path = true ↔ l.text ∈ m.modules.names ∨
      ∃ stored ∈ m.modules.names, Text.startsWith stored (l.text ++ "/") = true := by
    rw [present_iff, ← hl]
  refine ⟨fun hroot => ?_, fun hroot => ?_⟩
  · have hsegments : l.segments ≠ [] := mt (Location.segments_eq_nil_iff hslashes).mp hroot
    have hbelow : ∀ stored ∈ m.modules.names,
        Text.startsWith stored (l.text ++ "/") = true ↔ Path.Below l.text stored := by
      intro stored hstored
      obtain ⟨l', rfl, hslashes'⟩ := exists_location_of_mem_names hmodules hstored
      rw [Text.startsWith_iff]
      exact Location.text_append_slash_prefix_iff hsegments (hslashes'.trans hslashes.symm)
    rw [hthere]
    constructor
    · rintro (hstored | ⟨stored, hstored, hbegins⟩)
      · exact ⟨_, hstored, .inl rfl⟩
      · exact ⟨stored, hstored, .inr ((hbelow stored hstored).mp hbegins)⟩
    · rintro ⟨stored, hstored, rfl | h⟩
      · exact .inl hstored
      · exact .inr ⟨stored, hstored, (hbelow stored hstored).mpr h⟩
  · rw [hthere, hroot]
    refine or_iff_left ?_
    rintro ⟨stored, hstored, hbegins⟩
    obtain ⟨l', rfl, hslashes'⟩ := exists_location_of_mem_names hmodules hstored
    rw [not_startsWith_root hslashes'] at hbegins
    cases hbegins

theorem mail_present :
    let m := ofList [("/app/lib/../mail/x.py", ∅), ("/srv//kit.py", ∅)] []
    m.present "/app/./mail//" = true ∧ m.present "/srv/app/.." = true ∧
      m.present "/app/mai" = false ∧ m.present "/" = false := by
  intro m
  have hthere := @present_iff_at_or_below [("/app/lib/../mail/x.py", ∅), ("/srv//kit.py", ∅)]
  obtain ⟨hmail, -⟩ := @hthere "/app/./mail//" [] (by decide) (by decide)
  obtain ⟨hsrv, -⟩ := @hthere "/srv/app/.." [] (by decide) (by decide)
  obtain ⟨hmai, -⟩ := @hthere "/app/mai" [] (by decide) (by decide)
  obtain ⟨-, hroot⟩ := @hthere "/" [] (by decide) (by decide)
  simp only [← Bool.not_eq_true]
  refine ⟨(hmail ?_).mpr ?_, (hsrv ?_).mpr ?_, mt (hmai ?_).mp ?_, mt (hroot ?_).mp ?_⟩
  all_goals decide +kernel

/-- A module is stored below the root, and the root is not there. -/
theorem root_absent :
    let m := ofList [("/app/mail/x.py", ∅)] []
    m.present "/" = false ∧ ∃ stored ∈ m.modules.names, Path.Below (Path.normal "/") stored := by
  decide +kernel

end Modules.Memory
end Wiring
