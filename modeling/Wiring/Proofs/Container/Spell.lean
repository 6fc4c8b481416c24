import Mathlib.Data.List.Induction
import Wiring.Table

/-! The order of the names in a table that names come into and go out of. A name stands where its
present spell in the table began: to put it again moves nothing, to drop it ends the spell. -/
namespace Wiring

/-- What happens to the names of a table. -/
inductive Turn where
  | put (name : String)
  | drop (name : String)
  | reset
  | keep

namespace Turn

def apply (names : List String) : Turn → List String
  | .put name => if name ∈ names then names else names ++ [name]
  | .drop name => names.filter (· ≠ name)
  | .reset => []
  | .keep => names

def Ends (name : String) : Turn → Prop
  | .drop other => other = name
  | .reset => True
  | .put _ | .keep => False

/-- Whenever the name was put, a later turn ended its spell. -/
def Ended (turns : List Turn) (name : String) : Prop :=
  ∀ early late, turns = early ++ .put name :: late → ∃ turn ∈ late, turn.Ends name

/-- The spell of a name that lasts to the end of the turns begins at a place: the name is put
there, after the end of all its earlier spells, and no later turn takes it away. -/
def BeginsSpell (turns : List Turn) (name : String) (place : Nat) : Prop :=
  ∃ before after, turns = before ++ .put name :: after ∧ before.length = place ∧
    Ended before name ∧ ∀ turn ∈ after, ¬ turn.Ends name

variable {turns : List Turn} {turn : Turn} {name : String}

theorem split_concat {other : Turn} {early late : List Turn}
    (h : turns ++ [turn] = early ++ other :: late) :
    turn = other ∨ ∃ later, late = later ++ [turn] ∧ turns = early ++ other :: later := by
  obtain rfl | ⟨later, last, rfl⟩ := List.eq_nil_or_concat late
  · exact .inl (List.singleton_inj.mp (List.append_inj_right' h rfl))
  · rw [List.concat_eq_append, ← List.cons_append, ← List.append_assoc] at h
    obtain ⟨hturns, hlast⟩ := List.append_inj' h rfl
    cases List.singleton_inj.mp hlast
    exact .inr ⟨later, List.concat_eq_append .., hturns⟩

theorem ended_nil (name : String) : Ended [] name := by
  intro early late h
  simp at h

theorem Ended.concat (h : Ended turns name) (hturn : turn ≠ .put name) :
    Ended (turns ++ [turn]) name := by
  intro early late hsplit
  obtain hput | ⟨later, rfl, hturns⟩ := split_concat hsplit
  · exact absurd hput hturn
  · obtain ⟨ending, hmem, hends⟩ := h early later hturns
    exact ⟨ending, List.mem_append_left _ hmem, hends⟩

theorem ended_concat (h : turn.Ends name) : Ended (turns ++ [turn]) name := by
  intro early late hsplit
  obtain rfl | ⟨later, rfl, -⟩ := split_concat hsplit
  · exact h.elim
  · exact ⟨turn, by simp, h⟩

theorem BeginsSpell.concat {place : Nat} (h : BeginsSpell turns name place)
    (hturn : ¬ turn.Ends name) : BeginsSpell (turns ++ [turn]) name place := by
  obtain ⟨before, after, rfl, hplace, hended, hlasts⟩ := h
  refine ⟨before, after ++ [turn], by simp, hplace, hended, fun other hother => ?_⟩
  obtain hother | hother := List.mem_append.mp hother
  · exact hlasts other hother
  · rwa [List.mem_singleton.mp hother]

theorem BeginsSpell.place_lt {place : Nat} (h : BeginsSpell turns name place) :
    place < turns.length := by
  obtain ⟨before, after, rfl, rfl, -⟩ := h
  simp

theorem Ended.beginsSpell (h : Ended turns name) :
    BeginsSpell (turns ++ [.put name]) name turns.length :=
  ⟨turns, [], rfl, rfl, h, by simp⟩

theorem BeginsSpell.not_ended {place : Nat} (h : BeginsSpell turns name place) :
    ¬ Ended turns name := by
  obtain ⟨before, after, rfl, -, -, hlasts⟩ := h
  intro hended
  obtain ⟨turn, hturn, hends⟩ := hended before after rfl
  exact hlasts turn hturn hends

theorem BeginsSpell.unique {m n : Nat} (hm : BeginsSpell turns name m)
    (hn : BeginsSpell turns name n) : m = n := by
  obtain ⟨before, after, rfl, rfl, hended, hlasts⟩ := hm
  obtain ⟨before', after', hsplit, rfl, hended', hlasts'⟩ := hn
  -- the earlier of two beginnings would lie before a later end, which it outlasts
  obtain ⟨gap, rfl, hgap⟩ | ⟨gap, rfl, hgap⟩ := List.append_eq_append_iff.mp hsplit
  · cases gap with
    | nil => rw [List.append_nil]
    | cons turn gap =>
      obtain ⟨rfl, rfl⟩ := List.cons.inj hgap
      obtain ⟨ending, hmem, hends⟩ := hended' before gap rfl
      exact absurd hends (hlasts ending (List.mem_append_left _ hmem))
  · cases gap with
    | nil => rw [List.append_nil]
    | cons turn gap =>
      obtain ⟨rfl, rfl⟩ := List.cons.inj hgap
      obtain ⟨ending, hmem, hends⟩ := hended before' gap rfl
      exact absurd hends (hlasts' ending (List.mem_append_left _ hmem))

def BeginsBefore (turns : List Turn) (a b : String) : Prop :=
  ∃ m n, m < n ∧ BeginsSpell turns a m ∧ BeginsSpell turns b n

theorem pairwise_concat {names : List String} (h : names.Pairwise (BeginsBefore turns))
    (hturn : ∀ name ∈ names, ¬ turn.Ends name) :
    names.Pairwise (BeginsBefore (turns ++ [turn])) := by
  refine h.imp_of_mem fun ha hb hspells => ?_
  obtain ⟨m, n, hlt, hm, hn⟩ := hspells
  exact ⟨m, n, hlt, hm.concat (hturn _ ha), hn.concat (hturn _ hb)⟩

/-- The names that are left by turns, while more turns are to come. -/
structure Tracks (turns : List Turn) (names : List String) : Prop where
  begins : ∀ name ∈ names, ∃ place, BeginsSpell turns name place
  ended : ∀ name, name ∉ names → Ended turns name
  sorted : names.Pairwise (BeginsBefore turns)

theorem Tracks.begins_concat {names : List String} (h : Tracks turns names)
    (hname : name ∈ names) (hturn : ¬ turn.Ends name) :
    ∃ place, BeginsSpell (turns ++ [turn]) name place := by
  obtain ⟨place, hbegins⟩ := h.begins name hname
  exact ⟨place, hbegins.concat hturn⟩

theorem Tracks.nil : Tracks [] [] := ⟨by simp, fun name _ => ended_nil name, .nil⟩

theorem Tracks.put {names : List String} (h : Tracks turns names) (name : String) :
    Tracks (turns ++ [.put name]) (apply names (.put name)) := by
  have hkept := @pairwise_concat turns (.put name) names h.sorted fun _ _ => id
  by_cases hname : name ∈ names
  · rw [apply, if_pos hname]
    refine ⟨fun other hother => h.begins_concat hother id, fun other hother => ?_, hkept⟩
    refine (h.ended other hother).concat fun hput => ?_
    cases hput
    exact hother hname
  · have hnew := (h.ended name hname).beginsSpell
    rw [apply, if_neg hname]
    refine ⟨fun other hother => ?_, fun other hother => ?_, ?_⟩
    · obtain hother | hother := List.mem_append.mp hother
      · exact h.begins_concat hother id
      · rw [List.mem_singleton.mp hother]
        exact ⟨_, hnew⟩
    · rw [List.mem_append, not_or, List.mem_singleton] at hother
      refine (h.ended other hother.1).concat fun hput => ?_
      cases hput
      exact hother.2 rfl
    · refine List.pairwise_append.mpr ⟨hkept, List.pairwise_singleton .., fun a ha b hb => ?_⟩
      rw [List.mem_singleton.mp hb]
      obtain ⟨place, hbegins⟩ := h.begins a ha
      exact ⟨place, turns.length, hbegins.place_lt, hbegins.concat id, hnew⟩

theorem Tracks.drop {names : List String} (h : Tracks turns names) (name : String) :
    Tracks (turns ++ [.drop name]) (apply names (.drop name)) := by
  have hother : ∀ other ∈ names.filter (· ≠ name), other ∈ names ∧ ¬ name = other := by
    intro other hmem
    obtain ⟨hmem, hne⟩ := List.mem_filter.mp hmem
    exact ⟨hmem, fun heq => of_decide_eq_true hne heq.symm⟩
  refine ⟨fun other hmem => ?_, fun other hmem => ?_, ?_⟩
  · exact h.begins_concat (hother other hmem).1 (hother other hmem).2
  · by_cases heq : name = other
    · exact ended_concat heq
    · have hnot : other ∉ names := fun hin =>
        hmem (List.mem_filter.mpr ⟨hin, decide_eq_true fun h => heq h.symm⟩)
      exact (h.ended other hnot).concat nofun
  · exact pairwise_concat (h.sorted.filter _) fun other hmem => (hother other hmem).2

theorem Tracks.concat {names : List String} (h : Tracks turns names) (turn : Turn) :
    Tracks (turns ++ [turn]) (turn.apply names) := by
  cases turn with
  | put name => exact h.put name
  | drop name => exact h.drop name
  | reset => exact ⟨by simp [apply], fun name _ => ended_concat trivial, .nil⟩
  | keep =>
    exact ⟨fun name hname => h.begins_concat hname id,
      fun name hname => (h.ended name hname).concat nofun, pairwise_concat h.sorted fun _ _ => id⟩

theorem tracks_foldl (turns : List Turn) : Tracks turns (turns.foldl apply []) := by
  induction turns using List.reverseRecOn with
  | nil => exact .nil
  | append_singleton turns turn ih =>
    rw [List.foldl_append]
    exact ih.concat turn

/-- The names in the table after some turns, in the order in which their spells began. -/
structure Enumerates (turns : List Turn) (names : List String) : Prop where
  mem_iff : ∀ name, name ∈ names ↔ ∃ place, BeginsSpell turns name place
  sorted : names.Pairwise fun a b =>
    ∀ m n, BeginsSpell turns a m → BeginsSpell turns b n → m < n

theorem enumerates_foldl (turns : List Turn) : Enumerates turns (turns.foldl apply []) := by
  have h := tracks_foldl turns
  refine ⟨fun name => ⟨h.begins name, fun ⟨place, hbegins⟩ => ?_⟩, ?_⟩
  · by_cases hname : name ∈ turns.foldl apply []
    · exact hname
    · exact absurd (h.ended name hname) hbegins.not_ended
  · refine h.sorted.imp fun hspells m n hm hn => ?_
    obtain ⟨m', n', hlt, hm', hn'⟩ := hspells
    rwa [hm.unique hm', hn.unique hn']

end Turn
end Wiring
