import Mathlib.Data.List.Chain
import Mathlib.Data.List.Perm.Subperm
import Mathlib.Logic.Relation
import Wiring.Proofs.Container.History

/-! Following aliases. From every id they lead one way, which ends at an id that is no alias or
comes back to one of its own; only in the first case can there be a definition at its end. -/
namespace Wiring
open Relation

namespace Container

def Points (c : Container) (a b : String) : Prop := c.aliases.get? a = some b

/-- The aliases that are followed from an id, no one of them twice, and the id after the last. -/
structure Follows (c : Container) (id : String) (way : List String) (last : String) : Prop where
  head : (way ++ [last]).head? = some id
  points : (way ++ [last]).IsChain c.Points
  nodup : way.Nodup

/-- Following aliases for some turns, where `beyond` stands for what comes after them. -/
def followWithin (c : Container) (beyond : List String → String → String) :
    Nat → List String → String → String
  | 0, seen, id => beyond seen id
  | n + 1, seen, id =>
    match c.aliases.get? id with
    | none => id
    | some target => if id ∈ seen then id else followWithin c beyond n (id :: seen) target

variable {c : Container} {id : String} {way : List String} {last : String}

/-! The way from an id. -/

theorem points_rightUnique : Relator.RightUnique c.Points := by
  intro a b b' h h'
  exact Option.some.inj (h.symm.trans h')

theorem Follows.here (id : String) : c.Follows id [] id := ⟨rfl, .singleton _, .nil⟩

theorem Follows.cons {next : String} (hpoints : c.Points id next) (h : c.Follows next way last)
    (hnew : id ∉ way) : c.Follows id (id :: way) last := by
  refine ⟨rfl, List.IsChain.cons h.points fun b hb => ?_, List.nodup_cons.mpr ⟨hnew, h.nodup⟩⟩
  obtain rfl : next = b := Option.some.inj (h.head.symm.trans hb)
  exact hpoints

theorem Follows.exists_of_cons {a : String} (h : c.Follows id (a :: way) last) :
    a = id ∧ ∃ next, c.Points id next ∧ c.Follows next way last ∧ id ∉ way := by
  obtain ⟨hhead, hpoints, hnodup⟩ := h
  obtain rfl : a = id := Option.some.inj hhead
  obtain ⟨hnew, hnodup⟩ := List.nodup_cons.mp hnodup
  cases hrest : way ++ [last] with
  | nil => simp at hrest
  | cons next rest =>
    rw [List.cons_append, hrest] at hpoints
    have hnext : c.Points a next := hpoints.rel
    exact ⟨rfl, next, hnext, ⟨by rw [hrest]; rfl, by rw [hrest]; exact hpoints.tail, hnodup⟩, hnew⟩

theorem Follows.reaches (h : c.Follows id way last) : ReflTransGen c.Points id last := by
  induction way generalizing id with
  | nil =>
    obtain rfl : last = id := Option.some.inj h.head
    exact .refl
  | cons a way ih =>
    obtain ⟨rfl, next, hpoints, hrest, -⟩ := h.exists_of_cons
    exact .head hpoints (ih hrest)

theorem Follows.length_le (h : c.Follows id way last) : way.length ≤ c.aliases.size := by
  have hnames : way ⊆ c.aliases.names := by
    intro a ha
    induction way generalizing id with
    | nil => simp at ha
    | cons b way ih =>
      obtain ⟨rfl, next, hpoints, hrest, -⟩ := h.exists_of_cons
      obtain rfl | ha := List.mem_cons.mp ha
      · exact Table.mem_names_of_get? hpoints
      · exact ih hrest ha
  have hle := (h.nodup.subperm hnames).length_le
  rwa [Table.names, List.length_map] at hle

/-! Following a way step by step. What was seen counts as part of the way. -/

theorem follow_of_points {seen : List String} {target : String} (h : c.Points id target)
    (hnew : id ∉ seen) : follow c.aliases seen id = follow c.aliases (id :: seen) target := by
  have hpoints : c.aliases.get? id = some target := h
  have hname := Table.mem_names_of_get? hpoints
  rw [follow, hpoints]
  simp only [dif_pos (And.intro hname hnew)]

theorem follow_of_ended {seen : List String} (h : c.aliases.get? id = none ∨ id ∈ seen) :
    follow c.aliases seen id = id := by
  unfold follow
  split
  · rfl
  · next target hpoints =>
    have hseen : id ∈ seen := h.resolve_left fun hnone => by rw [hpoints] at hnone; cases hnone
    exact dif_neg fun hnew => hnew.2 hseen

theorem exists_follows_of_follow (seen : List String) (id : String) :
    ∃ way, c.Follows id way (follow c.aliases seen id) ∧ (∀ a ∈ way, a ∉ seen) ∧
      (c.aliases.get? (follow c.aliases seen id) = none ∨
        follow c.aliases seen id ∈ way ∨ follow c.aliases seen id ∈ seen) := by
  fun_induction follow c.aliases seen id with
  | case1 seen id hnone => exact ⟨[], .here id, by simp, .inl hnone⟩
  | case2 seen id target hpoints h _ ih =>
    obtain ⟨way, hfollows, hnew, hends⟩ := ih
    have hid : id ∉ way := fun hmem => hnew id hmem (List.mem_cons_self ..)
    refine ⟨id :: way, hfollows.cons hpoints hid, fun a ha => ?_, ?_⟩
    · obtain rfl | ha := List.mem_cons.mp ha
      · exact h.2
      · exact fun hmem => hnew a ha (List.mem_cons_of_mem _ hmem)
    · simpa [or_left_comm, or_assoc] using hends
  | case3 seen id target hpoints h =>
    have hname := Table.mem_names_of_get? hpoints
    have hseen : id ∈ seen := by
      by_cases hid : id ∈ seen
      · exact hid
      · exact absurd ⟨hname, hid⟩ h
    exact ⟨[], .here id, by simp, .inr (.inr hseen)⟩

theorem follow_of_follows {seen : List String} (h : c.Follows id way last)
    (hnew : ∀ a ∈ way, a ∉ seen)
    (hends : c.aliases.get? last = none ∨ last ∈ way ∨ last ∈ seen) :
    follow c.aliases seen id = last := by
  induction way generalizing id seen with
  | nil =>
    obtain rfl : last = id := Option.some.inj h.head
    exact follow_of_ended (by simpa using hends)
  | cons a way ih =>
    obtain ⟨rfl, next, hpoints, hrest, ha⟩ := h.exists_of_cons
    rw [follow_of_points hpoints (hnew a (List.mem_cons_self ..))]
    refine ih hrest (fun b hb => ?_) (by simpa [or_left_comm, or_assoc] using hends)
    rw [List.mem_cons, not_or]
    exact ⟨fun heq => ha (heq ▸ hb), hnew b (List.mem_cons_of_mem _ hb)⟩

theorem exists_follows_finalId (c : Container) (id : String) :
    ∃ way, c.Follows id way (c.finalId id) ∧
      (c.finalId id ∈ way ∨ c.aliases.get? (c.finalId id) = none) := by
  obtain ⟨way, hfollows, -, hends⟩ := c.exists_follows_of_follow [] id
  exact ⟨way, hfollows, by simpa [finalId, or_comm] using hends⟩

theorem finalId_of_follows (h : c.Follows id way last)
    (hends : last ∈ way ∨ c.aliases.get? last = none) : c.finalId id = last :=
  follow_of_follows h (by simp) (by simpa [or_comm] using hends)

theorem followWithin_eq (beyond : List String → String → String) {n : Nat} {seen : List String}
    (h : (unseen c.aliases seen).length < n) :
    c.followWithin beyond n seen id = follow c.aliases seen id := by
  induction n generalizing seen id with
  | zero => exact absurd h (Nat.not_lt_zero _)
  | succ n ih =>
    rw [followWithin]
    split
    · next hnone => exact (follow_of_ended (.inl hnone)).symm
    · next target hpoints =>
      by_cases hid : id ∈ seen
      · rw [if_pos hid, follow_of_ended (.inr hid)]
      · have hlt := length_unseen_cons_lt (Table.mem_names_of_get? hpoints) hid
        rw [if_neg hid, follow_of_points hpoints hid]
        exact ih (by omega)

/-! Where a way can end. -/

theorem cyclic_of_reaches {a b : String} (ha : TransGen c.Points a a)
    (h : ReflTransGen c.Points a b) : TransGen c.Points b b := by
  induction h with
  | refl => exact ha
  | @tail b b' _ hpoints ih =>
    obtain ⟨next, hnext, hback⟩ := TransGen.head'_iff.mp ih
    obtain rfl := points_rightUnique hnext hpoints
    exact .tail' hback hpoints

theorem eq_of_reaches_of_none {a b : String} (ha : c.aliases.get? a = none)
    (h : ReflTransGen c.Points a b) : b = a := by
  obtain rfl | ⟨next, hnext, -⟩ := h.cases_head
  · rfl
  · rw [Points, ha] at hnext
    cases hnext

theorem exists_alias_of_cyclic {a : String} (h : TransGen c.Points a a) :
    ∃ target, c.aliases.get? a = some target := by
  obtain ⟨next, hnext, -⟩ := TransGen.head'_iff.mp h
  exact ⟨next, hnext⟩

theorem not_cyclic_of_reaches {a : String} (h : ReflTransGen c.Points id last)
    (hlast : c.aliases.get? last = none) (ha : ReflTransGen c.Points id a) :
    ¬ TransGen c.Points a a := by
  intro hcycle
  have hend : TransGen c.Points last last := by
    obtain hon | hback := ReflTransGen.total_of_right_unique points_rightUnique ha h
    · exact cyclic_of_reaches hcycle hon
    · exact eq_of_reaches_of_none hlast hback ▸ hcycle
  obtain ⟨target, htarget⟩ := exists_alias_of_cyclic hend
  rw [hlast] at htarget
  cases htarget

theorem Follows.cyclic (h : c.Follows id way last) (hlast : last ∈ way) :
    TransGen c.Points last last := by
  induction way generalizing id with
  | nil => simp at hlast
  | cons a way ih =>
    obtain ⟨rfl, next, hpoints, hrest, -⟩ := h.exists_of_cons
    obtain rfl | hlast := List.mem_cons.mp hlast
    · exact .head' hpoints hrest.reaches
    · exact ih hrest hlast

/-- Whatever is reached that is no alias is the end of the way. -/
theorem finalId_of_reaches (h : ReflTransGen c.Points id last)
    (hlast : c.aliases.get? last = none) : c.finalId id = last := by
  obtain ⟨way, hfollows, hends⟩ := c.exists_follows_finalId id
  have hreaches := hfollows.reaches
  have hnone : c.aliases.get? (c.finalId id) = none :=
    hends.resolve_left fun hmem =>
      not_cyclic_of_reaches h hlast hreaches (hfollows.cyclic hmem)
  obtain hon | hback := ReflTransGen.total_of_right_unique points_rightUnique hreaches h
  · exact (eq_of_reaches_of_none hnone hon).symm
  · exact eq_of_reaches_of_none hlast hback

theorem definition_eq_ok_iff {d : Definition} :
    c.definition id = .ok d ↔ c.definitions.get? (c.finalId id) = some d := by
  unfold definition
  cases c.definitions.get? (c.finalId id) <;> simp

theorem definition_eq_error_iff {e : Failure} :
    c.definition id = .error e ↔
      e = .undefined (c.finalId id) ∧ c.definitions.get? (c.finalId id) = none := by
  unfold definition
  cases c.definitions.get? (c.finalId id) <;> simp [eq_comm]

theorem Follows.reaches_of_mem (h : c.Follows id way last) {a : String} (ha : a ∈ way) :
    ReflTransGen c.Points id a := by
  induction way generalizing id with
  | nil => cases ha
  | cons b way ih =>
    obtain ⟨rfl, next, hpoints, hrest, -⟩ := h.exists_of_cons
    obtain rfl | ha := List.mem_cons.mp ha
    · exact .refl
    · exact .head hpoints (ih hrest ha)

theorem finalId_of_points {target : String} (h : c.Points id target)
    (hnot : ¬ TransGen c.Points id id) : c.finalId id = c.finalId target := by
  obtain ⟨way, hway, hends⟩ := c.exists_follows_finalId target
  have hid : id ∉ way := fun hmem => hnot (.head' h (hway.reaches_of_mem hmem))
  exact finalId_of_follows (hway.cons h hid) (hends.imp_left (List.mem_cons_of_mem _))

theorem definition_ne_ok_of_cyclic
    (hdisjoint : ∀ last d, c.definitions.get? last = some d → c.aliases.get? last = none)
    (h : TransGen c.Points id id) (d : Definition) : c.definition id ≠ .ok d := by
  intro hd
  have hlast := hdisjoint _ d (definition_eq_ok_iff.mp hd)
  obtain ⟨way, hway, -⟩ := c.exists_follows_finalId id
  exact not_cyclic_of_reaches hway.reaches hlast .refl h

theorem definition_eq_ok_iff_of_points
    (hdisjoint : ∀ last d, c.definitions.get? last = some d → c.aliases.get? last = none)
    {target : String} (h : c.Points id target) (d : Definition) :
    c.definition id = .ok d ↔ c.definition target = .ok d := by
  by_cases hcycle : TransGen c.Points id id
  · have htarget : TransGen c.Points target target := cyclic_of_reaches hcycle (.single h)
    exact iff_of_false (definition_ne_ok_of_cyclic hdisjoint hcycle d)
      (definition_ne_ok_of_cyclic hdisjoint htarget d)
  · rw [definition_eq_ok_iff, definition_eq_ok_iff, finalId_of_points h hcycle]

/-- In a container that was filled by any changes, the definition of an id is the one that its
aliases lead to. Where they lead to none, the id is named at which they end: the first that is not
registered, or the first that they come to again. They are followed for no more turns than there
are aliases, and once around a cycle they lead to no definition. -/
theorem definition_of_aliases (dir : Option String) (xs : List Change) (id : String) :
    let c := Change.applyAll { defaultDir := dir } xs
    (∀ beyond, c.followWithin beyond (c.aliases.size + 1) [] id = c.finalId id) ∧
    (∀ d, c.definition id = .ok d ↔
      ∃ last, ReflTransGen c.Points id last ∧ c.definitions.get? last = some d) ∧
    (∀ e, c.definition id = .error e ↔ ∃ way last, e = .undefined last ∧
      c.Follows id way last ∧ way.length ≤ c.aliases.size ∧
      (last ∈ way ∨ c.aliases.get? last = none ∧ c.definitions.get? last = none)) ∧
    ((∃ a, ReflTransGen c.Points id a ∧ TransGen c.Points a a) →
      ∀ d, c.definition id ≠ .ok d) := by
  intro c
  have hdisjoint : ∀ last d, c.definitions.get? last = some d → c.aliases.get? last = none :=
    fun _ _ => Change.aliases_eq_none_of_definition
  obtain ⟨way, hway, hends⟩ := c.exists_follows_finalId id
  refine ⟨fun beyond => ?_, fun d => ?_, fun e => ?_, ?_⟩
  · have hunseen : (unseen c.aliases []).length ≤ c.aliases.names.length :=
      List.length_filter_le ..
    rw [Table.names, List.length_map] at hunseen
    exact followWithin_eq beyond (Nat.lt_succ_of_le hunseen)
  · rw [definition_eq_ok_iff]
    constructor
    · intro hd
      exact ⟨c.finalId id, hway.reaches, hd⟩
    · rintro ⟨last, hreaches, hd⟩
      rw [finalId_of_reaches hreaches (hdisjoint last d hd), hd]
  · rw [definition_eq_error_iff]
    constructor
    · rintro ⟨rfl, hnone⟩
      exact ⟨way, c.finalId id, rfl, hway, hway.length_le, hends.imp_right fun h => ⟨h, hnone⟩⟩
    · rintro ⟨way', last, rfl, hway', -, hlast⟩
      obtain rfl := finalId_of_follows hway' (hlast.imp_right And.left)
      refine ⟨rfl, ?_⟩
      obtain hmem | ⟨-, hnone⟩ := hlast
      · obtain ⟨target, htarget⟩ := exists_alias_of_cyclic (hway'.cyclic hmem)
        cases hd : c.definitions.get? (c.finalId id) with
        | none => rfl
        | some d =>
          rw [hdisjoint _ d hd] at htarget
          cases htarget
      · exact hnone
  · rintro ⟨a, ha, hcycle⟩ d hd
    have hlast := hdisjoint _ d (definition_eq_ok_iff.mp hd)
    exact not_cyclic_of_reaches hway.reaches hlast ha hcycle

end Container
end Wiring
