import Mathlib.Data.List.Forall2

/-! The last answer in a list, and lists related part by part. -/
namespace Wiring
variable {α β γ : Type}

/-- The answer of the last element that has one. -/
def lastSome? (f : α → Option β) (xs : List α) : Option β := xs.reverse.findSome? f

@[simp] theorem lastSome?_nil (f : α → Option β) : lastSome? f [] = none := rfl

theorem lastSome?_append (f : α → Option β) (xs ys : List α) :
    lastSome? f (xs ++ ys) = (lastSome? f ys).or (lastSome? f xs) := by
  unfold lastSome?
  rw [List.reverse_append, List.findSome?_append]

theorem lastSome?_cons (f : α → Option β) (x : α) (xs : List α) :
    lastSome? f (x :: xs) = (lastSome? f xs).or (f x) := by
  unfold lastSome?
  rw [List.reverse_cons, List.findSome?_append]
  simp

theorem lastSome?_map (f : β → Option γ) (g : α → β) (xs : List α) :
    lastSome? f (xs.map g) = lastSome? (fun x => f (g x)) xs := by
  unfold lastSome?
  rw [← List.map_reverse, List.findSome?_map]
  rfl

theorem lastSome?_filterMap (f : β → Option γ) (g : α → Option β) (xs : List α) :
    lastSome? f (xs.filterMap g) = lastSome? (fun x => (g x).bind f) xs := by
  induction xs with
  | nil => rfl
  | cons x xs ih =>
    rw [List.filterMap_cons, lastSome?_cons]
    cases g x with
    | none => rw [ih, Option.bind_none, Option.or_none]
    | some y => rw [lastSome?_cons, ih, Option.bind_some]

theorem lastSome?_flatMap (f : β → Option γ) (g : α → List β) (xs : List α) :
    lastSome? f (xs.flatMap g) = lastSome? (fun x => lastSome? f (g x)) xs := by
  induction xs with
  | nil => rfl
  | cons x xs ih => rw [List.flatMap_cons, lastSome?_append, lastSome?_cons, ih]

theorem lastSome?_map_option (f : α → Option β) (g : β → γ) (xs : List α) :
    lastSome? (fun x => (f x).map g) xs = (lastSome? f xs).map g := by
  induction xs with
  | nil => rfl
  | cons x xs ih => rw [lastSome?_cons, lastSome?_cons, ih, Option.map_or]

theorem lastSome?_none (xs : List α) : lastSome? (fun _ => (none : Option β)) xs = none := by
  simp [lastSome?]

theorem lastSome?_eq_none_iff {f : α → Option β} {xs : List α} :
    lastSome? f xs = none ↔ ∀ x ∈ xs, f x = none := by
  simp [lastSome?]

theorem exists_split_of_lastSome? {f : α → Option β} {xs : List α} {b : β}
    (h : lastSome? f xs = some b) :
    ∃ before x after, xs = before ++ x :: after ∧ f x = some b ∧ ∀ y ∈ after, f y = none := by
  obtain ⟨after, x, before, hsplit, hx, hafter⟩ := List.findSome?_eq_some_iff.mp h
  refine ⟨before.reverse, x, after.reverse, ?_, hx, fun y hy => hafter y (List.mem_reverse.mp hy)⟩
  rw [← List.reverse_reverse xs, hsplit]
  simp

theorem lastSome?_append_comm {f : α → Option β} {xs ys : List α}
    (h : lastSome? f xs = none ∨ lastSome? f ys = none) :
    lastSome? f (xs ++ ys) = lastSome? f (ys ++ xs) := by
  rw [lastSome?_append, lastSome?_append]
  obtain h | h := h
  · rw [h, Option.or_none, Option.none_or]
  · rw [h, Option.or_none, Option.none_or]

theorem findSome?_congr {f g : α → Option β} {xs : List α} (h : ∀ x ∈ xs, f x = g x) :
    xs.findSome? f = xs.findSome? g := by
  induction xs with
  | nil => rfl
  | cons x xs ih =>
    have hx := h x (List.mem_cons_self ..)
    have hxs := ih fun y hy => h y (List.mem_cons_of_mem _ hy)
    rw [List.findSome?_cons, List.findSome?_cons, hx, hxs]

theorem lastSome?_congr {f g : α → Option β} {xs : List α} (h : ∀ x ∈ xs, f x = g x) :
    lastSome? f xs = lastSome? g xs :=
  findSome?_congr fun x hx => h x (List.mem_reverse.mp hx)

theorem exists_getElem?_of_forall₂ {R : α → β → Prop} {xs : List α} {ys : List β}
    (h : List.Forall₂ R xs ys) {n : Nat} {a : α} (ha : xs[n]? = some a) :
    ∃ b, ys[n]? = some b ∧ R a b := by
  induction h generalizing n with
  | nil => simp at ha
  | @cons x y xs ys hr _ ih =>
    cases n with
    | zero =>
      obtain rfl : x = a := by simpa using ha
      exact ⟨y, rfl, hr⟩
    | succ n => exact ih (by simpa using ha)

theorem exists_mem_of_forall₂ {R : α → β → Prop} {xs : List α} {ys : List β}
    (h : List.Forall₂ R xs ys) {a : α} (ha : a ∈ xs) : ∃ b ∈ ys, R a b := by
  obtain ⟨n, hn⟩ := List.mem_iff_getElem?.mp ha
  obtain ⟨b, hb, hr⟩ := exists_getElem?_of_forall₂ h hn
  exact ⟨b, List.mem_of_getElem? hb, hr⟩

theorem exists_append_of_forall₂ {R : α → β → Prop} {xs xs' : List α} {zs : List β}
    (h : List.Forall₂ R (xs ++ xs') zs) :
    ∃ ys ys', zs = ys ++ ys' ∧ List.Forall₂ R xs ys ∧ List.Forall₂ R xs' ys' := by
  induction xs generalizing zs with
  | nil => exact ⟨[], zs, rfl, .nil, h⟩
  | cons x xs ih =>
    cases h with
    | @cons _ z _ zs hr hrest =>
      obtain ⟨ys, ys', rfl, hfront, hback⟩ := ih hrest
      exact ⟨z :: ys, ys', rfl, .cons hr hfront, hback⟩

theorem exists_of_append_eq {xs ys before after : List α} {a : α}
    (h : xs ++ ys = before ++ a :: after) :
    (∃ before', before = xs ++ before' ∧ ys = before' ++ a :: after) ∨
      ∃ after', xs = before ++ a :: after' ∧ after = after' ++ ys := by
  obtain ⟨before', rfl, hys⟩ | ⟨cs, rfl, hcs⟩ := List.append_eq_append_iff.mp h
  · exact .inl ⟨before', rfl, hys⟩
  · cases cs with
    | nil => exact .inl ⟨[], by simp, hcs.symm⟩
    | cons c cs =>
      obtain ⟨rfl, rfl⟩ := List.cons.inj hcs
      exact .inr ⟨cs, rfl, rfl⟩

theorem exists_of_flatMap_eq {f : α → List β} {xs : List α} {before after : List β} {b : β}
    (h : xs.flatMap f = before ++ b :: after) :
    ∃ as a cs ys zs, xs = as ++ a :: cs ∧ before = as.flatMap f ++ ys ∧ f a = ys ++ b :: zs ∧
      after = zs ++ cs.flatMap f := by
  induction xs generalizing before with
  | nil => simp at h
  | cons x xs ih =>
    rw [List.flatMap_cons] at h
    obtain ⟨before', rfl, htail⟩ | ⟨after', hx, rfl⟩ := exists_of_append_eq h
    · obtain ⟨ws, a, cs, ys, zs, rfl, rfl, ha, rfl⟩ := ih htail
      exact ⟨x :: ws, a, cs, ys, zs, rfl, by simp, ha, rfl⟩
    · exact ⟨[], x, xs, before, after', rfl, rfl, hx, rfl⟩

end Wiring
