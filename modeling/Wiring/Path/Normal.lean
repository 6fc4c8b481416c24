import Wiring.Path

/-! Normal forms of paths: `normal` changes nothing in a path that is normal already, and it keeps
absolute paths absolute. -/
namespace Wiring.Path
open Wiring.Text

/-- Kept segments, the last first, that no further pass changes: ordinary ones on top of `..`
segments, which stand only below no root. -/
inductive Settled (rooted : Bool) : List Segment → Prop
  | nil : Settled rooted []
  | upward {kept} (hr : rooted = false) (h : ∀ s ∈ kept, s = up) : Settled rooted (up :: kept)
  | plain {s kept} (hne : s ≠ []) (hh : s ≠ here) (hu : s ≠ up) (h : Settled rooted kept) :
      Settled rooted (s :: kept)

theorem Settled.of_all_up {kept : List Segment} (h : ∀ s ∈ kept, s = up) : Settled false kept := by
  cases kept with
  | nil => exact .nil
  | cons s kept =>
    have : s = up := h s (List.mem_cons_self ..)
    subst this
    exact .upward rfl (fun s hs => h s (List.mem_cons_of_mem _ hs))

theorem Settled.climb {rooted : Bool} {kept : List Segment} (h : Settled rooted kept) (s : Segment) :
    Settled rooted (climb rooted kept s) := by
  unfold Path.climb
  split
  · exact h
  · next hs =>
    have hne : s ≠ [] := fun e => hs (.inl e)
    have hh : s ≠ here := fun e => hs (.inr e)
    split
    · cases h with
      | nil =>
        cases rooted with
        | true => exact .nil
        | false => exact .upward rfl (by simp)
      | upward hr hall =>
        simp only [ite_true]
        exact .upward hr (fun s hs => by
          rcases List.mem_cons.1 hs with rfl | hs
          · rfl
          · exact hall s hs)
      | plain _ _ hu hk => simp only [hu, ite_false]; exact hk
    · next hu => exact .plain hne hh hu h

theorem settled_foldl {rooted : Bool} {kept : List Segment} (h : Settled rooted kept)
    (ss : List Segment) : Settled rooted (ss.foldl (climb rooted) kept) := by
  induction ss generalizing kept with
  | nil => exact h
  | cons s ss ih => exact ih (h.climb s)

theorem Settled.foldl_reverse {rooted : Bool} {kept : List Segment} (h : Settled rooted kept) :
    kept.reverse.foldl (Path.climb rooted) [] = kept := by
  induction kept with
  | nil => rfl
  | cons s kept ih =>
    rw [List.reverse_cons, List.foldl_append]
    cases h with
    | upward hr hall =>
      subst hr
      rw [ih (.of_all_up hall)]
      cases kept with
      | nil => rfl
      | cons t kept =>
        have : t = Path.up := hall t (List.mem_cons_self ..)
        subst this
        rfl
    | plain hne hh hu hk =>
      rw [ih hk]
      simp [Path.climb, hne, hh, hu]

theorem mem_foldl_climb {rooted : Bool} {kept ss : List Segment} {s : Segment}
    (h : s ∈ ss.foldl (climb rooted) kept) : s ∈ kept ∨ s ∈ ss := by
  induction ss generalizing kept with
  | nil => exact .inl h
  | cons t ss ih =>
    rcases ih h with hk | hs
    · unfold climb at hk
      repeat' split at hk
      all_goals simp_all [List.mem_cons]
      all_goals grind
    · exact .inr (List.mem_cons_of_mem _ hs)

theorem split_join {sep : Char} {pieces : List (List Char)} (hne : pieces ≠ [])
    (h : ∀ p ∈ pieces, sep ∉ p) : split sep (Text.join sep pieces) = pieces := by
  induction pieces with
  | nil => exact absurd rfl hne
  | cons p ps ih =>
    have hp : split sep p = [p] := split_of_not_mem (h p (List.mem_cons_self ..))
    cases ps with
    | nil => exact hp
    | cons q qs =>
      rw [join_cons_of_ne_nil _ _ (by simp), split_append, hp,
        ih (by simp) (fun x hx => h x (List.mem_cons_of_mem _ hx))]
      rfl

theorem rootSlashes_le (cs : List Char) : rootSlashes cs ≤ 2 := by
  unfold rootSlashes
  split <;> omega

theorem rootSlashes_append {n : Nat} (hn : n ≤ 2) {cs : List Char} (h : cs.head? ≠ some '/') :
    rootSlashes (List.replicate n '/' ++ cs) = n := by
  have hcs : ∀ r, cs ≠ '/' :: r := fun r e => h (by simp [e])
  match n, hn with
  | 0, _ => unfold rootSlashes; simp only [List.replicate, List.nil_append]; split <;> simp_all
  | 1, _ =>
    cases cs with
    | nil => rfl
    | cons c cs =>
      have : c ≠ '/' := fun e => h (by simp [e])
      simp [List.replicate, rootSlashes, this]
  | 2, _ =>
    cases cs with
    | nil => rfl
    | cons c cs =>
      have : c ≠ '/' := fun e => h (by simp [e])
      simp [List.replicate, rootSlashes]

theorem split_replicate_append (n : Nat) (cs : List Char) :
    split '/' (List.replicate n '/' ++ cs) = List.replicate n [] ++ split '/' cs := by
  induction n with
  | zero => rfl
  | succ n ih => simp [List.replicate_succ, split, ih]

theorem foldl_climb_replicate (rooted : Bool) (n : Nat) (kept : List Segment) :
    (List.replicate n ([] : Segment)).foldl (climb rooted) kept = kept := by
  induction n with
  | zero => rfl
  | succ n ih => simp [List.replicate_succ, climb, ih]

/-- Segments that a path in normal form may have below a root of `slashes` slashes. -/
structure NormalForm (slashes : Nat) (segments : List Segment) : Prop where
  le : slashes ≤ 2
  settled : Settled (slashes != 0) segments.reverse
  clean : ∀ s ∈ segments, '/' ∉ s

theorem normalForm_normalSegments (cs : List Char) :
    NormalForm (rootSlashes cs) (normalSegments cs) where
  le := rootSlashes_le cs
  settled := by
    unfold normalSegments
    rw [List.reverse_reverse]
    exact settled_foldl .nil _
  clean := fun s hs => by
    unfold normalSegments at hs
    rcases mem_foldl_climb (List.mem_reverse.1 hs) with h | h
    · simp at h
    · exact sep_not_mem_of_mem_split h

theorem Settled.ne_nil {rooted : Bool} {kept : List Segment} (h : Settled rooted kept) :
    ∀ s ∈ kept, s ≠ [] := by
  induction h with
  | nil => simp
  | upward hr hall =>
    intro s hs e
    rcases List.mem_cons.1 hs with rfl | hs
    · simp [Path.up] at e
    · have := hall s hs
      simp [this, Path.up] at e
  | plain hne _ _ _ ih =>
    intro s hs
    rcases List.mem_cons.1 hs with rfl | hs
    · exact hne
    · exact ih s hs

theorem head?_join {segments : List Segment} (hne : ∀ s ∈ segments, s ≠ [])
    (hc : ∀ s ∈ segments, '/' ∉ s) : (Text.join '/' segments).head? ≠ some '/' := by
  cases segments with
  | nil => simp [Text.join]
  | cons s ss =>
    obtain ⟨c, cs, rfl⟩ := List.exists_cons_of_ne_nil (hne s (List.mem_cons_self ..))
    have h : c ≠ '/' := fun e => hc (c :: cs) (List.mem_cons_self ..) (by simp [e])
    cases ss with
    | nil => simp [Text.join, h]
    | cons t ts => simp [Text.join, h]

theorem toList_ofSegments {n : Nat} {ss : List Segment} (h : ¬ (n = 0 ∧ ss = [])) :
    (ofSegments n ss).toList = List.replicate n '/' ++ Text.join '/' ss := by
  unfold ofSegments
  split
  · exact absurd ⟨rfl, rfl⟩ h
  · exact String.toList_ofList

theorem NormalForm.ne_nil {n : Nat} {ss : List Segment} (h : NormalForm n ss) :
    ∀ s ∈ ss, s ≠ [] :=
  fun s hs => h.settled.ne_nil s (List.mem_reverse.2 hs)

theorem NormalForm.rootSlashes_eq {n : Nat} {ss : List Segment} (h : NormalForm n ss) :
    rootSlashes (ofSegments n ss).toList = n := by
  by_cases hdot : n = 0 ∧ ss = []
  · obtain ⟨rfl, rfl⟩ := hdot
    rfl
  · rw [toList_ofSegments hdot]
    exact rootSlashes_append h.le (head?_join h.ne_nil h.clean)

theorem NormalForm.normalSegments_eq {n : Nat} {ss : List Segment} (h : NormalForm n ss) :
    normalSegments (ofSegments n ss).toList = ss := by
  by_cases hdot : n = 0 ∧ ss = []
  · obtain ⟨rfl, rfl⟩ := hdot
    rfl
  · unfold normalSegments
    rw [h.rootSlashes_eq, toList_ofSegments hdot, split_replicate_append, List.foldl_append,
      foldl_climb_replicate]
    by_cases hss : ss = []
    · subst hss; rfl
    · rw [split_join hss h.clean]
      have := h.settled.foldl_reverse
      rw [List.reverse_reverse] at this
      rw [this, List.reverse_reverse]

theorem NormalForm.normal_ofSegments {n : Nat} {ss : List Segment} (h : NormalForm n ss) :
    normal (ofSegments n ss) = ofSegments n ss := by
  rw [normal, h.rootSlashes_eq, h.normalSegments_eq]

theorem rootSlashes_normal (p : String) :
    rootSlashes (normal p).toList = rootSlashes p.toList :=
  (normalForm_normalSegments p.toList).rootSlashes_eq

theorem normalSegments_normal (p : String) :
    normalSegments (normal p).toList = normalSegments p.toList :=
  (normalForm_normalSegments p.toList).normalSegments_eq

theorem normal_normal (p : String) : normal (normal p) = normal p :=
  (normalForm_normalSegments p.toList).normal_ofSegments

theorem isAbsolute_iff (p : String) : isAbsolute p = true ↔ rootSlashes p.toList ≠ 0 := by
  unfold isAbsolute rootSlashes
  cases h : p.toList with
  | nil => simp
  | cons c cs =>
    by_cases hc : c = '/'
    · subst hc
      simp only [List.head?_cons, decide_true, true_iff]
      split <;> simp_all
    · simp [hc]

theorem isAbsolute_normal (p : String) : isAbsolute (normal p) = isAbsolute p := by
  rw [Bool.eq_iff_iff, isAbsolute_iff, isAbsolute_iff, rootSlashes_normal]

theorem isAbsolute_append {base : String} (h : isAbsolute base = true) (part : String) :
    isAbsolute (base ++ part) = true := by
  have hhead : base.toList.head? = some '/' := by simpa [isAbsolute] using h
  obtain ⟨cs, hcs⟩ := List.head?_eq_some_iff.mp hhead
  simp [isAbsolute, hcs]

theorem isAbsolute_join {base : String} (h : isAbsolute base = true) (part : String) :
    isAbsolute (join base part) = true := by
  unfold join
  split
  · assumption
  · split
    · exact isAbsolute_append h part
    · exact isAbsolute_append (isAbsolute_append h "/") part

theorem climb_blank {rooted : Bool} {kept : List Segment} {s : Segment} (h : s = [] ∨ s = here) :
    climb rooted kept s = kept := by
  unfold climb
  exact if_pos h

theorem climb_up {kept : List Segment} (h : ∀ s ∈ kept, s ≠ up) : climb true kept up = kept.tail := by
  cases kept with
  | nil => rfl
  | cons top below => exact if_neg (h top (List.mem_cons_self ..))

theorem climb_name {rooted : Bool} {kept : List Segment} {s : Segment}
    (h : ¬ (s = [] ∨ s = here)) (hup : s ≠ up) : climb rooted kept s = s :: kept := by
  unfold climb
  rw [if_neg h, if_neg hup]

theorem normalSegments_of_isAbsolute {p : String} (h : isAbsolute p = true) :
    normalSegments p.toList = ((Text.split '/' p.toList).foldl (climb true) []).reverse := by
  have hrooted : (rootSlashes p.toList != 0) = true := bne_iff_ne.mpr ((isAbsolute_iff p).mp h)
  rw [normalSegments, hrooted]

theorem normalSegments_append_slash {base : String} (hbase : isAbsolute base = true)
    (part : String) : normalSegments (base ++ "/" ++ part).toList =
      ((Text.split '/' part.toList).foldl (climb true)
        (normalSegments base.toList).reverse).reverse := by
  have hslash : isAbsolute (base ++ "/" ++ part) = true :=
    isAbsolute_append (isAbsolute_append hbase "/") part
  rw [normalSegments_of_isAbsolute hslash, normalSegments_of_isAbsolute hbase, List.reverse_reverse,
    ← List.foldl_append, String.toList_append, String.toList_append, List.append_assoc]
  exact congrArg (fun pieces => (pieces.foldl (climb true) []).reverse) (Text.split_append ..)

/-- Below an absolute base the segments of a relative part go on from those of the base. -/
theorem normalSegments_join {base part : String} (hbase : isAbsolute base = true)
    (hpart : isAbsolute part = false) :
    normalSegments (join base part).toList =
      ((Text.split '/' part.toList).foldl (climb true)
        (normalSegments base.toList).reverse).reverse := by
  have hne : base ≠ "" := by
    rintro rfl
    cases hbase
  by_cases hlast : base.toList.getLast? = some '/'
  · obtain ⟨front, hfront⟩ : ∃ front, base.toList = front ++ ['/'] := by
      obtain ⟨front, last, heq⟩ :=
        (List.eq_nil_or_concat base.toList).resolve_left fun h => by simp [h] at hlast
      rw [heq, List.concat_eq_append, List.getLast?_concat] at hlast
      exact ⟨front, by rw [heq, List.concat_eq_append, Option.some.inj hlast]⟩
    rw [normalSegments_of_isAbsolute (isAbsolute_join hbase part),
      normalSegments_of_isAbsolute hbase, List.reverse_reverse, join, hpart, if_neg (by decide),
      if_pos (.inr hlast), String.toList_append, hfront, List.append_assoc, List.singleton_append,
      Text.split_append, Text.split_append, List.foldl_append, List.foldl_append]
    rfl
  · rw [join, hpart, if_neg (by decide), if_neg (by simp [hne, hlast]),
      normalSegments_append_slash hbase part]

theorem isAbsolute_directory {p : String} (h : isAbsolute p = true) :
    isAbsolute (directory p) = true := by
  have hp : p.toList.head? = some '/' := by simpa [isAbsolute] using h
  obtain ⟨cs, hcs⟩ : ∃ cs, p.toList = '/' :: cs := by
    cases hl : p.toList with
    | nil => simp [hl] at hp
    | cons c cs => exact ⟨cs, by simp [hl] at hp; rw [hp]⟩
  have dropWhile_concat : ∀ (q : Char → Bool) (xs : List Char) (x : Char), q x = false →
      ∃ ys, (xs ++ [x]).dropWhile q = ys ++ [x] := by
    intro q xs x hx
    induction xs with
    | nil => exact ⟨[], by simp [hx]⟩
    | cons y ys ih =>
      by_cases hy : q y = true
      · simpa [List.dropWhile_cons, hy] using ih
      · exact ⟨y :: ys, by simp [hy]⟩
  obtain ⟨ys, hys⟩ := dropWhile_concat (· ≠ '/') cs.reverse '/' (by simp)
  have hhead : (p.toList.reverse.dropWhile (· ≠ '/')).reverse = '/' :: ys.reverse := by
    rw [hcs, List.reverse_cons, hys]; simp
  unfold directory
  simp only [hhead]
  split
  · simp [isAbsolute]
  · next hall =>
    have hmem : ∃ x ∈ ys.reverse, x ≠ '/' := by
      simpa using hall
    obtain ⟨x, hx, hxs⟩ := hmem
    have : ∃ zs, (('/' :: ys.reverse).reverse.dropWhile (· = '/')) = zs ++ ['/'] := by
      rw [List.reverse_cons, List.reverse_reverse]
      have hx' : x ∈ ys := List.mem_reverse.1 hx
      clear hhead hall hys
      induction ys with
      | nil => simp at hx'
      | cons y ys ih =>
        by_cases hy : y = '/'
        · subst hy
          have : x ∈ ys := by
            rcases List.mem_cons.1 hx' with rfl | h
            · exact absurd rfl hxs
            · exact h
          simpa [List.dropWhile_cons] using ih (List.mem_reverse.2 this) this
        · exact ⟨y :: ys, by simp [hy]⟩
    obtain ⟨zs, hzs⟩ := this
    rw [hzs]
    simp [isAbsolute]

end Wiring.Path
