import Mathlib.Data.List.Forall2
import Wiring.Proofs.Argument.Texts
import Wiring.Text.Split

/-! What was written can be told from the argument that it is read as, as long as nothing in it is
interpolated. So values that differ are read as arguments that differ. -/
namespace Wiring

/-- Nothing in the value is interpolated: none of its texts both starts and ends with `%`. -/
def Value.IsPlain (v : Value) : Prop :=
  ∀ s ∈ v.texts, ¬ (Text.startsWith s "%" = true ∧ Text.endsWith s "%" = true)

instance (v : Value) : Decidable v.IsPlain :=
  inferInstanceAs (Decidable (∀ s ∈ v.texts, _))

/-- Values of one shape with related scalars. The entries of a mapping and the members of a set may
stand in another order. -/
inductive Value.Alike (R : Scalar → Scalar → Prop) : Value → Value → Prop where
  | scalar {s t : Scalar} (h : R s t) : Alike R (.scalar s) (.scalar t)
  | list {vs ws : List Value} (h : List.Forall₂ (Alike R) vs ws) : Alike R (.list vs) (.list ws)
  | map {es fs gs : List (Scalar × Value)} (hperm : gs.Perm fs)
      (hkeys : gs.map Prod.fst = es.map Prod.fst)
      (h : List.Forall₂ (Alike R) (es.map Prod.snd) (gs.map Prod.snd)) : Alike R (.map es) (.map fs)
  | set {ms ns ks : List Scalar} (hperm : ks.Perm ns) (h : List.Forall₂ R ms ks) :
      Alike R (.set ms) (.set ns)

namespace Argument

/-- Arguments of one kind that stand for the same, with alike values. The entries of a mapping may
stand in another order. -/
inductive Alike (R : Scalar → Scalar → Prop) : Argument → Argument → Prop where
  | literal {v w : Value} (h : v.Alike R w) : Alike R (.literal v) (.literal w)
  | reference (r : Reference) : Alike R (.reference r) (.reference r)
  | parameter (name : String) : Alike R (.parameter name) (.parameter name)
  | tagged (tag : String) : Alike R (.tagged tag) (.tagged tag)
  | list {as bs : List Argument} (h : List.Forall₂ (Alike R) as bs) : Alike R (.list as) (.list bs)
  | map {es fs gs : List (Scalar × Argument)} (hperm : gs.Perm fs)
      (hkeys : gs.map Prod.fst = es.map Prod.fst)
      (h : List.Forall₂ (Alike R) (es.map Prod.snd) (gs.map Prod.snd)) : Alike R (.map es) (.map fs)
  | given {v w : Value} (h : v.Alike R w) : Alike R (.given v) (.given w)

mutual
/-- How an argument is written in a document. -/
def written : Argument → Value
  | .literal v | .given v => v
  | .reference ⟨target, true⟩ => .text ("@?" ++ target)
  | .reference ⟨target, false⟩ => .text ("@" ++ target)
  | .parameter name => .text ("%" ++ name)
  | .tagged tag => .text (tagMarker ++ tag)
  | .list as => .list (writtenItems as)
  | .map es => .map (writtenEntries es)
def writtenItems : List Argument → List Value
  | [] => []
  | a :: as => a.written :: writtenItems as
def writtenEntries : List (Scalar × Argument) → List (Scalar × Value)
  | [] => []
  | (k, a) :: es => (k, a.written) :: writtenEntries es
end

theorem writtenItems_eq (as : List Argument) : writtenItems as = as.map written := by
  induction as with
  | nil => rfl
  | cons a as ih => rw [writtenItems, List.map_cons, ih]

theorem writtenEntries_eq (es : List (Scalar × Argument)) :
    writtenEntries es = es.map fun e => (e.1, e.2.written) := by
  induction es with
  | nil => rfl
  | cons e es ih => rw [writtenEntries, List.map_cons, ih]

theorem keys_writtenEntries (es : List (Scalar × Argument)) :
    (writtenEntries es).map Prod.fst = es.map Prod.fst := by
  rw [writtenEntries_eq, List.map_map]
  rfl

theorem values_writtenEntries (es : List (Scalar × Argument)) :
    (writtenEntries es).map Prod.snd = (es.map Prod.snd).map written := by
  rw [writtenEntries_eq, List.map_map, List.map_map]
  rfl

variable {R : Scalar → Scalar → Prop}

/-! Alike arguments are written alike. Texts have to count as related to themselves, for a reference
is written as a text. -/

mutual
theorem alike_written (hR : ∀ s, R (.text s) (.text s)) :
    ∀ (a : Argument) {b : Argument}, a.Alike R b → a.written.Alike R b.written
  | .literal v, b, h => by
    cases h with
    | literal h => exact h
  | .given v, b, h => by
    cases h with
    | given h => exact h
  | .reference ⟨target, optional⟩, b, h => by
    cases h
    cases optional with
    | true => exact .scalar (hR _)
    | false => exact .scalar (hR _)
  | .parameter name, b, h => by
    cases h
    exact .scalar (hR _)
  | .tagged tag, b, h => by
    cases h
    exact .scalar (hR _)
  | .list as, b, h => by
    cases h with
    | @list _ bs h =>
      rw [Argument.written, Argument.written, writtenItems_eq bs]
      exact .list (alike_writtenItems hR as h)
  | .map es, b, h => by
    cases h with
    | @map _ fs gs hperm hkeys h =>
      rw [Argument.written, Argument.written]
      refine @Value.Alike.map R _ _ (writtenEntries gs) ?_ ?_ ?_
      · rw [writtenEntries_eq, writtenEntries_eq]
        exact hperm.map _
      · rw [keys_writtenEntries, keys_writtenEntries, hkeys]
      · rw [values_writtenEntries gs]
        exact alike_writtenEntries hR es h

theorem alike_writtenItems (hR : ∀ s, R (.text s) (.text s)) :
    ∀ (as : List Argument) {bs : List Argument}, List.Forall₂ (Alike R) as bs →
      List.Forall₂ (Value.Alike R) (writtenItems as) (bs.map Argument.written)
  | [], bs, h => by
    cases h
    exact .nil
  | a :: as, bs, h => by
    cases h with
    | cons ha has => exact .cons (alike_written hR a ha) (alike_writtenItems hR as has)

theorem alike_writtenEntries (hR : ∀ s, R (.text s) (.text s)) :
    ∀ (es : List (Scalar × Argument)) {bs : List Argument},
      List.Forall₂ (Alike R) (es.map Prod.snd) bs →
        List.Forall₂ (Value.Alike R) ((writtenEntries es).map Prod.snd) (bs.map Argument.written)
  | [], bs, h => by
    cases h
    exact .nil
  | (k, a) :: es, bs, h => by
    cases h with
    | cons ha has => exact .cons (alike_written hR a ha) (alike_writtenEntries hR es has)
end

end Argument

theorem TextMeaning.enclosed_of_spells {expression s : String}
    (h : (interpolation expression).Spells s) :
    Text.startsWith s "%" = true ∧ Text.endsWith s "%" = true := by
  obtain rfl | ⟨rfl, -⟩ := h
  · constructor
    · exact List.isPrefixOf_iff_prefix.mpr ⟨expression.toList ++ ['%'], by simp⟩
    · exact List.isSuffixOf_iff_suffix.mpr ⟨'%' :: expression.toList, by simp⟩
  · exact ⟨rfl, rfl⟩

namespace Scope
variable {scope : Scope}

theorem exists_of_isPlain {v : Value} (h : v.IsPlain) : ∃ a, (scope.read v).result = .ok a :=
  (read_of_clear fun s hs _ hlacks => h s hs (TextMeaning.enclosed_of_spells hlacks.1)).1

theorem written_of_readText {s : String} {a : Argument} (hs : (Value.text s).IsPlain)
    (h : (scope.readText s).result = .ok a) : a.written = .text s := by
  have hspelled := TextMeaning.spells_of s
  unfold readText at h
  cases hm : TextMeaning.of s with
  | interpolation expression =>
    rw [hm] at hspelled
    exact absurd (TextMeaning.enclosed_of_spells hspelled) (hs s (List.mem_singleton_self s))
  | reference r =>
    obtain ⟨target, optional⟩ := r
    rw [hm] at h hspelled
    cases h
    cases optional with
    | true => exact congrArg Value.text (show s = _ from hspelled).symm
    | false => exact congrArg Value.text hspelled.1.symm
  | parameter name =>
    rw [hm] at h hspelled
    cases h
    exact congrArg Value.text hspelled.1.symm
  | tagged tag =>
    rw [hm] at h hspelled
    cases h
    exact congrArg Value.text (show s = _ from hspelled).symm
  | literal =>
    rw [hm] at h
    cases h
    rfl

mutual
theorem written_of_read : ∀ (v : Value) {a : Argument}, v.IsPlain →
    (scope.read v).result = .ok a → a.written = v
  | .scalar s, a, hv, h => by
    cases s with
    | text s => exact written_of_readText hv h
    | _ =>
      cases h
      rfl
  | .set ms, a, _, h => by
    cases h
    rfl
  | .list vs, a, hv, h => by
    obtain ⟨as, has, rfl⟩ := Traced.map_eq_ok_iff.mp h
    exact congrArg Value.list (written_of_readItems vs hv has)
  | .map es, a, hv, h => by
    obtain ⟨fs, hfs, rfl⟩ := Traced.map_eq_ok_iff.mp h
    exact congrArg Value.map (written_of_readEntries es hv hfs)

theorem written_of_readItems : ∀ (vs : List Value) {as : List Argument},
    (Value.list vs).IsPlain → (scope.readItems vs).result = .ok as →
      Argument.writtenItems as = vs
  | [], as, _, h => by
    cases h
    rfl
  | v :: vs, as, hvs, h => by
    obtain ⟨a, ha, h⟩ := Traced.bind_eq_ok_iff.mp h
    obtain ⟨rest, hrest, h⟩ := Traced.bind_eq_ok_iff.mp h
    cases h
    have hfirst := written_of_read v (fun s hs => hvs s (List.mem_append_left _ hs)) ha
    have hothers := written_of_readItems vs (fun s hs => hvs s (List.mem_append_right _ hs)) hrest
    rw [Argument.writtenItems, hfirst, hothers]

theorem written_of_readEntries : ∀ (es : List (Scalar × Value)) {fs : List (Scalar × Argument)},
    (Value.map es).IsPlain → (scope.readEntries es).result = .ok fs →
      Argument.writtenEntries fs = es
  | [], fs, _, h => by
    cases h
    rfl
  | (k, v) :: es, fs, hes, h => by
    obtain ⟨a, ha, h⟩ := Traced.bind_eq_ok_iff.mp h
    obtain ⟨rest, hrest, h⟩ := Traced.bind_eq_ok_iff.mp h
    cases h
    have hfirst := written_of_read v (fun s hs => hes s (List.mem_append_left _ hs)) ha
    have hothers := written_of_readEntries es (fun s hs => hes s (List.mem_append_right _ hs)) hrest
    rw [Argument.writtenEntries, hfirst, hothers]
end

/-- Values in which nothing is interpolated are read, and each is how the argument that it is read
as is written. So equal arguments come from equal values, and alike ones from alike values,
whatever it means for two scalars to be the same. -/
theorem read_lossless (scope : Scope) {R : Scalar → Scalar → Prop}
    (hR : ∀ s, R (.text s) (.text s)) {v w : Value} (hv : v.IsPlain) (hw : w.IsPlain) :
    ∃ a b, (scope.read v).result = .ok a ∧ (scope.read w).result = .ok b ∧
      a.written = v ∧ b.written = w ∧ (a = b → v = w) ∧ (a.Alike R b → v.Alike R w) := by
  obtain ⟨a, ha⟩ : ∃ a, (scope.read v).result = .ok a := exists_of_isPlain hv
  obtain ⟨b, hb⟩ : ∃ b, (scope.read w).result = .ok b := exists_of_isPlain hw
  have hav : a.written = v := written_of_read v hv ha
  have hbw : b.written = w := written_of_read w hw hb
  refine ⟨a, b, ha, hb, hav, hbw, fun h => ?_, fun h => ?_⟩
  · rw [← hav, ← hbw, h]
  · rw [← hav, ← hbw]
    exact Argument.alike_written hR a h

theorem reordered_lossless :
    let scope : Scope := ⟨fun _ => none, fun _ => none⟩
    let target : Scalar × Value := (.text "to", .text "@?mail")
    let options : Scalar × Value :=
      (.text "with", .list [.bool true, .text "%level", .text "!tagged sink", .text "100%"])
    let target' : Scalar × Argument := (.text "to", .reference ⟨"mail", true⟩)
    let options' : Scalar × Argument := (.text "with",
      .list [.literal (.bool true), .parameter "level", .tagged "sink", .literal (.text "100%")])
    (scope.read (.map [target, options])).result = .ok (.map [target', options']) ∧
      (scope.read (.map [options, target])).result = .ok (.map [options', target']) ∧
      (Argument.map [target', options']).Alike (· = ·) (.map [options', target']) ∧
      (Value.map [target, options]).Alike (· = ·) (.map [options, target]) := by
  intro scope target options target' options'
  have halike : (Argument.map [target', options']).Alike (· = ·) (.map [options', target']) := by
    refine .map (List.Perm.swap ..) rfl (.cons (.reference _) (.cons (.list ?_) .nil))
    exact .cons (.literal (.scalar rfl)) (.cons (.parameter _) (.cons (.tagged _)
      (.cons (.literal (.scalar rfl)) .nil)))
  obtain ⟨a, b, ha, hb, -, -, -, hback⟩ := read_lossless scope (R := (· = ·)) (fun _ => rfl)
    (v := .map [target, options]) (w := .map [options, target]) (by decide) (by decide)
  obtain rfl : Argument.map [target', options'] = a := Except.ok.inj ha
  obtain rfl : Argument.map [options', target'] = b := Except.ok.inj hb
  exact ⟨ha, hb, halike, hback halike⟩

end Scope
end Wiring
