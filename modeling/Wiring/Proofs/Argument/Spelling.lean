import Wiring.Proofs.Argument.Places

/-! What a value is read as, told by how its texts are spelled. Every text has one meaning, which
its first and last signs decide, and a structure is read part by part. -/
namespace Wiring

theorem eq_append_of_toList {s : String} (start : String) {cs : List Char}
    (h : s.toList = start.toList ++ cs) : s = start ++ String.ofList cs := by
  rw [← String.toList_inj, String.toList_append, String.toList_ofList, h]

namespace TextMeaning

/-- How a text with a meaning is spelled. -/
def Spells : TextMeaning → String → Prop
  | .reference ⟨target, true⟩, s => s = "@?" ++ target
  | .reference ⟨target, false⟩, s => s = "@" ++ target ∧ ∀ rest, target ≠ "?" ++ rest
  | .interpolation expression, s => s = "%" ++ expression ++ "%" ∨ s = "%" ∧ expression = ""
  | .parameter name, s => s = "%" ++ name ∧ name ≠ "" ∧ ∀ rest, name ≠ rest ++ "%"
  | .tagged tag, s => s = "!tagged " ++ tag
  | .literal, s => ∀ rest, s ≠ "@" ++ rest ∧ s ≠ "%" ++ rest ∧ s ≠ "!tagged " ++ rest

theorem closes_iff {name : List Char} :
    ('%' :: name).getLast? = some '%' ↔ name = [] ∨ ∃ front, name = front ++ ['%'] := by
  rw [List.getLast?_eq_some_iff]
  constructor
  · rintro ⟨front, hfront⟩
    cases front with
    | nil => exact .inl (List.cons.inj hfront).2
    | cons c front => exact .inr ⟨front, (List.cons.inj hfront).2⟩
  · rintro (rfl | ⟨front, rfl⟩)
    · exact ⟨[], rfl⟩
    · exact ⟨'%' :: front, rfl⟩

theorem isPrefixOf_tagMarker_iff {s : String} :
    tagMarker.toList.isPrefixOf s.toList = true ↔ ∃ tag, s = "!tagged " ++ tag := by
  rw [List.isPrefixOf_iff_prefix]
  constructor
  · rintro ⟨cs, hcs⟩
    exact ⟨_, eq_append_of_toList tagMarker hcs.symm⟩
  · rintro ⟨tag, rfl⟩
    rw [String.toList_append]
    exact List.prefix_append ..

theorem drop_tagMarker (tag : String) :
    String.ofList (("!tagged " ++ tag).toList.drop tagMarker.length) = tag := by
  have hdrop : (tagMarker.toList ++ tag.toList).drop tagMarker.length = tag.toList :=
    List.drop_left
  rw [String.toList_append]
  exact hdrop ▸ String.ofList_toList

theorem spells_of (s : String) : (of s).Spells s := by
  unfold of
  split
  · next target h => exact eq_append_of_toList "@?" h
  · next target hnot h =>
    refine ⟨eq_append_of_toList "@" h, fun rest heq => hnot rest.toList ?_⟩
    simpa using congrArg String.toList heq
  · next name h =>
    split
    · next hcloses =>
      obtain rfl | ⟨front, rfl⟩ := closes_iff.mp hcloses
      · exact .inr ⟨String.toList_inj.mp h, rfl⟩
      · refine .inl ?_
        rw [← String.toList_inj, h]
        simp
    · next hcloses =>
      refine ⟨eq_append_of_toList "%" h, fun hempty => hcloses (closes_iff.mpr ?_),
        fun rest heq => hcloses (closes_iff.mpr ?_)⟩
      · exact .inl (String.ofList_eq_empty_iff.mp hempty)
      · exact .inr ⟨rest.toList, by simpa using congrArg String.toList heq⟩
  · next hoptional hreference hpercent =>
    split
    · next htagged =>
      obtain ⟨tag, rfl⟩ := isPrefixOf_tagMarker_iff.mp htagged
      rw [drop_tagMarker]
      rfl
    · next htagged =>
      refine fun rest => ⟨?_, ?_, fun heq => htagged (isPrefixOf_tagMarker_iff.mpr ⟨rest, heq⟩)⟩
      · rintro rfl
        exact hreference rest.toList (by simp)
      · rintro rfl
        exact hpercent rest.toList (by simp)

theorem of_optional (target : String) : of ("@?" ++ target) = .reference ⟨target, true⟩ := by
  have hchars : ("@?" ++ target).toList = '@' :: '?' :: target.toList := by simp
  rw [of, hchars]
  simp only [String.ofList_toList]

theorem of_reference {target : String} (h : ∀ rest, target ≠ "?" ++ rest) :
    of ("@" ++ target) = .reference ⟨target, false⟩ := by
  have hchars : ("@" ++ target).toList = '@' :: target.toList := by simp
  rw [of, hchars]
  split
  · next rest heq =>
    have hrest : target.toList = '?' :: rest := (List.cons.inj heq).2
    exact absurd (eq_append_of_toList "?" hrest) (h _)
  · next rest _ heq => rw [← (List.cons.inj heq).2, String.ofList_toList]
  · next rest heq => exact absurd (List.cons.inj heq).1 (by decide)
  · next hnot _ => exact absurd rfl (hnot _)

theorem of_parameter {name : String} (hne : name ≠ "") (h : ∀ rest, name ≠ rest ++ "%") :
    of ("%" ++ name) = .parameter name := by
  have hchars : ("%" ++ name).toList = '%' :: name.toList := by simp
  have hcloses : ('%' :: name.toList).getLast? ≠ some '%' := by
    rw [Ne, closes_iff]
    rintro (hempty | ⟨front, hfront⟩)
    · exact hne (String.toList_eq_nil_iff.mp hempty)
    · refine h (String.ofList front) ?_
      rw [← String.toList_inj, hfront]
      simp
  rw [of, hchars]
  simp only [if_neg hcloses, String.ofList_toList]

theorem of_tagged (tag : String) : of ("!tagged " ++ tag) = .tagged tag := by
  have hhead : ("!tagged " ++ tag).toList.head? = some '!' := by simp
  unfold of
  split
  · next hchars => simp [hchars] at hhead
  · next hchars => simp [hchars] at hhead
  · next hchars => simp [hchars] at hhead
  · rw [if_pos (isPrefixOf_tagMarker_iff.mpr ⟨tag, rfl⟩), drop_tagMarker]

theorem of_literal {s : String}
    (h : ∀ rest, s ≠ "@" ++ rest ∧ s ≠ "%" ++ rest ∧ s ≠ "!tagged " ++ rest) :
    of s = .literal := by
  unfold of
  split
  · next target hchars => exact absurd (eq_append_of_toList "@" hchars) (h _).1
  · next target _ hchars => exact absurd (eq_append_of_toList "@" hchars) (h _).1
  · next name hchars => exact absurd (eq_append_of_toList "%" hchars) (h _).2.1
  · refine if_neg fun htagged => ?_
    obtain ⟨tag, htag⟩ := isPrefixOf_tagMarker_iff.mp htagged
    exact (h tag).2.2 htag

theorem of_eq_of_spells {m : TextMeaning} {s : String} (h : m.Spells s) : of s = m := by
  cases m with
  | reference r =>
    obtain ⟨target, optional⟩ := r
    cases optional with
    | true =>
      rw [show s = "@?" ++ target from h]
      exact of_optional target
    | false =>
      rw [h.1]
      exact of_reference h.2
  | interpolation expression =>
    obtain rfl | ⟨rfl, rfl⟩ := h
    · exact of_enclosed expression
    · rfl
  | parameter name =>
    obtain ⟨rfl, hne, hlast⟩ := h
    exact of_parameter hne hlast
  | tagged tag =>
    rw [show s = "!tagged " ++ tag from h]
    exact of_tagged tag
  | literal => exact of_literal h

end TextMeaning

def NamesVariable (expression name : String) : Prop :=
  expression = "env(" ++ name ++ ")" ∧ name ≠ "" ∧ '(' ∉ name.toList ∧ ')' ∉ name.toList

theorem variableName?_eq_some_iff {expression name : String} :
    variableName? expression = some name ↔ NamesVariable expression name := by
  constructor
  · intro h
    unfold variableName? at h
    split at h
    · next cs hchars =>
      dsimp only at h
      split at h
      · next hname =>
        obtain ⟨hlast, hne, hopen, hclose⟩ := hname
        cases h
        obtain ⟨front, rfl⟩ := List.getLast?_eq_some_iff.mp hlast
        rw [List.dropLast_concat] at hne hopen hclose ⊢
        refine ⟨?_, fun hempty => hne (String.ofList_eq_empty_iff.mp hempty), ?_, ?_⟩
        · rw [← String.toList_inj, hchars]
          simp
        · rwa [String.toList_ofList]
        · rwa [String.toList_ofList]
      · cases h
    · cases h
  · rintro ⟨rfl, hne, hopen, hclose⟩
    have hchars : ("env(" ++ name ++ ")").toList =
        'e' :: 'n' :: 'v' :: '(' :: (name.toList ++ [')']) := by simp
    have hname : name.toList ≠ [] := fun hempty => hne (String.toList_eq_nil_iff.mp hempty)
    rw [variableName?, hchars]
    simp only [List.dropLast_concat, List.getLast?_concat]
    rw [if_pos ⟨trivial, hname, hopen, hclose⟩, String.ofList_toList]

namespace Scope

/-- What an interpolated expression stands for: the text of a variable, or null where the variable
is not set, and the value of a parameter where no variable is named. -/
inductive Denotes (scope : Scope) : String → Value → Prop where
  | environment {expression name : String} (h : NamesVariable expression name) :
      Denotes scope expression ((scope.fromEnvironment? name).elim .null .text)
  | parameter {expression : String} {v : Value} (h : ∀ name, ¬ NamesVariable expression name)
      (hv : scope.fromParameters? expression = some v) : Denotes scope expression v

/-- The arguments that a text with a meaning is read as. What is interpolated is not read again. -/
def Means (scope : Scope) (s : String) : TextMeaning → Argument → Prop
  | .reference r, a => a = .reference r
  | .interpolation expression, a => ∃ v, scope.Denotes expression v ∧ a = .literal v
  | .parameter name, a => a = .parameter name
  | .tagged tag, a => a = .tagged tag
  | .literal, a => a = .literal (.text s)

/-- The arguments that a value is read as. -/
inductive Reads (scope : Scope) : Value → Argument → Prop where
  | text {s : String} {m : TextMeaning} {a : Argument} (hm : m.Spells s) (ha : scope.Means s m a) :
      Reads scope (.text s) a
  | scalar {s : Scalar} (h : ∀ t, s ≠ .text t) : Reads scope (.scalar s) (.literal (.scalar s))
  | set (members : List Scalar) : Reads scope (.set members) (.literal (.set members))
  | list {vs : List Value} {as : List Argument} (h : List.Forall₂ (Reads scope) vs as) :
      Reads scope (.list vs) (.list as)
  | map {es : List (Scalar × Value)} {fs : List (Scalar × Argument)}
      (hkeys : fs.map Prod.fst = es.map Prod.fst)
      (h : List.Forall₂ (Reads scope) (es.map Prod.snd) (fs.map Prod.snd)) :
      Reads scope (.map es) (.map fs)

variable {scope : Scope}

theorem interpolate_eq_ok_iff {expression : String} {v : Value} :
    (scope.interpolate expression).result = .ok v ↔ scope.Denotes expression v := by
  cases hvariable : variableName? expression with
  | some name =>
    have hnames := variableName?_eq_some_iff.mp hvariable
    have hresult : (scope.interpolate expression).result =
        .ok ((scope.fromEnvironment? name).elim .null .text) := by
      simp only [interpolate, hvariable]
      cases scope.fromEnvironment? name <;> rfl
    rw [hresult]
    constructor
    · intro h
      cases h
      exact .environment hnames
    · intro h
      cases h with
      | environment hother =>
        rw [variableName?_eq_some_iff.mpr hother] at hvariable
        cases hvariable
        rfl
      | parameter hnot _ => exact absurd hnames (hnot name)
  | none =>
    have hnot : ∀ name, ¬ NamesVariable expression name := by
      intro name hnames
      rw [variableName?_eq_some_iff.mpr hnames] at hvariable
      cases hvariable
    have hresult : (scope.interpolate expression).result = .ok v ↔
        scope.fromParameters? expression = some v := by
      simp only [interpolate, hvariable]
      cases scope.fromParameters? expression <;> simp
    rw [hresult]
    constructor
    · exact .parameter hnot
    · intro h
      cases h with
      | environment hnames => exact absurd hnames (hnot _)
      | parameter _ hv => exact hv

theorem readText_eq_ok_iff {s : String} {a : Argument} :
    (scope.readText s).result = .ok a ↔ scope.Reads (.text s) a := by
  have hmeans : (scope.readText s).result = .ok a ↔ scope.Means s (TextMeaning.of s) a := by
    unfold readText
    cases TextMeaning.of s with
    | interpolation expression =>
      show (_ <$> scope.interpolate expression).result = .ok a ↔ _
      simp only [Traced.map_eq_ok_iff, interpolate_eq_ok_iff, Means, eq_comm (a := a)]
    | _ => simp [Means, eq_comm]
  rw [hmeans]
  constructor
  · exact .text (TextMeaning.spells_of s)
  · intro h
    cases h with
    | text hm ha => rwa [TextMeaning.of_eq_of_spells hm]
    | scalar h => exact absurd rfl (h s)

mutual
theorem read_eq_ok_iff : ∀ (v : Value) {a : Argument},
    (scope.read v).result = .ok a ↔ scope.Reads v a
  | .scalar s, a => by
    cases s with
    | text s => exact readText_eq_ok_iff
    | _ =>
      constructor
      · intro h
        cases h
        exact .scalar nofun
      · intro h
        cases h
        rfl
  | .set ms, a => by
    constructor
    · intro h
      cases h
      exact .set ms
    · intro h
      cases h
      rfl
  | .list vs, a => by
    rw [read, Traced.map_eq_ok_iff]
    constructor
    · rintro ⟨as, has, rfl⟩
      exact .list ((readItems_eq_ok_iff vs).mp has)
    · intro h
      cases h with
      | list h => exact ⟨_, (readItems_eq_ok_iff vs).mpr h, rfl⟩
  | .map es, a => by
    rw [read, Traced.map_eq_ok_iff]
    constructor
    · rintro ⟨fs, hfs, rfl⟩
      obtain ⟨hkeys, h⟩ := (readEntries_eq_ok_iff es).mp hfs
      exact .map hkeys h
    · intro h
      cases h with
      | map hkeys h => exact ⟨_, (readEntries_eq_ok_iff es).mpr ⟨hkeys, h⟩, rfl⟩

theorem readItems_eq_ok_iff : ∀ (vs : List Value) {as : List Argument},
    (scope.readItems vs).result = .ok as ↔ List.Forall₂ scope.Reads vs as
  | [], as => by
    rw [readItems, List.forall₂_nil_left_iff, Traced.result_pure, Except.ok.injEq, eq_comm]
  | v :: vs, as => by
    rw [readItems, Traced.bind_eq_ok_iff]
    constructor
    · rintro ⟨a, ha, h⟩
      obtain ⟨rest, hrest, h⟩ := Traced.bind_eq_ok_iff.mp h
      cases h
      exact .cons ((read_eq_ok_iff v).mp ha) ((readItems_eq_ok_iff vs).mp hrest)
    · intro h
      cases h with
      | cons ha hrest =>
        refine ⟨_, (read_eq_ok_iff v).mpr ha, ?_⟩
        exact Traced.bind_eq_ok_iff.mpr ⟨_, (readItems_eq_ok_iff vs).mpr hrest, rfl⟩

theorem readEntries_eq_ok_iff : ∀ (es : List (Scalar × Value)) {fs : List (Scalar × Argument)},
    (scope.readEntries es).result = .ok fs ↔ fs.map Prod.fst = es.map Prod.fst ∧
      List.Forall₂ scope.Reads (es.map Prod.snd) (fs.map Prod.snd)
  | [], fs => by
    rw [readEntries, Traced.result_pure, Except.ok.injEq]
    constructor
    · rintro rfl
      exact ⟨rfl, .nil⟩
    · rintro ⟨hkeys, -⟩
      exact (List.map_eq_nil_iff.mp hkeys).symm
  | (k, v) :: es, fs => by
    rw [readEntries, Traced.bind_eq_ok_iff]
    constructor
    · rintro ⟨a, ha, h⟩
      obtain ⟨rest, hrest, h⟩ := Traced.bind_eq_ok_iff.mp h
      cases h
      obtain ⟨hkeys, hvalues⟩ := (readEntries_eq_ok_iff es).mp hrest
      exact ⟨congrArg (k :: ·) hkeys, .cons ((read_eq_ok_iff v).mp ha) hvalues⟩
    · rintro ⟨hkeys, hvalues⟩
      cases fs with
      | nil => cases hkeys
      | cons f fs =>
        obtain ⟨rfl, htail⟩ := List.cons.inj hkeys
        obtain ⟨ha, hrest⟩ := List.forall₂_cons.mp hvalues
        refine ⟨f.2, (read_eq_ok_iff v).mpr ha, ?_⟩
        exact Traced.bind_eq_ok_iff.mpr
          ⟨fs, (readEntries_eq_ok_iff es).mpr ⟨htail, hrest⟩, rfl⟩
end

/-- Every text has exactly one meaning, told by how it is spelled, and a value is read as an
argument exactly where its texts have what they mean, at every depth. -/
theorem read_by_spelling (scope : Scope) :
    (∀ s, ∃! m : TextMeaning, m.Spells s) ∧
      ∀ v a, (scope.read v).result = .ok a ↔ scope.Reads v a := by
  refine ⟨fun s => ?_, fun v a => read_eq_ok_iff v⟩
  exact ⟨TextMeaning.of s, TextMeaning.spells_of s,
    fun m hm => (TextMeaning.of_eq_of_spells hm).symm⟩

end Scope
end Wiring
