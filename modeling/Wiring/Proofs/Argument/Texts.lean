import Wiring.Proofs.Argument.Spelling

/-! What reading a value fails with and what it warns of, told by the texts of the value from left
to right. The first text that asks for a parameter which is not set ends the reading. -/
namespace Wiring

namespace Value

mutual
/-- The texts in a value, from left to right. Keys and members of sets are not among them. -/
def texts : Value → List String
  | .scalar (.text s) => [s]
  | .scalar _ | .set _ => []
  | .list vs => textsOfItems vs
  | .map es => textsOfEntries es
def textsOfItems : List Value → List String
  | [] => []
  | v :: vs => v.texts ++ textsOfItems vs
def textsOfEntries : List (Scalar × Value) → List String
  | [] => []
  | (_, v) :: es => v.texts ++ textsOfEntries es
end

theorem mem_textsOfItems_iff {vs : List Value} {s : String} :
    s ∈ textsOfItems vs ↔ ∃ v ∈ vs, s ∈ v.texts := by
  induction vs with
  | nil => simp [textsOfItems]
  | cons v vs ih => simp [textsOfItems, ih]

theorem mem_textsOfEntries_iff {es : List (Scalar × Value)} {s : String} :
    s ∈ textsOfEntries es ↔ ∃ e ∈ es, s ∈ e.2.texts := by
  induction es with
  | nil => simp [textsOfEntries]
  | cons e es ih => simp [textsOfEntries, ih]

theorem textsOfItems_append (vs ws : List Value) :
    textsOfItems (vs ++ ws) = textsOfItems vs ++ textsOfItems ws := by
  induction vs with
  | nil => rfl
  | cons v vs ih =>
    rw [List.cons_append, textsOfItems, ih, textsOfItems, List.append_assoc]

theorem mem_texts_of_mem_parts {v part : Value} {s : String} (hpart : part ∈ v.parts)
    (h : s ∈ part.texts) : s ∈ v.texts := by
  cases v with
  | list vs => exact mem_textsOfItems_iff.mpr ⟨part, hpart, h⟩
  | map es =>
    obtain ⟨e, he, rfl⟩ := List.mem_map.mp hpart
    exact mem_textsOfEntries_iff.mpr ⟨e, he, h⟩
  | scalar s => cases hpart
  | set ms => cases hpart

theorem mem_texts_of_at? {v : Value} {way : List Nat} {s : String}
    (h : v.at? way = some (.text s)) : s ∈ v.texts := by
  induction way generalizing v with
  | nil =>
    cases h
    exact List.mem_singleton_self s
  | cons n way ih =>
    obtain ⟨part, hn, hway⟩ := Option.bind_eq_some_iff.mp h
    exact mem_texts_of_mem_parts (List.mem_of_getElem? hn) (ih hway)

theorem exists_at?_of_mem_parts {v part leaf : Value} (hpart : part ∈ v.parts)
    (h : ∃ way, part.at? way = some leaf) : ∃ way, v.at? way = some leaf := by
  obtain ⟨way, hway⟩ := h
  obtain ⟨n, hn⟩ := List.mem_iff_getElem?.mp hpart
  exact ⟨n :: way, by rw [at?, hn, Option.bind_some, hway]⟩

mutual
theorem exists_at?_of_mem_texts {s : String} :
    ∀ v : Value, s ∈ v.texts → ∃ way, v.at? way = some (.text s)
  | .scalar t, h => by
    cases t with
    | text t =>
      obtain rfl := List.mem_singleton.mp h
      exact ⟨[], rfl⟩
    | _ => cases h
  | .set _, h => by cases h
  | .list vs, h => by
    obtain ⟨v, hv, hway⟩ := exists_at?_of_mem_textsOfItems vs h
    exact exists_at?_of_mem_parts hv hway
  | .map es, h => by
    obtain ⟨e, he, hway⟩ := exists_at?_of_mem_textsOfEntries es h
    exact exists_at?_of_mem_parts (List.mem_map_of_mem he) hway

theorem exists_at?_of_mem_textsOfItems {s : String} : ∀ vs : List Value, s ∈ textsOfItems vs →
    ∃ v ∈ vs, ∃ way, v.at? way = some (.text s)
  | [], h => by cases h
  | v :: vs, h => by
    obtain h | h := List.mem_append.mp h
    · exact ⟨v, List.mem_cons_self .., exists_at?_of_mem_texts v h⟩
    · obtain ⟨w, hw, hway⟩ := exists_at?_of_mem_textsOfItems vs h
      exact ⟨w, List.mem_cons_of_mem _ hw, hway⟩

theorem exists_at?_of_mem_textsOfEntries {s : String} : ∀ es : List (Scalar × Value),
    s ∈ textsOfEntries es → ∃ e ∈ es, ∃ way, e.2.at? way = some (.text s)
  | [], h => by cases h
  | (k, v) :: es, h => by
    obtain h | h := List.mem_append.mp h
    · exact ⟨(k, v), List.mem_cons_self .., exists_at?_of_mem_texts v h⟩
    · obtain ⟨e, he, hway⟩ := exists_at?_of_mem_textsOfEntries es h
      exact ⟨e, List.mem_cons_of_mem _ he, hway⟩
end

theorem mem_texts_iff {v : Value} {s : String} : s ∈ v.texts ↔ ∃ way, v.at? way = some (.text s) :=
  ⟨exists_at?_of_mem_texts v, fun ⟨_, h⟩ => mem_texts_of_at? h⟩

end Value

namespace Scope
variable {scope : Scope}

/-- The text asks for a parameter that is not set, by `%name%` or, for the empty name, by a lone
`%`. -/
def Lacks (scope : Scope) (s name : String) : Prop :=
  (TextMeaning.interpolation name).Spells s ∧ (∀ other, ¬ NamesVariable name other) ∧
    scope.fromParameters? name = none

def Misses (scope : Scope) (s name : String) : Prop :=
  ∃ expression, s = "%" ++ expression ++ "%" ∧ NamesVariable expression name ∧
    scope.fromEnvironment? name = none

def lackedParameter? (scope : Scope) (s : String) : Option String :=
  match TextMeaning.of s with
  | .interpolation expression =>
    if variableName? expression = none ∧ scope.fromParameters? expression = none then
      some expression
    else none
  | _ => none

def missedVariable? (scope : Scope) (s : String) : Option String :=
  match TextMeaning.of s with
  | .interpolation expression =>
    (variableName? expression).filter fun name => scope.fromEnvironment? name = none
  | _ => none

def warnings (scope : Scope) (texts : List String) : List Event :=
  (texts.filterMap scope.missedVariable?).map fun name => .log (.variableNotSet name)

theorem warnings_append (ss ts : List String) :
    scope.warnings (ss ++ ts) = scope.warnings ss ++ scope.warnings ts := by
  simp only [warnings, List.filterMap_append, List.map_append]

theorem variableName?_eq_none_iff {expression : String} :
    variableName? expression = none ↔ ∀ name, ¬ NamesVariable expression name := by
  simp only [← variableName?_eq_some_iff, Option.eq_none_iff_forall_ne_some]

theorem lackedParameter?_eq_some_iff {s name : String} :
    scope.lackedParameter? s = some name ↔ scope.Lacks s name := by
  unfold lackedParameter?
  constructor
  · intro h
    have hspelled := TextMeaning.spells_of s
    split at h
    · next expression hm =>
      rw [hm] at hspelled
      split at h
      · next hlacks =>
        cases h
        exact ⟨hspelled, variableName?_eq_none_iff.mp hlacks.1, hlacks.2⟩
      · cases h
    · cases h
  · rintro ⟨hspelled, hnames, hunset⟩
    rw [TextMeaning.of_eq_of_spells hspelled]
    exact if_pos ⟨variableName?_eq_none_iff.mpr hnames, hunset⟩

theorem lackedParameter?_eq_none_of_forall {text : String}
    (h : ∀ name, ¬ scope.Lacks text name) : scope.lackedParameter? text = none :=
  Option.eq_none_iff_forall_ne_some.mpr fun name hname =>
    h name (lackedParameter?_eq_some_iff.mp hname)

theorem missedVariable?_eq_some_iff {s name : String} :
    scope.missedVariable? s = some name ↔ scope.Misses s name := by
  unfold missedVariable?
  constructor
  · intro h
    have hspelled := TextMeaning.spells_of s
    split at h
    · next expression hm =>
      rw [hm] at hspelled
      obtain ⟨hname, hunset⟩ := Option.filter_eq_some_iff.mp h
      have hnames := variableName?_eq_some_iff.mp hname
      obtain hspelled | ⟨-, rfl⟩ := hspelled
      · exact ⟨expression, hspelled, hnames, of_decide_eq_true hunset⟩
      · exact absurd (congrArg String.toList hnames.1) (by simp)
    · cases h
  · rintro ⟨expression, rfl, hnames, hunset⟩
    rw [TextMeaning.of_enclosed]
    exact Option.filter_eq_some_iff.mpr
      ⟨variableName?_eq_some_iff.mpr hnames, decide_eq_true hunset⟩

theorem readText_cases (s : String) :
    (∃ a, scope.readText s = ⟨.ok a, scope.warnings [s]⟩ ∧ scope.lackedParameter? s = none) ∨
      ∃ name, scope.readText s = ⟨.error (.unresolved name (some .parameterNotSet)), []⟩ ∧
        scope.lackedParameter? s = some name := by
  cases hm : TextMeaning.of s with
  | interpolation expression =>
    have hread : scope.readText s = .literal <$> scope.interpolate expression := by
      rw [readText, hm]
    cases hvariable : variableName? expression with
    | some name =>
      have hlacked : scope.lackedParameter? s = none := by simp [lackedParameter?, hm, hvariable]
      cases henvironment : scope.fromEnvironment? name with
      | some value =>
        have hwarnings : scope.warnings [s] = [] := by
          simp [warnings, missedVariable?, hm, hvariable, henvironment]
        refine .inl ⟨.literal (.text value), ?_, hlacked⟩
        rw [hread, hwarnings, interpolate, hvariable]
        simp only [henvironment]
        rfl
      | none =>
        have hmissed : scope.missedVariable? s = some name := by
          simp [missedVariable?, hm, hvariable, henvironment]
        have hwarnings : scope.warnings [s] = [.log (.variableNotSet name)] := by
          simp [warnings, hmissed]
        refine .inl ⟨.literal .null, ?_, hlacked⟩
        rw [hread, hwarnings, interpolate, hvariable]
        simp only [henvironment]
        rfl
    | none =>
      have hwarnings : scope.warnings [s] = [] := by
        simp [warnings, missedVariable?, hm, hvariable]
      cases hparameter : scope.fromParameters? expression with
      | some value =>
        refine .inl ⟨.literal value, ?_, by simp [lackedParameter?, hm, hparameter]⟩
        rw [hread, hwarnings, interpolate, hvariable]
        simp only [hparameter]
        rfl
      | none =>
        refine .inr ⟨expression, ?_, by simp [lackedParameter?, hm, hvariable, hparameter]⟩
        rw [hread, interpolate, hvariable]
        simp only [hparameter]
        rfl
  | reference r | parameter name | tagged tag | literal =>
    have hwarnings : scope.warnings [s] = [] := by simp [warnings, missedVariable?, hm]
    obtain ⟨a, hread⟩ : ∃ a, scope.readText s = ⟨.ok a, []⟩ := by
      rw [readText, hm]
      exact ⟨_, rfl⟩
    exact .inl ⟨a, by rw [hwarnings, hread], by simp [lackedParameter?, hm]⟩

def readTexts (scope : Scope) : List String → Traced Unit
  | [] => pure ()
  | s :: ss => do
    let _ ← scope.readText s
    scope.readTexts ss

theorem readTexts_append (ss ts : List String) :
    scope.readTexts (ss ++ ts) = (do scope.readTexts ss; scope.readTexts ts) := by
  induction ss with
  | nil => rfl
  | cons s ss ih => simp only [List.cons_append, readTexts, ih, bind_assoc]

mutual
/-- Reading a value fails and warns as reading its texts does. -/
theorem discard_read : ∀ v : Value, (fun _ => ()) <$> scope.read v = scope.readTexts v.texts
  | .scalar s => by
    cases s with
    | text s => simp only [read, Value.texts, readTexts, map_eq_pure_bind]
    | _ => rfl
  | .set _ => rfl
  | .list vs => by
    rw [read, Value.texts, ← discard_readItems vs, Functor.map_map]
  | .map es => by
    rw [read, Value.texts, ← discard_readEntries es, Functor.map_map]

theorem discard_readItems : ∀ vs : List Value,
    (fun _ => ()) <$> scope.readItems vs = scope.readTexts (Value.textsOfItems vs)
  | [] => rfl
  | v :: vs => by
    rw [readItems, Value.textsOfItems, readTexts_append, ← discard_read v, ← discard_readItems vs]
    simp only [map_eq_pure_bind, bind_assoc, pure_bind]

theorem discard_readEntries : ∀ es : List (Scalar × Value),
    (fun _ => ()) <$> scope.readEntries es = scope.readTexts (Value.textsOfEntries es)
  | [] => rfl
  | (k, v) :: es => by
    rw [readEntries, Value.textsOfEntries, readTexts_append, ← discard_read v,
      ← discard_readEntries es]
    simp only [map_eq_pure_bind, bind_assoc, pure_bind]
end

theorem discard_readValues {κ : Type} (es : List (κ × Value)) :
    (fun _ => ()) <$> scope.readValues es =
      scope.readTexts (Value.textsOfItems (es.map Prod.snd)) := by
  rw [readValues, Functor.map_map, discard_readItems]

theorem readTexts_append_of_clear {ss : List String}
    (h : ∀ s ∈ ss, scope.lackedParameter? s = none) (ts : List String) :
    scope.readTexts (ss ++ ts) =
      ⟨(scope.readTexts ts).result, scope.warnings ss ++ (scope.readTexts ts).events⟩ := by
  induction ss with
  | nil => rfl
  | cons s ss ih =>
    have hrest := ih fun t ht => h t (List.mem_cons_of_mem s ht)
    have hs := h s (List.mem_cons_self ..)
    obtain ⟨a, hread, -⟩ | ⟨name, -, hlacked⟩ := scope.readText_cases s
    · have hwarnings : scope.warnings (s :: ss) = scope.warnings [s] ++ scope.warnings ss :=
        warnings_append [s] ss
      rw [List.cons_append, readTexts, hread, hrest, hwarnings, List.append_assoc]
      rfl
    · rw [hs] at hlacked
      cases hlacked

theorem readTexts_of_clear {ss : List String} (h : ∀ s ∈ ss, scope.lackedParameter? s = none) :
    scope.readTexts ss = ⟨.ok (), scope.warnings ss⟩ := by
  have hall := readTexts_append_of_clear h []
  rw [List.append_nil] at hall
  rw [hall]
  simp [readTexts, Pure.pure]

theorem readTexts_of_lacked {before after : List String} {s name : String}
    (hbefore : ∀ t ∈ before, scope.lackedParameter? t = none)
    (hs : scope.lackedParameter? s = some name) : scope.readTexts (before ++ s :: after) =
      ⟨.error (.unresolved name (some .parameterNotSet)), scope.warnings before⟩ := by
  obtain ⟨a, -, hclear⟩ | ⟨other, hread, hlacked⟩ := scope.readText_cases s
  · rw [hs] at hclear
    cases hclear
  · obtain rfl : name = other := Option.some.inj (hs.symm.trans hlacked)
    have hstop : scope.readTexts (s :: after) =
        ⟨.error (.unresolved name (some .parameterNotSet)), []⟩ := by
      rw [readTexts, hread]
      rfl
    rw [readTexts_append_of_clear hbefore, hstop, List.append_nil]

theorem result_read (v : Value) :
    ((scope.read v).result.map fun _ => ()) = (scope.readTexts v.texts).result := by
  rw [← discard_read v, ← bind_pure_comp, Traced.result_bind]
  cases (scope.read v).result <;> rfl

theorem events_read (v : Value) : (scope.read v).events = (scope.readTexts v.texts).events := by
  rw [← discard_read v, ← bind_pure_comp]
  show _ = (Traced.bind _ _).events
  unfold Traced.bind
  cases (scope.read v).result <;> simp [Pure.pure]

theorem read_of_lacked {v : Value} {before after : List String} {s name : String}
    (htexts : v.texts = before ++ s :: after)
    (hbefore : ∀ t ∈ before, ∀ other, ¬ scope.Lacks t other) (hs : scope.Lacks s name) :
    (scope.read v).result = .error (.unresolved name (some .parameterNotSet)) ∧
      (scope.read v).events = scope.warnings before := by
  have hrun : scope.readTexts (before ++ s :: after) =
      ⟨.error (.unresolved name (some .parameterNotSet)), scope.warnings before⟩ :=
    readTexts_of_lacked (fun t ht => lackedParameter?_eq_none_of_forall (hbefore t ht))
      (lackedParameter?_eq_some_iff.mpr hs)
  rw [← htexts] at hrun
  have hresult := scope.result_read v
  rw [hrun] at hresult
  refine ⟨?_, by rw [events_read, hrun]⟩
  cases hread : (scope.read v).result with
  | ok a =>
    rw [hread] at hresult
    cases hresult
  | error e =>
    rw [hread] at hresult
    cases hresult
    rfl

theorem read_of_clear {v : Value} (h : ∀ s ∈ v.texts, ∀ name, ¬ scope.Lacks s name) :
    (∃ a, (scope.read v).result = .ok a) ∧ (scope.read v).events = scope.warnings v.texts := by
  have hrun : scope.readTexts v.texts = ⟨.ok (), scope.warnings v.texts⟩ :=
    readTexts_of_clear fun s hs => lackedParameter?_eq_none_of_forall (h s hs)
  have hresult := scope.result_read v
  rw [hrun] at hresult
  refine ⟨?_, by rw [events_read, hrun]⟩
  cases hread : (scope.read v).result with
  | ok a => exact ⟨a, rfl⟩
  | error e =>
    rw [hread] at hresult
    cases hresult

theorem exists_first_lack {ss : List String} (h : ∃ s ∈ ss, ∃ name, scope.Lacks s name) :
    ∃ before s after name, ss = before ++ s :: after ∧
      (∀ t ∈ before, ∀ other, ¬ scope.Lacks t other) ∧ scope.Lacks s name := by
  obtain ⟨s, hs, name, hlacks⟩ := h
  have hfound : (ss.findSome? scope.lackedParameter?).isSome := by
    rw [List.findSome?_isSome_iff]
    exact ⟨s, hs, by rw [lackedParameter?_eq_some_iff.mpr hlacks]; rfl⟩
  obtain ⟨first, hfirst⟩ := Option.isSome_iff_exists.mp hfound
  obtain ⟨before, t, after, rfl, ht, hbefore⟩ := List.findSome?_eq_some_iff.mp hfirst
  refine ⟨before, t, after, first, rfl, fun u hu other hother => ?_,
    lackedParameter?_eq_some_iff.mp ht⟩
  have hnone := hbefore u hu
  rw [lackedParameter?_eq_some_iff.mpr hother] at hnone
  cases hnone

variable {texts before : List String} {name : String}

/-- Of the texts the first that asks for a parameter which is not set comes after these and asks
for this one. -/
def FirstLacks (scope : Scope) (texts before : List String) (name : String) : Prop :=
  ∃ text after, texts = before ++ text :: after ∧
    (∀ t ∈ before, ∀ other, ¬ scope.Lacks t other) ∧ scope.Lacks text name

theorem readTexts_of_firstLacks (h : scope.FirstLacks texts before name) :
    scope.readTexts texts =
      ⟨.error (.unresolved name (some .parameterNotSet)), scope.warnings before⟩ := by
  obtain ⟨text, after, rfl, hbefore, hlacks⟩ := h
  exact readTexts_of_lacked (fun t ht => lackedParameter?_eq_none_of_forall (hbefore t ht))
    (lackedParameter?_eq_some_iff.mpr hlacks)

theorem readTexts_of_no_lack (h : ∀ t ∈ texts, ∀ name, ¬ scope.Lacks t name) :
    scope.readTexts texts = ⟨.ok (), scope.warnings texts⟩ :=
  readTexts_of_clear fun t ht => lackedParameter?_eq_none_of_forall (h t ht)

theorem exists_firstLacks_of_error {e : Failure} {es : List Event}
    (h : scope.readTexts texts = ⟨.error e, es⟩) :
    ∃ before name, scope.FirstLacks texts before name ∧
      e = .unresolved name (some .parameterNotSet) ∧ es = scope.warnings before := by
  by_cases hlacks : ∃ t ∈ texts, ∃ name, scope.Lacks t name
  · obtain ⟨before, text, after, name, htexts, hbefore, hname⟩ := exists_first_lack hlacks
    have hfirst : scope.FirstLacks texts before name := ⟨text, after, htexts, hbefore, hname⟩
    rw [readTexts_of_firstLacks hfirst] at h
    cases h
    exact ⟨before, name, hfirst, rfl, rfl⟩
  · rw [readTexts_of_no_lack fun t ht name hname => hlacks ⟨t, ht, name, hname⟩] at h
    cases h

/-- Reading a value fails exactly where one of its texts asks for a parameter that is not set. The
first such text is blamed. What is warned of are the variables that are not set: those that the
texts before it ask for, and those that any text asks for where nothing fails. -/
theorem read_by_texts (scope : Scope) (v : Value) :
    ((∃ e, (scope.read v).result = .error e) ↔ ∃ s ∈ v.texts, ∃ name, scope.Lacks s name) ∧
    ((∃ before s after name, v.texts = before ++ s :: after ∧
        (∀ t ∈ before, ∀ other, ¬ scope.Lacks t other) ∧ scope.Lacks s name ∧
        (scope.read v).result = .error (.unresolved name (some .parameterNotSet)) ∧
        (scope.read v).events = scope.warnings before) ∨
      (∀ s ∈ v.texts, ∀ name, ¬ scope.Lacks s name) ∧ (∃ a, (scope.read v).result = .ok a) ∧
        (scope.read v).events = scope.warnings v.texts) ∧
    (∀ s, s ∈ v.texts ↔ ∃ way, v.at? way = some (.text s)) ∧
    ∀ s name, scope.missedVariable? s = some name ↔ scope.Misses s name := by
  refine ⟨?_, ?_, fun s => Value.mem_texts_iff, fun s name => missedVariable?_eq_some_iff⟩
  · constructor
    · rintro ⟨e, he⟩
      by_contra hnone
      have hclear : ∀ s ∈ v.texts, ∀ name, ¬ scope.Lacks s name :=
        fun s hs name hlacks => hnone ⟨s, hs, name, hlacks⟩
      obtain ⟨a, ha⟩ := (read_of_clear hclear).1
      rw [ha] at he
      cases he
    · intro h
      obtain ⟨before, s, after, name, htexts, hbefore, hs⟩ := exists_first_lack h
      exact ⟨_, (read_of_lacked htexts hbefore hs).1⟩
  · by_cases h : ∃ s ∈ v.texts, ∃ name, scope.Lacks s name
    · obtain ⟨before, s, after, name, htexts, hbefore, hs⟩ := exists_first_lack h
      exact .inl ⟨before, s, after, name, htexts, hbefore, hs, read_of_lacked htexts hbefore hs⟩
    · have hclear : ∀ s ∈ v.texts, ∀ name, ¬ scope.Lacks s name :=
        fun s hs name hlacks => h ⟨s, hs, name, hlacks⟩
      exact .inr ⟨hclear, read_of_clear hclear⟩

/-- A parameter that is null and a variable that is empty count as set. -/
example :
    let scope : Scope :=
      { fromParameters? := fun name => if name = "none" then some .null else none
        fromEnvironment? := fun name => if name = "BLANK" then some "" else none }
    let v : Value := .list [.text "%env(HOME)%", .text "%none%",
      .map [(.text "a", .text "%env(BLANK)%"), (.text "b", .text "%x%")], .text "%env(PATH)%"]
    (scope.read v).events = [.log (.variableNotSet "HOME")] ∧
      scope.lackedParameter? "%x%" = some "x" := by
  decide

end Scope
end Wiring
