import Wiring.Proofs.Argument.Spelling
import Wiring.Proofs.Compile.Slots

/-! The variables that compiling a service reads. Only a text that names one in a compiled part of
a record counts, so two environments that agree on these names compile the service alike. -/
namespace Wiring

/-- A text inside the value stands for the variable. -/
def Value.ReadsVariable (v : Value) (name : String) : Prop :=
  ∃ way expression, NamesVariable expression name ∧
    v.at? way = some (.text ("%" ++ expression ++ "%"))

namespace ServiceRecord

def HasClass (r : ServiceRecord) : Prop :=
  ∃ specifier, r.className = some specifier ∧ specifier ≠ ""

/-- A text stands for the variable where compiling the record reads it: among the arguments of a
record with a factory or a class, or in the properties and calls of one with a class. -/
def ReadsVariable (r : ServiceRecord) (name : String) : Prop :=
  (r.factory ≠ none ∨ r.HasClass) ∧
    ∃ slot v, r.Reads slot ∧ r.slot? slot = some v ∧ v.ReadsVariable name

end ServiceRecord

def ServiceEntry.ReadsVariable : ServiceEntry → String → Prop
  | .alias _, _ => False
  | .record r, name => r.ReadsVariable name

def Document.ReadsVariable (d : Document) (name : String) : Prop :=
  ∃ id entry, d.services.get? id = some entry ∧ entry.ReadsVariable name

theorem Value.ReadsVariable.of_part {v part : Value} {name : String}
    (h : part.ReadsVariable name) (hpart : part ∈ v.parts) : v.ReadsVariable name := by
  obtain ⟨way, expression, hnames, hs⟩ := h
  obtain ⟨n, hn⟩ := List.mem_iff_getElem?.mp hpart
  exact ⟨n :: way, expression, hnames, by rw [at?, hn, Option.bind_some, hs]⟩

/-- Both scopes have the same parameters, and the same variables of some names. -/
structure Scope.AgreesOn (scope' scope : Scope) (names : String → Prop) : Prop where
  parameters : scope'.fromParameters? = scope.fromParameters?
  environment : ∀ name, names name → scope'.fromEnvironment? name = scope.fromEnvironment? name

namespace Scope
variable {scope scope' : Scope}

theorem AgreesOn.mono {names names' : String → Prop} (h : scope'.AgreesOn scope names)
    (hsub : ∀ name, names' name → names name) : scope'.AgreesOn scope names' :=
  ⟨h.parameters, fun name hname => h.environment name (hsub name hname)⟩

theorem interpolate_congr {expression : String}
    (h : scope'.AgreesOn scope (NamesVariable expression)) :
    scope'.interpolate expression = scope.interpolate expression := by
  unfold interpolate
  cases hvariable : variableName? expression with
  | some name =>
    have hname := h.environment name (variableName?_eq_some_iff.mp hvariable)
    simp only [hname]
  | none => simp only [h.parameters]

theorem readText_congr {s : String} (h : scope'.AgreesOn scope (Value.text s).ReadsVariable) :
    scope'.readText s = scope.readText s := by
  unfold readText
  have hspelled := TextMeaning.spells_of s
  cases hm : TextMeaning.of s with
  | interpolation expression =>
    rw [hm] at hspelled
    have hexpression : scope'.interpolate expression = scope.interpolate expression := by
      refine interpolate_congr (h.mono fun name hname => ?_)
      obtain rfl | ⟨-, rfl⟩ := hspelled
      · exact ⟨[], expression, hname, rfl⟩
      · exact absurd (congrArg String.toList hname.1) (by simp)
    simp only [hexpression]
  | _ => rfl

mutual
theorem read_congr : ∀ v, scope'.AgreesOn scope v.ReadsVariable → scope'.read v = scope.read v
  | .scalar s, h => by
    cases s with
    | text s => exact readText_congr h
    | _ => rfl
  | .set _, _ => rfl
  | .list vs, h => by
    have hitems := readItems_congr vs fun _ hv => h.mono fun _ hname => hname.of_part hv
    rw [read, read, hitems]
  | .map es, h => by
    have hentries := readEntries_congr es fun _ he =>
      h.mono fun _ hname => hname.of_part (List.mem_map_of_mem he)
    rw [read, read, hentries]

theorem readItems_congr : ∀ vs, (∀ v ∈ vs, scope'.AgreesOn scope v.ReadsVariable) →
    scope'.readItems vs = scope.readItems vs
  | [], _ => rfl
  | v :: vs, h => by
    have hfirst := read_congr v (h v (List.mem_cons_self ..))
    have hrest := readItems_congr vs fun w hw => h w (List.mem_cons_of_mem _ hw)
    rw [readItems, readItems, hfirst, hrest]

theorem readEntries_congr : ∀ es : List (Scalar × Value),
    (∀ e ∈ es, scope'.AgreesOn scope e.2.ReadsVariable) →
      scope'.readEntries es = scope.readEntries es
  | [], _ => rfl
  | (k, v) :: es, h => by
    have hfirst := read_congr v (h (k, v) (List.mem_cons_self ..))
    have hrest := readEntries_congr es fun e he => h e (List.mem_cons_of_mem _ he)
    rw [readEntries, readEntries, hfirst, hrest]
end

theorem readValues_congr {κ : Type} {es : List (κ × Value)}
    (h : ∀ e ∈ es, scope'.AgreesOn scope e.2.ReadsVariable) :
    scope'.readValues es = scope.readValues es := by
  rw [readValues, readValues, readItems_congr _ (List.forall_mem_map.mpr h)]

end Scope

namespace Surroundings
variable {σ : Type} {c : Surroundings σ} {scope : Scope}

theorem readCalls_congr {calls : List CallRecord}
    (h : ∀ call ∈ calls, ∀ v ∈ call.arguments, scope.AgreesOn c.scope v.ReadsVariable) :
    { c with scope }.readCalls calls = c.readCalls calls := by
  induction calls with
  | nil => rfl
  | cons call calls ih =>
    have hfirst := Scope.readItems_congr call.arguments (h call (List.mem_cons_self ..))
    have hrest := ih fun other hother => h other (List.mem_cons_of_mem _ hother)
    rw [readCalls, readCalls, hrest]
    simp only [hfirst]

/-- A service compiles alike, to the same outcome and with the same events, under all variables
that agree where it reads them. -/
theorem compile_congr {entry : ServiceEntry} (h : scope.AgreesOn c.scope entry.ReadsVariable)
    (id baseDir : String) :
    { c with scope }.compile id entry baseDir = c.compile id entry baseDir := by
  cases entry with
  | «alias» text => rfl
  | record r =>
    have hslot (hmade : r.factory ≠ none ∨ r.HasClass) : ∀ slot v, r.Reads slot →
        r.slot? slot = some v → scope.AgreesOn c.scope v.ReadsVariable :=
      fun slot v hreads hv => h.mono fun name hname => ⟨hmade, slot, v, hreads, hv, hname⟩
    have harguments (hmade : r.factory ≠ none ∨ r.HasClass) (hreads : ∀ n, r.Reads (.argument n)) :
        scope.readItems r.arguments = c.scope.readItems r.arguments := by
      refine Scope.readItems_congr _ fun v hv => ?_
      obtain ⟨n, hn⟩ := List.mem_iff_getElem?.mp hv
      exact hslot hmade (.argument n) v (hreads n) hn
    have hrecord : { c with scope }.compileRecord id r baseDir = c.compileRecord id r baseDir := by
      unfold compileRecord
      split
      · next f hfactory =>
        have hmade : r.factory ≠ none := by simp [hfactory]
        unfold compileFactory
        simp only [harguments (.inl hmade) fun n => .inl hmade]
        rfl
      · next hfactory =>
        split
        · rfl
        · next hsynthetic =>
          split
          · rfl
          · rfl
          · next specifier hne hclass =>
            have hmade : r.factory ≠ none ∨ r.HasClass := .inr ⟨specifier, hclass, hne⟩
            have hproperties : scope.readValues r.properties.entries =
                c.scope.readValues r.properties.entries :=
              Scope.readValues_congr fun e he =>
                hslot hmade (.property e.1) e.2 ⟨hfactory, hsynthetic⟩ (Table.mem_entries_iff.mp he)
            have hcalls : { c with scope }.readCalls r.calls = c.readCalls r.calls := by
              refine readCalls_congr fun call hcall v hv => ?_
              obtain ⟨i, hi⟩ := List.mem_iff_getElem?.mp hcall
              obtain ⟨n, hn⟩ := List.mem_iff_getElem?.mp hv
              exact hslot hmade (.callArgument i n) v ⟨hfactory, hsynthetic⟩
                (by rw [ServiceRecord.slot?, hi, Option.bind_some, hn])
            unfold compileClass
            simp only [harguments hmade fun n => .inr hsynthetic, hproperties, hcalls]
            rfl
    rw [compile, compile, hrecord]

end Surroundings
end Wiring
