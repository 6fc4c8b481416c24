import Wiring.Proofs.Argument.Spelling
import Wiring.Proofs.Compile.Slots

/-! The parameters that values and services look up. Where another scope has what one has under
these names, the values are read as the same arguments and the services compile to the same. -/
namespace Wiring

/-- A text inside the value stands for a parameter of that name, be it `%name%` or a lone `%`. -/
def Value.LooksUp (v : Value) (name : String) : Prop :=
  ∃ way s, v.at? way = some (.text s) ∧ (TextMeaning.interpolation name).Spells s ∧
    ∀ other, ¬ NamesVariable name other

def ServiceRecord.LooksUp (r : ServiceRecord) (name : String) : Prop :=
  ∃ slot v, r.Reads slot ∧ r.slot? slot = some v ∧ v.LooksUp name

def ServiceEntry.LooksUp : ServiceEntry → String → Prop
  | .alias _, _ => False
  | .record r, name => r.LooksUp name

def Document.LooksUp (d : Document) (name : String) : Prop :=
  ∃ id entry, d.services.get? id = some entry ∧ entry.LooksUp name

theorem Value.LooksUp.of_part {v part : Value} {name : String} (h : part.LooksUp name)
    (hpart : part ∈ v.parts) : v.LooksUp name := by
  obtain ⟨way, s, hs, hspelled⟩ := h
  obtain ⟨n, hn⟩ := List.mem_iff_getElem?.mp hpart
  exact ⟨n :: way, s, by rw [at?, hn, Option.bind_some, hs], hspelled⟩

/-- The first scope has what the second has under some names, and the same variables. -/
structure Scope.Covers (scope' scope : Scope) (names : String → Prop) : Prop where
  parameters : ∀ name, names name → ∀ v, scope.fromParameters? name = some v →
    scope'.fromParameters? name = some v
  environment : scope'.fromEnvironment? = scope.fromEnvironment?

namespace Scope
variable {scope scope' : Scope}

theorem Covers.mono {names names' : String → Prop} (h : scope'.Covers scope names)
    (hsub : ∀ name, names' name → names name) : scope'.Covers scope names' :=
  ⟨fun name hname => h.parameters name (hsub name hname), h.environment⟩

theorem readText_simulatedBy {s : String} (hc : scope'.Covers scope (Value.text s).LooksUp) :
    (scope.readText s).SimulatedBy (scope'.readText s) := by
  intro a h
  rw [readText_eq_ok_iff] at h ⊢
  cases h with
  | scalar h => exact absurd rfl (h s)
  | @text _ m _ hm ha =>
    refine .text hm ?_
    cases m with
    | interpolation expression =>
      obtain ⟨v, hv, rfl⟩ := ha
      refine ⟨v, ?_, rfl⟩
      cases hv with
      | environment h =>
        rw [← hc.environment]
        exact .environment h
      | parameter h hv =>
        have hlooked : (Value.text s).LooksUp expression := ⟨[], s, rfl, hm, h⟩
        exact .parameter h (hc.parameters _ hlooked _ hv)
    | _ => exact ha

mutual
theorem read_simulatedBy : ∀ v, scope'.Covers scope v.LooksUp →
    (scope.read v).SimulatedBy (scope'.read v)
  | .scalar s, hc => by
    cases s with
    | text s => exact readText_simulatedBy hc
    | _ => exact .refl _
  | .set ms, _ => .refl _
  | .list vs, hc =>
    .map _ (readItems_simulatedBy vs fun _ hv => hc.mono fun _ hname => hname.of_part hv)
  | .map es, hc =>
    .map _ (readEntries_simulatedBy es fun _ he =>
      hc.mono fun _ hname => hname.of_part (List.mem_map_of_mem he))

theorem readItems_simulatedBy : ∀ vs, (∀ v ∈ vs, scope'.Covers scope v.LooksUp) →
    (scope.readItems vs).SimulatedBy (scope'.readItems vs)
  | [], _ => .refl _
  | v :: vs, hc =>
    .bind (read_simulatedBy v (hc v (List.mem_cons_self ..))) fun _ =>
      .bind (readItems_simulatedBy vs fun w hw => hc w (List.mem_cons_of_mem _ hw)) fun _ => .refl _

theorem readEntries_simulatedBy : ∀ es : List (Scalar × Value),
    (∀ e ∈ es, scope'.Covers scope e.2.LooksUp) →
      (scope.readEntries es).SimulatedBy (scope'.readEntries es)
  | [], _ => .refl _
  | (k, v) :: es, hc =>
    .bind (read_simulatedBy v (hc (k, v) (List.mem_cons_self ..))) fun _ =>
      .bind (readEntries_simulatedBy es fun e he => hc e (List.mem_cons_of_mem _ he)) fun _ =>
        .refl _
end

theorem readValues_simulatedBy {κ : Type} {es : List (κ × Value)}
    (hc : ∀ e ∈ es, scope'.Covers scope e.2.LooksUp) :
    (scope.readValues es).SimulatedBy (scope'.readValues es) :=
  .map _ (readItems_simulatedBy _ (List.forall_mem_map.mpr hc))

end Scope

namespace Surroundings
variable {σ : Type} {c c' : Surroundings σ} {R : σ → σ → Prop}

theorem readCalls_simulatedBy {calls : List CallRecord}
    (hc : ∀ call ∈ calls, ∀ v ∈ call.arguments, c'.scope.Covers c.scope v.LooksUp) :
    (c.readCalls calls).SimulatedBy (c'.readCalls calls) := by
  induction calls with
  | nil => exact .refl _
  | cons call calls ih =>
    exact .bind (Scope.readItems_simulatedBy _ (hc call (List.mem_cons_self ..))) fun _ =>
      .bind (ih fun other hother => hc other (List.mem_cons_of_mem _ hother)) fun _ => .refl _

theorem locate_simulatedBy (hdir : c'.defaultDir = c.defaultDir)
    (hlocator : ∀ specifier directory wanted,
      (c.locator specifier directory wanted).SimulatedBy R (c'.locator specifier directory wanted))
    (specifier baseDir : String) (wanted : Option String) :
    (c.locate specifier baseDir wanted).SimulatedBy R (c'.locate specifier baseDir wanted) := by
  have hdirectory : c'.directory baseDir = c.directory baseDir := by
    rw [directory, directory, hdir]
  unfold locate
  rw [hdirectory]
  exact .bind (.emit _) fun _ => hlocator _ _ _

theorem factoryOwner_simulatedBy (hdir : c'.defaultDir = c.defaultDir)
    (hlocator : ∀ specifier directory wanted,
      (c.locator specifier directory wanted).SimulatedBy R (c'.locator specifier directory wanted))
    (f : FactoryRecord) (baseDir : String) :
    (c.factoryOwner f baseDir).SimulatedBy R (c'.factoryOwner f baseDir) := by
  unfold factoryOwner
  split
  · exact .pure _
  · exact .map _ (locate_simulatedBy hdir hlocator _ _ _)

/-- A service compiles to the same where everything that it looks up is the same. -/
theorem compile_simulatedBy {entry : ServiceEntry} (hscope : c'.scope.Covers c.scope entry.LooksUp)
    (hdir : c'.defaultDir = c.defaultDir)
    (hlocator : ∀ specifier directory wanted,
      (c.locator specifier directory wanted).SimulatedBy R (c'.locator specifier directory wanted))
    (id baseDir : String) :
    (c.compile id entry baseDir).SimulatedBy R (c'.compile id entry baseDir) := by
  cases entry with
  | «alias» text =>
    simp only [compile]
    split
    · exact .pure _
    · exact .fail _
  | record r =>
    have hslot : ∀ slot v, r.Reads slot → r.slot? slot = some v →
        c'.scope.Covers c.scope v.LooksUp :=
      fun slot v hreads hv => hscope.mono fun name hname => ⟨slot, v, hreads, hv, hname⟩
    have harguments (hreads : ∀ n, r.Reads (.argument n)) :
        (c.scope.readItems r.arguments).SimulatedBy (c'.scope.readItems r.arguments) := by
      refine Scope.readItems_simulatedBy _ fun v hv => ?_
      obtain ⟨n, hn⟩ := List.mem_iff_getElem?.mp hv
      exact hslot (.argument n) v (hreads n) hn
    refine .map _ ?_
    unfold compileRecord
    split
    · next f hfactory =>
      exact .bind (factoryOwner_simulatedBy hdir hlocator f baseDir) fun _ =>
        .bind (.lift (harguments fun n => .inl (by simp [hfactory]))) fun _ => .lift (.refl _)
    · next hfactory =>
      split
      · exact .lift (.refl _)
      · next hsynthetic =>
        have hproperties : (c.scope.readValues r.properties.entries).SimulatedBy
            (c'.scope.readValues r.properties.entries) :=
          Scope.readValues_simulatedBy fun e he =>
            hslot (.property e.1) e.2 ⟨hfactory, hsynthetic⟩ (Table.mem_entries_iff.mp he)
        have hcalls : (c.readCalls r.calls).SimulatedBy (c'.readCalls r.calls) := by
          refine readCalls_simulatedBy fun call hcall v hv => ?_
          obtain ⟨i, hi⟩ := List.mem_iff_getElem?.mp hcall
          obtain ⟨n, hn⟩ := List.mem_iff_getElem?.mp hv
          exact hslot (.callArgument i n) v ⟨hfactory, hsynthetic⟩
            (by rw [ServiceRecord.slot?, hi, Option.bind_some, hn])
        split
        · exact .fail _
        · exact .fail _
        · exact .bind (.lift (harguments fun n => .inr hsynthetic)) fun _ =>
            .bind (locate_simulatedBy hdir hlocator _ _ _) fun _ =>
              .bind (.lift hproperties) fun _ => .bind (.lift hcalls) fun _ => .lift (.refl _)

end Surroundings
end Wiring
