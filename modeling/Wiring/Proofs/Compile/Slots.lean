import Wiring.Compile
import Wiring.Proofs.Argument.Places
import Wiring.Proofs.Table

/-! Where a service record holds values to be read, and where the definition compiled from it
holds what they were read as. -/
namespace Wiring

inductive Slot where
  | argument (n : Nat)
  | property (name : String)
  | callArgument (call n : Nat)

namespace ServiceRecord

def slot? (r : ServiceRecord) : Slot → Option Value
  | .argument n => r.arguments[n]?
  | .property name => r.properties.get? name
  | .callArgument call n => r.calls[call]?.bind fun c => c.arguments[n]?

/-- The slots that compiling a record reads: of one with a factory the arguments only, and of a
synthetic one none. -/
def Reads (r : ServiceRecord) : Slot → Prop
  | .argument _ => r.factory ≠ none ∨ r.synthetic ≠ some true
  | .property _ | .callArgument .. => r.factory = none ∧ r.synthetic ≠ some true

end ServiceRecord

def Definition.slot? (d : Definition) : Slot → Option Argument
  | .argument n => (d.arguments ++ d.appendedArguments)[n]?
  | .property name => d.properties.get? name
  | .callArgument call n => d.methodCalls[call]?.bind fun c => c.arguments[n]?

namespace Surroundings
variable {σ : Type} {c : Surroundings σ}

theorem forall₂_of_readCalls {calls : List CallRecord} {ms : List MethodCall}
    (h : (c.readCalls calls).result = .ok ms) :
    List.Forall₂ (fun call m => m.method = call.method ∧
      (c.scope.readItems call.arguments).result = .ok m.arguments) calls ms := by
  induction calls generalizing ms with
  | nil =>
    cases h
    exact .nil
  | cons call calls ih =>
    obtain ⟨as, has, h⟩ := Traced.bind_eq_ok_iff.mp h
    obtain ⟨rest, hrest, h⟩ := Traced.bind_eq_ok_iff.mp h
    cases h
    exact .cons ⟨rfl, has⟩ (ih hrest)

theorem eq_of_accepted {d d' : Definition} (h : (accepted d).result = .ok d') : d' = d := by
  unfold accepted Definition.checkConsistent at h
  cases hi : d.inconsistency? with
  | none =>
    rw [hi] at h
    cases h
    rfl
  | some i =>
    rw [hi] at h
    cases h

theorem result_locate (specifier baseDir : String) (wanted : Option String) (s : σ) :
    (c.locate specifier baseDir wanted).result s =
      (c.locator specifier (c.directory baseDir) wanted).result s := by
  rw [locate, Act.result_bind, Act.result_emit, Act.after_emit]
  rfl

theorem exists_of_compileFactory {r : ServiceRecord} {f : FactoryRecord} {baseDir : String} {s : σ}
    {d : Definition} (h : (c.compileFactory r f baseDir).result s = .ok d) :
    ∃ owner as, (c.factoryOwner f baseDir).result s = .ok owner ∧
      (c.scope.readItems r.arguments).result = .ok as ∧
      d = { implementation := some (.byFactory owner f.method), arguments := as,
            shared := r.shared.getD true } := by
  obtain ⟨owner, howner, h⟩ := Act.bind_eq_ok_iff.mp h
  obtain ⟨as, has, h⟩ := Act.bind_eq_ok_iff.mp h
  rw [Act.result_lift] at has h
  exact ⟨owner, as, howner, has, eq_of_accepted h⟩

theorem exists_of_compileClass {r : ServiceRecord} {specifier baseDir : String} {s : σ}
    {d : Definition} (h : (c.compileClass r specifier baseDir).result s = .ok d) :
    ∃ as located properties calls, (c.scope.readItems r.arguments).result = .ok as ∧
      (c.locator specifier (c.directory baseDir) r.main).result s = .ok located ∧
      (c.scope.readValues r.properties.entries).result = .ok properties ∧
      (c.readCalls r.calls).result = .ok calls ∧
      d = { implementation := some (.byClass located specifier r.main)
            arguments := if r.abstract.getD false then [] else as
            appendedArguments := if r.abstract.getD false then as else []
            properties := Table.ofList properties
            methodCalls := calls
            tags := r.tags.map readTag
            shared := r.shared.getD true
            lazy := r.lazy.getD false
            isPublic := r.isPublic.getD true
            abstract := r.abstract.getD false
            deprecated := r.deprecated
            parent := r.parent
            decoratedService := r.decorates
            decorationPriority := r.decorationPriority } := by
  obtain ⟨as, has, h⟩ := Act.bind_eq_ok_iff.mp h
  obtain ⟨located, hlocated, h⟩ := Act.bind_eq_ok_iff.mp h
  obtain ⟨properties, hproperties, h⟩ := Act.bind_eq_ok_iff.mp h
  obtain ⟨calls, hcalls, h⟩ := Act.bind_eq_ok_iff.mp h
  rw [Act.result_lift] at has hproperties hcalls h
  rw [Act.after_lift, result_locate] at hlocated
  exact ⟨as, located, properties, calls, has, hlocated, hproperties, hcalls, eq_of_accepted h⟩

theorem exists_slot?_of_compileFactory {r : ServiceRecord} {f : FactoryRecord} {baseDir : String}
    {s : σ} {d : Definition} (h : (c.compileFactory r f baseDir).result s = .ok d)
    {n : Nat} {v : Value} (hv : r.slot? (.argument n) = some v) :
    ∃ a, d.slot? (.argument n) = some a ∧ (c.scope.read v).result = .ok a := by
  obtain ⟨owner, as, -, has, rfl⟩ := exists_of_compileFactory h
  obtain ⟨a, ha, hread⟩ := exists_getElem?_of_forall₂ (Scope.forall₂_of_readItems has) hv
  exact ⟨a, by simpa [Definition.slot?] using ha, hread⟩

theorem exists_slot?_of_compileClass {r : ServiceRecord} {specifier baseDir : String} {s : σ}
    {d : Definition} (h : (c.compileClass r specifier baseDir).result s = .ok d)
    {slot : Slot} {v : Value} (hv : r.slot? slot = some v) :
    ∃ a, d.slot? slot = some a ∧ (c.scope.read v).result = .ok a := by
  obtain ⟨as, located, properties, calls, has, -, hproperties, hcalls, rfl⟩ :=
    exists_of_compileClass h
  cases slot with
  | argument n =>
    obtain ⟨a, ha, hread⟩ := exists_getElem?_of_forall₂ (Scope.forall₂_of_readItems has) hv
    refine ⟨a, ?_, hread⟩
    cases r.abstract.getD false <;> simpa [Definition.slot?] using ha
  | property name =>
    exact Table.exists_get?_of_forall₂ (R := fun v a => (c.scope.read v).result = .ok a)
      (Scope.forall₂_of_readValues hproperties) hv
  | callArgument call n =>
    obtain ⟨written, hwritten, hn⟩ := Option.bind_eq_some_iff.mp hv
    obtain ⟨m, hm, -, hread⟩ :=
      exists_getElem?_of_forall₂ (forall₂_of_readCalls hcalls) hwritten
    obtain ⟨a, ha, hread⟩ := exists_getElem?_of_forall₂ (Scope.forall₂_of_readItems hread) hn
    exact ⟨a, by simp [Definition.slot?, hm, ha], hread⟩

/-- A record compiles to a definition, which holds in each slot the reading of what the record
has there. -/
theorem exists_slot?_of_compile {id baseDir : String} {r : ServiceRecord} {s : σ}
    {compiled : Compiled} (h : (c.compile id (.record r) baseDir).result s = .ok compiled) :
    ∃ d, compiled = .definition d ∧ ∀ slot v, r.Reads slot → r.slot? slot = some v →
      ∃ a, d.slot? slot = some a ∧ (c.scope.read v).result = .ok a := by
  obtain ⟨d, hd, rfl⟩ := Act.map_eq_ok_iff.mp h
  refine ⟨d, rfl, fun slot v hreads hv => ?_⟩
  unfold compileRecord at hd
  cases hfactory : r.factory with
  | some f =>
    rw [hfactory] at hd
    cases slot with
    | argument n => exact exists_slot?_of_compileFactory hd hv
    | property name => exact absurd (hfactory.symm.trans hreads.1) nofun
    | callArgument call n => exact absurd (hfactory.symm.trans hreads.1) nofun
  | none =>
    have hsynthetic : r.synthetic ≠ some true := by
      cases slot with
      | argument n => exact hreads.resolve_left fun hnot => hnot hfactory
      | property name => exact hreads.2
      | callArgument call n => exact hreads.2
    simp only [hfactory, hsynthetic, if_false] at hd
    split at hd
    · cases hd
    · cases hd
    · exact exists_slot?_of_compileClass hd hv

end Surroundings
end Wiring
