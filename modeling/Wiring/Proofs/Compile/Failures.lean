import Wiring.Compile
import Wiring.Proofs.Act

/-! The failures in which reading arguments and compiling a service can end, and the events that
they can emit before. -/
namespace Wiring
variable {P : Failure → Prop} {Q : Event → Prop}

namespace Scope

theorem interpolate_within (scope : Scope)
    (h : ∀ name, P (.unresolved name (some .parameterNotSet)))
    (hnotSet : ∀ name, Q (.log (.variableNotSet name))) (expression : String) :
    (scope.interpolate expression).Within P Q := by
  unfold interpolate
  split
  · split
    · exact .pure _
    · exact .bind (.emit (hnotSet _)) fun _ => .pure _
  · split
    · exact .pure _
    · exact .fail (h expression)

theorem readText_within (scope : Scope)
    (h : ∀ name, P (.unresolved name (some .parameterNotSet)))
    (hnotSet : ∀ name, Q (.log (.variableNotSet name))) (s : String) :
    (scope.readText s).Within P Q := by
  unfold readText
  split
  · exact .pure _
  · exact .map _ (scope.interpolate_within h hnotSet _)
  · exact .pure _
  · exact .pure _
  · exact .pure _

mutual
theorem read_within (scope : Scope)
    (h : ∀ name, P (.unresolved name (some .parameterNotSet)))
    (hnotSet : ∀ name, Q (.log (.variableNotSet name))) :
    ∀ v, (scope.read v).Within P Q
  | .scalar s => by
    cases s with
    | text s => exact scope.readText_within h hnotSet s
    | _ => exact .pure _
  | .set ms => .pure _
  | .list vs => .map _ (readItems_within scope h hnotSet vs)
  | .map es => .map _ (readEntries_within scope h hnotSet es)

theorem readItems_within (scope : Scope)
    (h : ∀ name, P (.unresolved name (some .parameterNotSet)))
    (hnotSet : ∀ name, Q (.log (.variableNotSet name))) :
    ∀ vs, (scope.readItems vs).Within P Q
  | [] => .pure _
  | v :: vs =>
    .bind (read_within scope h hnotSet v) fun _ =>
      .bind (readItems_within scope h hnotSet vs) fun _ => .pure _

theorem readEntries_within (scope : Scope)
    (h : ∀ name, P (.unresolved name (some .parameterNotSet)))
    (hnotSet : ∀ name, Q (.log (.variableNotSet name))) :
    ∀ es, (scope.readEntries es).Within P Q
  | [] => .pure _
  | (_, v) :: es =>
    .bind (read_within scope h hnotSet v) fun _ =>
      .bind (readEntries_within scope h hnotSet es) fun _ => .pure _
end

theorem readValues_within {κ : Type} (scope : Scope)
    (h : ∀ name, P (.unresolved name (some .parameterNotSet)))
    (hnotSet : ∀ name, Q (.log (.variableNotSet name))) (es : List (κ × Value)) :
    (scope.readValues es).Within P Q :=
  .map _ (scope.readItems_within h hnotSet _)

end Scope

namespace Surroundings
variable {σ : Type} (c : Surroundings σ)

theorem readCalls_within (h : ∀ name, P (.unresolved name (some .parameterNotSet)))
    (hnotSet : ∀ name, Q (.log (.variableNotSet name))) (calls : List CallRecord) :
    (c.readCalls calls).Within P Q := by
  induction calls with
  | nil => exact .pure _
  | cons call calls ih =>
    exact .bind (c.scope.readItems_within h hnotSet _) fun _ => .bind ih fun _ => .pure _

theorem accepted_within (h : ∀ fs, P (.invalid fs)) (d : Definition) :
    (accepted d).Within P Q := by
  unfold accepted
  split
  · exact .pure _
  · exact .fail (h _)

theorem locate_within
    (h : ∀ specifier directory wanted, (c.locator specifier directory wanted).Within P Q)
    (hlocated : ∀ specifier directory wanted, Q (.located specifier directory wanted))
    (specifier baseDir : String) (wanted : Option String) :
    (c.locate specifier baseDir wanted).Within P Q :=
  .bind (.emit (hlocated _ _ _)) fun _ => h _ _ _

theorem factoryOwner_within
    (h : ∀ specifier directory wanted, (c.locator specifier directory wanted).Within P Q)
    (hlocated : ∀ specifier directory wanted, Q (.located specifier directory wanted))
    (f : FactoryRecord) (baseDir : String) : (c.factoryOwner f baseDir).Within P Q := by
  unfold factoryOwner
  split
  · exact .pure _
  · exact .map _ (c.locate_within h hlocated _ _ _)

/-- Compiling a service ends in failures of its own kinds or in those of the locator, and besides
what the locator emits it tells only of unset variables and of classes that it looked for. -/
theorem compile_within
    (hlocator : ∀ specifier directory wanted,
      (c.locator specifier directory wanted).Within P Q)
    (hunresolved : ∀ name, P (.unresolved name (some .parameterNotSet)))
    (hinvalid : ∀ fs, P (.invalid fs)) (hdocument : ∀ f, P (.document f))
    (hnotSet : ∀ name, Q (.log (.variableNotSet name)))
    (hlocated : ∀ specifier directory wanted, Q (.located specifier directory wanted))
    (id : String) (entry : ServiceEntry) (baseDir : String) :
    (c.compile id entry baseDir).Within P Q := by
  have hitems (vs : List Value) := c.scope.readItems_within hunresolved hnotSet vs
  have haccepted (d : Definition) := accepted_within (Q := Q) hinvalid d
  have hfactory (r : ServiceRecord) (f : FactoryRecord) :
      (c.compileFactory r f baseDir).Within P Q :=
    .bind (c.factoryOwner_within hlocator hlocated f baseDir) fun _ =>
      .bind (.lift (hitems _)) fun _ => .lift (haccepted _)
  have hclass (r : ServiceRecord) (specifier : String) :
      (c.compileClass r specifier baseDir).Within P Q :=
    .bind (.lift (hitems _)) fun _ =>
      .bind (c.locate_within hlocator hlocated _ _ _) fun _ =>
        .bind (.lift (c.scope.readValues_within hunresolved hnotSet _)) fun _ =>
          .bind (.lift (c.readCalls_within hunresolved hnotSet _)) fun _ => .lift (haccepted _)
  have hrecord (r : ServiceRecord) : (c.compileRecord id r baseDir).Within P Q := by
    unfold compileRecord
    split
    · exact hfactory r _
    · split
      · exact .lift (haccepted _)
      · split
        · exact .fail (hdocument _)
        · exact .fail (hdocument _)
        · exact hclass r _
  cases entry with
  | record r => exact .map _ (hrecord r)
  | «alias» text =>
    simp only [compile]
    split
    · exact .pure _
    · exact .fail (hdocument _)

theorem compile_failsOnly
    (hlocator : ∀ specifier directory wanted,
      (c.locator specifier directory wanted).FailsOnly P)
    (hunresolved : ∀ name, P (.unresolved name (some .parameterNotSet)))
    (hinvalid : ∀ fs, P (.invalid fs)) (hdocument : ∀ f, P (.document f))
    (id : String) (entry : ServiceEntry) (baseDir : String) :
    (c.compile id entry baseDir).FailsOnly P :=
  (c.compile_within (fun _ _ _ => (hlocator _ _ _).within) hunresolved hinvalid hdocument
    (fun _ => trivial) (fun _ _ _ => trivial) id entry baseDir).failsOnly

theorem compile_emitsOnly
    (hlocator : ∀ specifier directory wanted,
      (c.locator specifier directory wanted).EmitsOnly Q)
    (hnotSet : ∀ name, Q (.log (.variableNotSet name)))
    (hlocated : ∀ specifier directory wanted, Q (.located specifier directory wanted))
    (id : String) (entry : ServiceEntry) (baseDir : String) :
    (c.compile id entry baseDir).EmitsOnly Q :=
  (c.compile_within (fun _ _ _ => (hlocator _ _ _).within) (fun _ => trivial) (fun _ => trivial)
    (fun _ => trivial) hnotSet hlocated id entry baseDir).emitsOnly

end Surroundings
end Wiring
