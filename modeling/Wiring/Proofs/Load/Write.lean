import Wiring.Load
import Wiring.Proofs.Table

/-! Writes to a container. After a list of them it holds, under each name, what the last write of
that name says, and what it held before where no write names it. -/
namespace Wiring

inductive Write where
  | parameter (name : String) (v : Value)
  | service (id : String) (compiled : Compiled)

/-- What a container has under an id: the target of an alias, and a definition. -/
def Container.registration (c : Container) (id : String) : Option String × Option Definition :=
  (c.aliases.get? id, c.definitions.get? id)

def Compiled.registration : Compiled → Option String × Option Definition
  | .alias target => (some target, none)
  | .definition d => (none, some d)

namespace Write

def apply (c : Container) : Write → Container
  | .parameter name v => c.setParameter name v
  | .service id compiled => Loader.register id compiled c

def parameter? (name : String) : Write → Option Value
  | .parameter n v => if n = name then some v else none
  | .service .. => none

def service? (id : String) : Write → Option Compiled
  | .parameter .. => none
  | .service i compiled => if i = id then some compiled else none

theorem parameters_apply (c : Container) (w : Write) (name : String) :
    (apply c w).parameters.get? name = (w.parameter? name).or (c.parameters.get? name) := by
  cases w with
  | parameter n v =>
    simp only [apply, Container.setParameter, Table.get?_set, parameter?, eq_comm (a := name)]
    split <;> rfl
  | service id compiled => cases compiled <;> rfl

theorem registration_apply (c : Container) (w : Write) (id : String) :
    (apply c w).registration id =
      (w.service? id).elim (c.registration id) Compiled.registration := by
  cases w with
  | parameter => rfl
  | service i compiled =>
    by_cases h : i = id
    · subst h
      cases compiled <;>
        simp [apply, Loader.register, Container.setAlias, Container.setDefinition,
          Container.registration, Compiled.registration, service?, Table.get?_set, Table.get?_erase]
    · cases compiled <;>
        simp [apply, Loader.register, Container.setAlias, Container.setDefinition,
          Container.registration, service?, Table.get?_set, Table.get?_erase, h, Ne.symm h]

def applyAll (c : Container) (ws : List Write) : Container := ws.foldl apply c

theorem applyAll_cons (c : Container) (w : Write) (ws : List Write) :
    applyAll c (w :: ws) = applyAll (apply c w) ws := rfl

theorem applyAll_append (c : Container) (ws vs : List Write) :
    applyAll c (ws ++ vs) = applyAll (applyAll c ws) vs :=
  List.foldl_append ..

theorem defaultDir_applyAll (c : Container) (ws : List Write) :
    (applyAll c ws).defaultDir = c.defaultDir := by
  induction ws generalizing c with
  | nil => rfl
  | cons w ws ih =>
    rw [applyAll_cons, ih]
    cases w with
    | parameter => rfl
    | service id compiled => cases compiled <;> rfl

theorem parameters_applyAll (c : Container) (ws : List Write) (name : String) :
    (applyAll c ws).parameters.get? name =
      (lastSome? (parameter? name) ws).or (c.parameters.get? name) := by
  induction ws generalizing c with
  | nil => rfl
  | cons w ws ih => rw [applyAll_cons, ih, parameters_apply, lastSome?_cons, Option.or_assoc]

theorem registration_applyAll (c : Container) (ws : List Write) (id : String) :
    (applyAll c ws).registration id =
      (lastSome? (service? id) ws).elim (c.registration id) Compiled.registration := by
  induction ws generalizing c with
  | nil => rfl
  | cons w ws ih =>
    rw [applyAll_cons, ih, registration_apply, lastSome?_cons]
    cases lastSome? (service? id) ws <;> rfl

end Write
end Wiring
