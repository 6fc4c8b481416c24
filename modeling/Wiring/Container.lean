import Wiring.Definition
import Wiring.Failure

/-! Containers: parameters, aliases and definitions by name. No id is an alias and a definition. -/
namespace Wiring

structure Container where
  defaultDir : Option String := none
  parameters : Table Value := ∅
  aliases : Table String := ∅
  definitions : Table Definition := ∅
deriving Inhabited

namespace Container

def setParameter (c : Container) (name : String) (v : Value) : Container :=
  { c with parameters := c.parameters.set name v }

def parameter (c : Container) (name : String) : Except Failure Value :=
  match c.parameters.get? name with
  | some v => .ok v
  | none => .error (.unresolved name (some .parameterNotSet))

def setAlias (c : Container) (id target : String) : Container :=
  { c with definitions := c.definitions.erase id, aliases := c.aliases.set id target }

def setDefinition (c : Container) (id : String) (d : Definition) : Container :=
  { c with aliases := c.aliases.erase id, definitions := c.definitions.set id d }

def hasDefinition (c : Container) (id : String) : Bool :=
  c.definitions.contains id || c.aliases.contains id

/-- The default directory stays. -/
def clear (c : Container) : Container := { defaultDir := c.defaultDir }

def unseen (aliases : Table String) (seen : List String) : List String :=
  aliases.names.filter (· ∉ seen)

theorem length_unseen_cons_lt {aliases : Table String} {seen : List String} {id : String}
    (hid : id ∈ aliases.names) (h : id ∉ seen) :
    (unseen aliases (id :: seen)).length < (unseen aliases seen).length := by
  have hsub : unseen aliases (id :: seen) = (unseen aliases seen).filter (· ≠ id) := by
    simp [unseen, List.filter_filter, not_or]
  rw [hsub]
  exact List.length_filter_lt_length_iff_exists.2 ⟨id, by simp [unseen, hid, h], by simp⟩

/-- Follows aliases from an id until one that is no alias, or until an alias comes again. -/
def follow (aliases : Table String) (seen : List String) (id : String) : String :=
  match aliases.get? id with
  | none => id
  | some target =>
    if h : id ∈ aliases.names ∧ id ∉ seen then
      have := length_unseen_cons_lt h.1 h.2
      follow aliases (id :: seen) target
    else id
termination_by (unseen aliases seen).length

def finalId (c : Container) (id : String) : String := follow c.aliases [] id

def definition (c : Container) (id : String) : Except Failure Definition :=
  match c.definitions.get? (c.finalId id) with
  | some d => .ok d
  | none => .error (.undefined (c.finalId id))

/-- The attributes of each tag of that name, by service id, for the services that have one. -/
def tagged (c : Container) (tag : String) : List (String × List (Table Value)) :=
  (c.definitions.entries.map fun e =>
    (e.1, (e.2.tags.filter (fun t => t.name = tag)).map Tag.attributes)).filter (fun e => e.2 ≠ [])

def priority (d : Definition) : Int := d.decorationPriority.getD 0

/-- The ids that decorate a service, the highest priority first and ties in order of registration. -/
def decorators (c : Container) (id : String) : List String :=
  ((c.definitions.entries.filter (fun e => e.2.decoratedService = some id)).mergeSort
    (fun e f => priority f.2 ≤ priority e.2)).map Prod.fst

end Container
end Wiring
