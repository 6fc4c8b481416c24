import Mathlib.Data.List.DropRight
import Wiring.Proofs.Container.Spell
import Wiring.Proofs.Load.Write

/-! What a container holds after any history: under each id the last registration since it was last
cleared, and the ids of its tables in the order in which their present spells began. -/
namespace Wiring

/-- A change of a container. -/
inductive Change where
  | setParameter (name : String) (v : Value)
  | setAlias (id target : String)
  | setDefinition (id : String) (d : Definition)
  | clear

namespace Change

def apply (c : Container) : Change → Container
  | .setParameter name v => c.setParameter name v
  | .setAlias id target => c.setAlias id target
  | .setDefinition id d => c.setDefinition id d
  | .clear => c.clear

def applyAll (c : Container) (xs : List Change) : Container := xs.foldl apply c

def write? : Change → Option Write
  | .setParameter name v => some (.parameter name v)
  | .setAlias id target => some (.service id (.alias target))
  | .setDefinition id d => some (.service id (.definition d))
  | .clear => none

/-- The changes after the last time the container was cleared. -/
def sinceCleared (xs : List Change) : List Change := xs.rtakeWhile fun x => x.write?.isSome

def value? (name : String) (x : Change) : Option Value := x.write?.bind (Write.parameter? name)

def registered? (id : String) (x : Change) : Option Compiled := x.write?.bind (Write.service? id)

def onAliases : Change → Turn
  | .setParameter .. => .keep
  | .setAlias id _ => .put id
  | .setDefinition id _ => .drop id
  | .clear => .reset

def onDefinitions : Change → Turn
  | .setParameter .. => .keep
  | .setAlias id _ => .drop id
  | .setDefinition id _ => .put id
  | .clear => .reset

theorem applyAll_concat (c : Container) (xs : List Change) (x : Change) :
    applyAll c (xs ++ [x]) = apply (applyAll c xs) x :=
  List.foldl_append ..

theorem write?_cases (x : Change) :
    x = .clear ∨ ∃ w, x.write? = some w ∧ ∀ c, apply c x = Write.apply c w := by
  cases x with
  | clear => exact .inl rfl
  | setParameter name v => exact .inr ⟨_, rfl, fun _ => rfl⟩
  | setAlias id target => exact .inr ⟨_, rfl, fun _ => rfl⟩
  | setDefinition id d => exact .inr ⟨_, rfl, fun _ => rfl⟩

theorem sinceCleared_concat_clear (xs : List Change) : sinceCleared (xs ++ [.clear]) = [] :=
  List.rtakeWhile_concat_neg _ _ _ nofun

theorem sinceCleared_concat {x : Change} {w : Write} (h : x.write? = some w) (xs : List Change) :
    sinceCleared (xs ++ [x]) = sinceCleared xs ++ [x] :=
  List.rtakeWhile_concat_pos _ _ _ (by simp [h])

/-- Only what was written since the container was last cleared is left of its changes. -/
theorem applyAll_eq_writes (dir : Option String) (xs : List Change) :
    applyAll { defaultDir := dir } xs =
      Write.applyAll { defaultDir := dir } ((sinceCleared xs).filterMap write?) := by
  induction xs using List.reverseRecOn with
  | nil => rfl
  | append_singleton xs x ih =>
    rw [applyAll_concat, ih]
    obtain rfl | ⟨w, hw, happly⟩ := x.write?_cases
    · have hdir := Write.defaultDir_applyAll { defaultDir := dir }
        ((sinceCleared xs).filterMap write?)
      rw [sinceCleared_concat_clear, apply, Container.clear, hdir]
      rfl
    · have hlast : [x].filterMap write? = [w] := List.filterMap_cons_some hw
      rw [happly, sinceCleared_concat hw, List.filterMap_append, hlast, Write.applyAll_append]
      rfl

theorem parameters_applyAll (dir : Option String) (xs : List Change) (name : String) :
    (applyAll { defaultDir := dir } xs).parameters.get? name =
      lastSome? (value? name) (sinceCleared xs) := by
  rw [applyAll_eq_writes, Write.parameters_applyAll, lastSome?_filterMap]
  exact Option.or_none

theorem registration_applyAll (dir : Option String) (xs : List Change) (id : String) :
    (applyAll { defaultDir := dir } xs).registration id =
      (lastSome? (registered? id) (sinceCleared xs)).elim (none, none) Compiled.registration := by
  rw [applyAll_eq_writes, Write.registration_applyAll, lastSome?_filterMap]
  rfl

theorem registered_applyAll (dir : Option String) (xs : List Change) (id : String) :
    (∀ target, (applyAll { defaultDir := dir } xs).aliases.get? id = some target ↔
      lastSome? (registered? id) (sinceCleared xs) = some (.alias target)) ∧
    ∀ d, (applyAll { defaultDir := dir } xs).definitions.get? id = some d ↔
      lastSome? (registered? id) (sinceCleared xs) = some (.definition d) := by
  obtain ⟨halias, hdefinition⟩ := Prod.ext_iff.mp (registration_applyAll dir xs id)
  simp only [Container.registration] at halias hdefinition
  rw [halias, hdefinition]
  cases lastSome? (registered? id) (sinceCleared xs) with
  | none => simp
  | some compiled => cases compiled <;> simp [Compiled.registration]

theorem not_both_applyAll (dir : Option String) (xs : List Change) (id : String) :
    ¬ (id ∈ (applyAll { defaultDir := dir } xs).aliases.names ∧
      id ∈ (applyAll { defaultDir := dir } xs).definitions.names) := by
  obtain ⟨haliases, hdefinitions⟩ := registered_applyAll dir xs id
  rintro ⟨halias, hdefinition⟩
  obtain ⟨target, htarget⟩ := Table.mem_names_iff.mp halias
  obtain ⟨d, hd⟩ := Table.mem_names_iff.mp hdefinition
  have htarget := (haliases target).mp htarget
  rw [(hdefinitions d).mp hd] at htarget
  cases htarget

theorem aliases_eq_none_of_definition {dir : Option String} {xs : List Change} {id : String}
    {d : Definition} (h : (applyAll { defaultDir := dir } xs).definitions.get? id = some d) :
    (applyAll { defaultDir := dir } xs).aliases.get? id = none := by
  cases halias : (applyAll { defaultDir := dir } xs).aliases.get? id with
  | none => rfl
  | some target =>
    have hboth := not_both_applyAll dir xs id
    exact absurd ⟨Table.mem_names_of_get? halias, Table.mem_names_of_get? h⟩ hboth

theorem hasDefinition_applyAll (dir : Option String) (xs : List Change) (id : String) :
    (applyAll { defaultDir := dir } xs).hasDefinition id = true ↔
      ∃ compiled, lastSome? (registered? id) (sinceCleared xs) = some compiled := by
  obtain ⟨haliases, hdefinitions⟩ := registered_applyAll dir xs id
  rw [Container.hasDefinition, Bool.or_eq_true, Table.contains_iff, Table.contains_iff]
  constructor
  · rintro (⟨d, hd⟩ | ⟨target, htarget⟩)
    · exact ⟨_, (hdefinitions d).mp hd⟩
    · exact ⟨_, (haliases target).mp htarget⟩
  · rintro ⟨target | d, hcompiled⟩
    · exact .inr ⟨target, (haliases target).mpr hcompiled⟩
    · exact .inl ⟨d, (hdefinitions d).mpr hcompiled⟩

theorem enumerates_applyAll (names : Container → List String) (turn : Change → Turn)
    (hturn : ∀ c x, names (apply c x) = (turn x).apply (names c)) {c : Container}
    (hc : names c = []) (xs : List Change) :
    Turn.Enumerates (xs.map turn) (names (applyAll c xs)) := by
  have hnames : ∀ c, names (applyAll c xs) = (xs.map turn).foldl Turn.apply (names c) := by
    induction xs with
    | nil => exact fun c => rfl
    | cons x xs ih =>
      intro c
      rw [List.map_cons, List.foldl_cons, ← hturn]
      exact ih (apply c x)
  rw [hnames, hc]
  exact Turn.enumerates_foldl _

theorem names_aliases_apply (c : Container) (x : Change) :
    (apply c x).aliases.names = x.onAliases.apply c.aliases.names := by
  cases x with
  | setParameter name v => rfl
  | setAlias id target => exact Table.names_set ..
  | setDefinition id d => exact Table.names_erase ..
  | clear => rfl

theorem names_definitions_apply (c : Container) (x : Change) :
    (apply c x).definitions.names = x.onDefinitions.apply c.definitions.names := by
  cases x with
  | setParameter name v => rfl
  | setAlias id target => exact Table.names_erase ..
  | setDefinition id d => exact Table.names_set ..
  | clear => rfl

end Change

namespace Container

/-- After any changes of a new container, each id has what was last registered under it since the
container was last cleared, an alias or a definition and never both; each parameter has the value
that was last set since then; and the ids of either table stand in the order in which the spells
began in which they are there now. -/
theorem holds_last_changes (dir : Option String) (xs : List Change) :
    let c := Change.applyAll { defaultDir := dir } xs
    let registered (id : String) := lastSome? (Change.registered? id) (Change.sinceCleared xs)
    (∀ id, ¬ (id ∈ c.aliases.names ∧ id ∈ c.definitions.names)) ∧
    (∀ id target, c.aliases.get? id = some target ↔ registered id = some (.alias target)) ∧
    (∀ id d, (id, d) ∈ c.definitions.entries ↔ registered id = some (.definition d)) ∧
    (∀ id, c.hasDefinition id = true ↔ ∃ compiled, registered id = some compiled) ∧
    (∀ name, c.parameter name =
      match lastSome? (Change.value? name) (Change.sinceCleared xs) with
      | some v => .ok v
      | none => .error (.unresolved name (some .parameterNotSet))) ∧
    Turn.Enumerates (xs.map Change.onDefinitions) c.definitions.names ∧
    Turn.Enumerates (xs.map Change.onAliases) c.aliases.names := by
  intro c registered
  refine ⟨Change.not_both_applyAll dir xs, fun id => (Change.registered_applyAll dir xs id).1,
    fun id d => ?_, Change.hasDefinition_applyAll dir xs, fun name => ?_, ?_, ?_⟩
  · rw [Table.mem_entries_iff]
    exact (Change.registered_applyAll dir xs id).2 d
  · have hparameter : c.parameters.get? name = _ := Change.parameters_applyAll dir xs name
    unfold parameter
    cases hlast : lastSome? (Change.value? name) (Change.sinceCleared xs) with
    | none => rw [hparameter, hlast]
    | some v => rw [hparameter, hlast]
  · exact Change.enumerates_applyAll (fun c => c.definitions.names) Change.onDefinitions
      Change.names_definitions_apply rfl xs
  · exact Change.enumerates_applyAll (fun c => c.aliases.names) Change.onAliases
      Change.names_aliases_apply rfl xs

example (d : Definition) :
    (Change.applyAll {} [.setDefinition "a" d, .setDefinition "b" d, .setDefinition "a" d,
      .setAlias "b" "a", .setDefinition "c" d, .setDefinition "b" d]).definitions.names =
      ["a", "c", "b"] := rfl

end Container
end Wiring
