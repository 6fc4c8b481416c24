import Wiring.Proofs.Argument.Spelling
import Wiring.Proofs.Compile.Failures
import Wiring.Proofs.Compile.Slots

/-! The definitions that records compile to. A record has one of three forms, and none of them
makes a definition that its own check refuses. -/
namespace Wiring
namespace Surroundings
variable {σ : Type} {c : Surroundings σ} {r : ServiceRecord} {baseDir : String} {s : σ}

/-- The definition of a record with a factory: its arguments and whether it is shared, and no
more. -/
structure FactoryBacked (c : Surroundings σ) (r : ServiceRecord) (baseDir : String) (s : σ)
    (d : Definition) : Prop where
  arguments : List.Forall₂ c.scope.Reads r.arguments d.arguments
  rest : ∃ f owner, r.factory = some f ∧ (c.factoryOwner f baseDir).result s = .ok owner ∧
    d = { implementation := some (.byFactory owner f.method), arguments := d.arguments,
          shared := r.shared.getD true }

/-- The definition of a record with a class. The arguments of an abstract one are kept for those
that extend it. -/
structure ClassBacked (c : Surroundings σ) (r : ServiceRecord) (baseDir : String) (s : σ)
    (d : Definition) : Prop where
  implementation : ∃ specifier located, r.className = some specifier ∧ specifier ≠ "" ∧
    (c.locator specifier (c.directory baseDir) r.main).result s = .ok located ∧
    d.implementation = some (.byClass located specifier r.main)
  arguments : List.Forall₂ c.scope.Reads r.arguments (d.arguments ++ d.appendedArguments)
  appended : r.abstract ≠ some true → d.appendedArguments = []
  withheld : r.abstract = some true → d.arguments = []
  properties : List.Forall₂ (fun e e' => e'.1 = e.1 ∧ c.scope.Reads e.2 e'.2)
    r.properties.entries d.properties.entries
  methodCalls : List.Forall₂ (fun call m => m.method = call.method ∧
    List.Forall₂ c.scope.Reads call.arguments m.arguments) r.calls d.methodCalls
  tags : List.Forall₂ (fun t t' => t'.name = t.name ∧ t'.attributes = t.attributes.getD ∅)
    r.tags d.tags
  shared : d.shared = r.shared.getD true
  lazy : d.lazy = r.lazy.getD false
  isPublic : d.isPublic = false ↔ r.isPublic = some false
  abstract : d.abstract = r.abstract.getD false
  synthetic : d.synthetic = false
  deprecated : d.deprecated = r.deprecated
  parent : d.parent = r.parent
  decoratedService : d.decoratedService = r.decorates
  decorationPriority : d.decorationPriority = r.decorationPriority

theorem accepted_of_consistent {d : Definition} (h : d.inconsistency? = none) :
    accepted d = pure d := by
  rw [accepted, Definition.checkConsistent, h]

theorem factoryBacked_of_compileFactory {f : FactoryRecord} {d : Definition}
    (hfactory : r.factory = some f) (h : (c.compileFactory r f baseDir).result s = .ok d) :
    d.inconsistency? = none ∧ d.kind = .byFactory ∧ c.FactoryBacked r baseDir s d := by
  obtain ⟨owner, as, howner, has, rfl⟩ := exists_of_compileFactory h
  exact ⟨rfl, rfl, (Scope.readItems_eq_ok_iff _).mp has, f, owner, hfactory, howner, rfl⟩

theorem classBacked_of_compileClass {specifier : String} {d : Definition}
    (hclass : r.className = some specifier) (hne : specifier ≠ "")
    (h : (c.compileClass r specifier baseDir).result s = .ok d) :
    d.inconsistency? = none ∧ d.kind = .byClass ∧ c.ClassBacked r baseDir s d := by
  obtain ⟨as, located, properties, calls, has, hlocated, hproperties, hcalls, rfl⟩ :=
    exists_of_compileClass h
  have hread := Scope.forall₂_of_readValues hproperties
  have hnames : (properties.map Prod.fst).Nodup := by
    rw [Table.map_fst_of_forall₂ (R := fun v a => (c.scope.read v).result = .ok a) hread]
    exact r.properties.nodup
  have harguments := (Scope.readItems_eq_ok_iff _).mp has
  refine ⟨rfl, rfl, ?_⟩
  constructor
  case implementation => exact ⟨specifier, located, hclass, hne, hlocated, rfl⟩
  case arguments =>
    cases hkept : r.abstract.getD false with
    | false => simpa using harguments
    | true => simpa using harguments
  case appended =>
    intro hnot
    have hkept : r.abstract.getD false = false := by
      cases habstract : r.abstract with
      | none => rfl
      | some b => exact Bool.eq_false_iff.mpr fun hb => hnot (habstract.trans (congrArg some hb))
    exact if_neg (by simp [hkept])
  case withheld =>
    intro habstract
    exact if_pos (by simp [habstract])
  case properties =>
    show List.Forall₂ _ r.properties.entries (Table.ofList properties).entries
    rw [Table.entries_ofList hnames]
    exact hread.imp fun e e' ⟨hname, hvalue⟩ => ⟨hname, (Scope.read_eq_ok_iff _).mp hvalue⟩
  case methodCalls =>
    exact (forall₂_of_readCalls hcalls).imp fun call m ⟨hmethod, hread⟩ =>
      ⟨hmethod, (Scope.readItems_eq_ok_iff _).mp hread⟩
  case tags =>
    exact List.forall₂_map_right_iff.mpr (List.forall₂_same.mpr fun t _ => ⟨rfl, rfl⟩)
  case isPublic =>
    show r.isPublic.getD true = false ↔ _
    cases r.isPublic with
    | none => simp
    | some b => simp
  all_goals rfl

theorem readItems_ne_invalid (scope : Scope) (vs : List Value) (faults : List Schema.Fault) :
    (scope.readItems vs).result ≠ .error (.invalid faults) :=
  fun h => (scope.readItems_within (P := (· ≠ .invalid faults)) (Q := fun _ => True)
    (fun _ => nofun) (fun _ => trivial) vs).failsOnly _ h rfl

theorem accepted_ne_error {d : Definition} (h : d.inconsistency? = none) (e : Failure) :
    (accepted d).result ≠ .error e := by
  rw [accepted_of_consistent h]
  exact nofun

theorem locator_of_compileFactory {f : FactoryRecord} {faults : List Schema.Fault}
    (h : (c.compileFactory r f baseDir).result s = .error (.invalid faults)) :
    (c.locator f.className (c.directory baseDir) none).result s = .error (.invalid faults) := by
  obtain h | ⟨owner, -, h⟩ := Act.bind_eq_error_iff.mp h
  · unfold factoryOwner at h
    split at h
    · cases h
    · rw [Act.map_eq_error_iff, result_locate] at h
      exact h
  · obtain h | ⟨as, -, h⟩ := Act.bind_eq_error_iff.mp h
    · exact absurd h (readItems_ne_invalid _ _ _)
    · exact absurd h (accepted_ne_error rfl _)

theorem locator_of_compileClass {specifier : String} {faults : List Schema.Fault}
    (h : (c.compileClass r specifier baseDir).result s = .error (.invalid faults)) :
    (c.locator specifier (c.directory baseDir) r.main).result s = .error (.invalid faults) := by
  obtain h | ⟨as, -, h⟩ := Act.bind_eq_error_iff.mp h
  · exact absurd h (readItems_ne_invalid _ _ _)
  obtain h | ⟨located, -, h⟩ := Act.bind_eq_error_iff.mp h
  · rwa [Act.after_lift, result_locate] at h
  obtain h | ⟨properties, -, h⟩ := Act.bind_eq_error_iff.mp h
  · have hreads := c.scope.readValues_within (P := (· ≠ .invalid faults)) (Q := fun _ => True)
      (fun _ => nofun) (fun _ => trivial) r.properties.entries
    exact absurd rfl (hreads.failsOnly _ h)
  obtain h | ⟨calls, -, h⟩ := Act.bind_eq_error_iff.mp h
  · have hreads := c.readCalls_within (P := (· ≠ .invalid faults)) (Q := fun _ => True)
      (fun _ => nofun) (fun _ => trivial) r.calls
    exact absurd rfl (hreads.failsOnly _ h)
  exact absurd h (accepted_ne_error rfl _)

/-- A record never makes a definition that its own check refuses: only what the locator raises can
look so. What a record compiles to is a definition of the kind that its form tells, and it holds
what the record has, part by part. -/
theorem compile_shape (c : Surroundings σ) (id : String) (r : ServiceRecord) (baseDir : String)
    (s : σ) :
    (∀ faults, (c.compile id (.record r) baseDir).result s = .error (.invalid faults) →
      (∃ f, r.factory = some f ∧
        (c.locator f.className (c.directory baseDir) none).result s = .error (.invalid faults)) ∨
      ∃ specifier, r.factory = none ∧ r.className = some specifier ∧
        (c.locator specifier (c.directory baseDir) r.main).result s = .error (.invalid faults)) ∧
    ∀ compiled, (c.compile id (.record r) baseDir).result s = .ok compiled →
      ∃ d, compiled = .definition d ∧ d.inconsistency? = none ∧
        (d.kind = .byFactory ↔ r.factory ≠ none) ∧
        (d.kind = .synthetic ↔ r.factory = none ∧ r.synthetic = some true) ∧
        (d.kind = .byClass ↔ r.factory = none ∧ r.synthetic ≠ some true) ∧
        (d.kind = .byFactory → c.FactoryBacked r baseDir s d) ∧
        (d.kind = .synthetic → d = { implementation := none, synthetic := true }) ∧
        (d.kind = .byClass → c.ClassBacked r baseDir s d) := by
  constructor
  · intro faults h
    rw [compile, Act.map_eq_error_iff, compileRecord] at h
    cases hfactory : r.factory with
    | some f =>
      rw [hfactory] at h
      exact .inl ⟨f, rfl, locator_of_compileFactory h⟩
    | none =>
      rw [hfactory] at h
      dsimp only at h
      split at h
      · exact absurd h (accepted_ne_error rfl _)
      · split at h
        · cases h
        · cases h
        · next specifier _ hclass => exact .inr ⟨specifier, rfl, hclass, locator_of_compileClass h⟩
  · intro compiled h
    obtain ⟨d, hd, rfl⟩ := Act.map_eq_ok_iff.mp h
    refine ⟨d, rfl, ?_⟩
    rw [compileRecord] at hd
    cases hfactory : r.factory with
    | some f =>
      rw [hfactory] at hd
      obtain ⟨hconsistent, hkind, hshape⟩ := factoryBacked_of_compileFactory hfactory hd
      simp [hconsistent, hkind, hshape]
    | none =>
      rw [hfactory] at hd
      dsimp only at hd
      split at hd
      · next hsynthetic =>
        obtain rfl := eq_of_accepted hd
        have hconsistent :
            ({ implementation := none, synthetic := true } : Definition).inconsistency? = none := rfl
        simp [hconsistent, Definition.kind, hsynthetic]
      · next hsynthetic =>
        split at hd
        · cases hd
        · cases hd
        · next specifier hne hclass =>
          obtain ⟨hconsistent, hkind, hshape⟩ := classBacked_of_compileClass hclass hne hd
          simp [hconsistent, hkind, hshape, hsynthetic]

end Surroundings
end Wiring
