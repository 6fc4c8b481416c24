import Wiring.Modules.Memory
import Wiring.Proofs.Argument.Texts
import Wiring.Proofs.Compile.Aliases
import Wiring.Proofs.Compile.Shape

/-! Compiling a record stage by stage: each stage reads one value, looks for one class or refuses
the record. The first stage that fails decides what the compilation comes to, and nothing is done
after it. -/
namespace Wiring

inductive Stage where
  | read (v : Value)
  | locate (specifier : String) (wanted : Option String)
  | refuse (id : String)

/-- A factory that is another service is not looked for. -/
def FactoryRecord.stages (f : FactoryRecord) : List Stage :=
  if Text.startsWith f.className "@" then [] else [.locate f.className none]

def ServiceRecord.attached (r : ServiceRecord) : List Value :=
  r.properties.entries.map Prod.snd ++ r.calls.flatMap CallRecord.arguments

def ServiceRecord.stages (id : String) (r : ServiceRecord) : List Stage :=
  match r.factory with
  | some f => f.stages ++ r.arguments.map .read
  | none =>
    if r.synthetic = some true then []
    else match r.className with
      | none | some "" => [.refuse id]
      | some specifier =>
        r.arguments.map .read ++ .locate specifier r.main :: r.attached.map .read

namespace ServiceRecord
variable {id : String} {r : ServiceRecord}

theorem stages_of_factory {f : FactoryRecord} (h : r.factory = some f) :
    r.stages id = f.stages ++ r.arguments.map .read := by
  rw [stages, h]

theorem stages_of_synthetic (h : r.factory = none) (hsynthetic : r.synthetic = some true) :
    r.stages id = [] := by
  rw [stages, h]
  exact if_pos hsynthetic

theorem stages_of_empty (h : r.factory = none) (hsynthetic : r.synthetic ≠ some true)
    (hclass : r.className = none ∨ r.className = some "") : r.stages id = [.refuse id] := by
  rw [stages, h]
  refine (if_neg hsynthetic).trans ?_
  obtain hclass | hclass := hclass
  · rw [hclass]
  · rw [hclass]
    rfl

structure IsOfClass (r : ServiceRecord) (specifier : String) : Prop where
  factory : r.factory = none
  synthetic : r.synthetic ≠ some true
  className : r.className = some specifier
  nonempty : specifier ≠ ""

theorem stages_of_class {specifier : String} (h : r.IsOfClass specifier) :
    r.stages id =
      r.arguments.map .read ++ .locate specifier r.main :: r.attached.map .read := by
  rw [stages, h.factory]
  refine (if_neg h.synthetic).trans ?_
  rw [h.className]
  split
  · next heq => cases heq
  · next heq => exact absurd (Option.some.inj heq) h.nonempty
  · next heq =>
    cases heq
    rfl

end ServiceRecord

namespace Surroundings
variable {σ : Type} {c : Surroundings σ} {baseDir : String} {s s' : σ}

theorem discard_readCalls (calls : List CallRecord) :
    (fun _ => ()) <$> c.readCalls calls =
      c.scope.readTexts (Value.textsOfItems (calls.flatMap CallRecord.arguments)) := by
  induction calls with
  | nil => rfl
  | cons call calls ih =>
    rw [readCalls, List.flatMap_cons, Value.textsOfItems_append, Scope.readTexts_append,
      ← Scope.discard_readItems call.arguments, ← ih]
    simp only [map_eq_pure_bind, bind_assoc, pure_bind]

def take (c : Surroundings σ) (baseDir : String) : Stage → Act σ Unit
  | .read v => liftM ((fun _ => ()) <$> c.scope.read v)
  | .locate specifier wanted => (fun _ => ()) <$> c.locate specifier baseDir wanted
  | .refuse id => Act.fail (.document (.emptyRecord id))

def takeAll (c : Surroundings σ) (baseDir : String) : List Stage → Act σ Unit
  | [] => pure ()
  | stage :: stages => do
    c.take baseDir stage
    c.takeAll baseDir stages

theorem takeAll_append (stages stages' : List Stage) :
    c.takeAll baseDir (stages ++ stages') =
      (do c.takeAll baseDir stages; c.takeAll baseDir stages') := by
  induction stages with
  | nil => rfl
  | cons stage stages ih => simp only [List.cons_append, takeAll, ih, bind_assoc]

theorem takeAll_read (vs : List Value) :
    c.takeAll baseDir (vs.map .read) = liftM (c.scope.readTexts (Value.textsOfItems vs)) := by
  induction vs with
  | nil => rfl
  | cons v vs ih =>
    rw [List.map_cons, takeAll, take, ih, Value.textsOfItems, Scope.readTexts_append,
      Act.lift_bind, Scope.discard_read]

theorem discard_factoryOwner (f : FactoryRecord) :
    (fun _ => ()) <$> c.factoryOwner f baseDir = c.takeAll baseDir f.stages := by
  unfold FactoryRecord.stages factoryOwner
  split
  · next r hr =>
    rw [if_pos (TextMeaning.of_eq_reference_iff.mp ⟨r, hr⟩)]
    rfl
  · next hnot =>
    have hstart : ¬ Text.startsWith f.className "@" = true := by
      intro hstart
      obtain ⟨r, hr⟩ := TextMeaning.of_eq_reference_iff.mpr hstart
      exact hnot r hr
    rw [if_neg hstart, takeAll, takeAll, take, Functor.map_map]
    simp only [map_eq_pure_bind, bind_assoc, pure_bind]

theorem lift_accepted {d : Definition} (h : d.inconsistency? = none) :
    (liftM (accepted d) : Act σ Definition) = pure d :=
  congrArg liftM (accepted_of_consistent h)

theorem discard_compileFactory (r : ServiceRecord) (f : FactoryRecord) :
    (fun _ => ()) <$> c.compileFactory r f baseDir =
      c.takeAll baseDir (f.stages ++ r.arguments.map .read) := by
  rw [takeAll_append, ← discard_factoryOwner, takeAll_read, ← Scope.discard_readItems, Act.lift_map,
    compileFactory]
  simp only [map_eq_pure_bind, bind_assoc, pure_bind]
  refine bind_congr fun owner => bind_congr fun as => ?_
  rw [lift_accepted rfl, pure_bind]

theorem discard_compileClass (r : ServiceRecord) (specifier : String) :
    (fun _ => ()) <$> c.compileClass r specifier baseDir = c.takeAll baseDir
      (r.arguments.map .read ++ .locate specifier r.main :: r.attached.map .read) := by
  rw [takeAll_append, takeAll_read, takeAll, takeAll_read, ServiceRecord.attached,
    Value.textsOfItems_append, Scope.readTexts_append, ← Scope.discard_readValues,
    ← discard_readCalls, ← Scope.discard_readItems, Act.lift_bind, Act.lift_map, Act.lift_map,
    Act.lift_map, take, compileClass]
  simp only [map_eq_pure_bind, bind_assoc, pure_bind]
  refine bind_congr fun as => bind_congr fun located => bind_congr fun properties =>
    bind_congr fun calls => ?_
  rw [lift_accepted rfl, pure_bind]

theorem discard_compile (c : Surroundings σ) (id : String) (r : ServiceRecord) (baseDir : String) :
    (fun _ => ()) <$> c.compile id (.record r) baseDir = c.takeAll baseDir (r.stages id) := by
  rw [compile, Functor.map_map]
  unfold compileRecord
  split
  · next f hf => rw [ServiceRecord.stages_of_factory hf, ← discard_compileFactory]
  · next hnone =>
    split
    · next hsynthetic =>
      rw [ServiceRecord.stages_of_synthetic hnone hsynthetic, lift_accepted rfl]
      rfl
    · next hsynthetic =>
      split
      · next hclass =>
        rw [ServiceRecord.stages_of_empty hnone hsynthetic (.inl hclass)]
        rfl
      · next hclass =>
        rw [ServiceRecord.stages_of_empty hnone hsynthetic (.inr hclass)]
        rfl
      · next specifier hne hclass =>
        rw [ServiceRecord.stages_of_class ⟨hnone, hsynthetic, hclass, hne⟩, ← discard_compileClass]

/-- The stages pass one after the other, from a state to a state and with these events. -/
inductive Passes (c : Surroundings σ) (baseDir : String) :
    σ → List Stage → List Event → σ → Prop
  | nil (s : σ) : Passes c baseDir s [] [] s
  | cons {s s₁ s' : σ} {stage : Stage} {stages : List Stage} {es es' : List Event}
      (h : c.take baseDir stage s = (⟨.ok (), es⟩, s₁)) (rest : Passes c baseDir s₁ stages es' s') :
      Passes c baseDir s (stage :: stages) (es ++ es') s'

theorem takeAll_append_of_passes {stages : List Stage} {es : List Event}
    (h : c.Passes baseDir s stages es s') (rest : List Stage) :
    c.takeAll baseDir (stages ++ rest) s = (⟨(c.takeAll baseDir rest).result s',
      es ++ (c.takeAll baseDir rest).events s'⟩, (c.takeAll baseDir rest).after s') := by
  induction h with
  | nil s => rfl
  | cons h _ ih =>
    rw [List.cons_append, takeAll, Act.bind_apply_ok h, List.append_assoc]
    rw [Act.result, Act.events, Act.after, ih]

theorem takeAll_of_passes {stages : List Stage} {es : List Event}
    (h : c.Passes baseDir s stages es s') :
    c.takeAll baseDir stages s = (⟨.ok (), es⟩, s') := by
  have hall := takeAll_append_of_passes h []
  rw [List.append_nil] at hall
  rw [hall]
  show (⟨.ok (), es ++ []⟩, s') = ((⟨.ok (), es⟩, s') : Traced Unit × σ)
  rw [List.append_nil]

theorem takeAll_of_fails {before after : List Stage} {stage : Stage} {es es' : List Event}
    {s₁ : σ} {e : Failure} (hpasses : c.Passes baseDir s before es s₁)
    (hfails : c.take baseDir stage s₁ = (⟨.error e, es'⟩, s')) :
    c.takeAll baseDir (before ++ stage :: after) s = (⟨.error e, es ++ es'⟩, s') := by
  have hstop : c.takeAll baseDir (stage :: after) s₁ = (⟨.error e, es'⟩, s') :=
    Act.bind_apply_error hfails
  rw [takeAll_append_of_passes hpasses, Act.result, Act.events, Act.after, hstop]

/-- Either all the stages pass, or one of them is the first that fails. -/
theorem passes_or_fails (c : Surroundings σ) (baseDir : String) (stages : List Stage) (s : σ) :
    (∃ es s', c.Passes baseDir s stages es s') ∨
      ∃ before stage after es s₁ e es' s', stages = before ++ stage :: after ∧
        c.Passes baseDir s before es s₁ ∧ c.take baseDir stage s₁ = (⟨.error e, es'⟩, s') := by
  induction stages generalizing s with
  | nil => exact .inl ⟨[], s, .nil s⟩
  | cons stage stages ih =>
    rcases hrun : c.take baseDir stage s with ⟨⟨result, es⟩, s₁⟩
    cases result with
    | error e => exact .inr ⟨[], stage, stages, [], s, e, es, s₁, rfl, .nil s, hrun⟩
    | ok u =>
      obtain ⟨es', s', hpasses⟩ |
        ⟨before, failing, after, es', s₂, e, es'', s', rfl, hpasses, hfails⟩ := ih s₁
      · exact .inl ⟨es ++ es', s', .cons hrun hpasses⟩
      · exact .inr ⟨stage :: before, failing, after, es ++ es', s₂, e, es'', s', rfl,
          .cons hrun hpasses, hfails⟩

theorem takeAll_eq_error_iff {stages : List Stage} {e : Failure} {es : List Event} :
    c.takeAll baseDir stages s = (⟨.error e, es⟩, s') ↔
      ∃ before stage after es₁ s₁ es₂, stages = before ++ stage :: after ∧
        c.Passes baseDir s before es₁ s₁ ∧
        c.take baseDir stage s₁ = (⟨.error e, es₂⟩, s') ∧ es = es₁ ++ es₂ := by
  constructor
  · intro h
    obtain ⟨es', s₁, hpasses⟩ |
      ⟨before, stage, after, es₁, s₁, e', es₂, s₂, rfl, hpasses, hfails⟩ :=
      c.passes_or_fails baseDir stages s
    · rw [takeAll_of_passes hpasses] at h
      cases h
    · rw [takeAll_of_fails hpasses hfails] at h
      cases h
      exact ⟨before, stage, after, es₁, s₁, es₂, rfl, hpasses, hfails, rfl⟩
  · rintro ⟨before, stage, after, es₁, s₁, es₂, rfl, hpasses, hfails, rfl⟩
    exact takeAll_of_fails hpasses hfails

theorem takeAll_eq_ok_iff {stages : List Stage} {es : List Event} :
    c.takeAll baseDir stages s = (⟨.ok (), es⟩, s') ↔ c.Passes baseDir s stages es s' := by
  refine ⟨fun h => ?_, takeAll_of_passes⟩
  obtain ⟨es', s₁, hpasses⟩ | ⟨before, stage, after, es₁, s₁, e, es₂, s₂, rfl, hpasses, hfails⟩ :=
    c.passes_or_fails baseDir stages s
  · rw [takeAll_of_passes hpasses] at h
    cases h
    exact hpasses
  · rw [takeAll_of_fails hpasses hfails] at h
    cases h

theorem take_read (v : Value) :
    c.take baseDir (.read v) = liftM (c.scope.readTexts v.texts) := by
  rw [take, Scope.discard_read]

theorem exists_of_take_read {v : Value} {e : Failure} {es : List Event}
    (h : c.take baseDir (.read v) s = (⟨.error e, es⟩, s')) :
    s' = s ∧ ∃ before name, c.scope.FirstLacks v.texts before name ∧
      e = .unresolved name (some .parameterNotSet) ∧ es = c.scope.warnings before := by
  rw [take_read] at h
  obtain ⟨hread, hstate⟩ := Prod.mk.inj h
  exact ⟨hstate.symm, Scope.exists_firstLacks_of_error hread⟩

variable {id : String} {r : ServiceRecord} {specifier : String}

/-- A record with a class fails as reading its arguments, looking for the class and reading what
is attached do one after the other. -/
theorem compile_class_eq_error_iff (h : r.IsOfClass specifier) {e : Failure} {es : List Event} :
    c.compile id (.record r) baseDir s = (⟨.error e, es⟩, s') ↔
      (do
        liftM (c.scope.readTexts (Value.textsOfItems r.arguments))
        (fun _ => ()) <$> c.locate specifier baseDir r.main
        liftM (c.scope.readTexts (Value.textsOfItems r.attached)) : Act σ Unit) s =
        (⟨.error e, es⟩, s') := by
  rw [← Act.discard_eq_error_iff, discard_compile, ServiceRecord.stages_of_class h, takeAll_append,
    takeAll_read, takeAll, takeAll_read, take]

theorem compile_of_lacking_argument (h : r.IsOfClass specifier) {before : List String}
    {name : String}
    (hlacks : c.scope.FirstLacks (Value.textsOfItems r.arguments) before name) :
    c.compile id (.record r) baseDir s =
      (⟨.error (.unresolved name (some .parameterNotSet)), c.scope.warnings before⟩, s) := by
  rw [compile_class_eq_error_iff h]
  refine Act.bind_apply_error ?_
  rw [Scope.readTexts_of_firstLacks hlacks]
  rfl

theorem lift_readTexts_of_no_lack {texts : List String}
    (h : ∀ t ∈ texts, ∀ name, ¬ c.scope.Lacks t name) (s : σ) :
    (liftM (c.scope.readTexts texts) : Act σ Unit) s = (⟨.ok (), c.scope.warnings texts⟩, s) := by
  rw [Scope.readTexts_of_no_lack h]
  rfl

theorem compile_of_unlocated (h : r.IsOfClass specifier)
    (harguments : ∀ t ∈ Value.textsOfItems r.arguments, ∀ name, ¬ c.scope.Lacks t name)
    {e : Failure} {es : List Event}
    (hlocate : c.locate specifier baseDir r.main s = (⟨.error e, es⟩, s')) :
    c.compile id (.record r) baseDir s =
      (⟨.error e, c.scope.warnings (Value.textsOfItems r.arguments) ++ es⟩, s') := by
  rw [compile_class_eq_error_iff h]
  have hstop : ((fun _ => ()) <$> c.locate specifier baseDir r.main : Act σ Unit) s =
      (⟨.error e, es⟩, s') := Act.discard_eq_error_iff.mpr hlocate
  rw [Act.bind_apply_ok (lift_readTexts_of_no_lack harguments s), Act.result, Act.events, Act.after,
    Act.bind_apply_error hstop]

theorem compile_of_lacking_attached (h : r.IsOfClass specifier)
    (harguments : ∀ t ∈ Value.textsOfItems r.arguments, ∀ name, ¬ c.scope.Lacks t name)
    {located : Option Value} {es : List Event}
    (hlocate : c.locate specifier baseDir r.main s = (⟨.ok located, es⟩, s'))
    {before : List String} {name : String}
    (hlacks : c.scope.FirstLacks (Value.textsOfItems r.attached) before name) :
    c.compile id (.record r) baseDir s =
      (⟨.error (.unresolved name (some .parameterNotSet)),
        c.scope.warnings (Value.textsOfItems r.arguments) ++ (es ++ c.scope.warnings before)⟩,
        s') := by
  rw [compile_class_eq_error_iff h]
  have hfound : ((fun _ => ()) <$> c.locate specifier baseDir r.main : Act σ Unit) s =
      (⟨.ok (), es⟩, s') := Act.discard_eq_ok_iff.mpr ⟨located, hlocate⟩
  rw [Act.bind_apply_ok (lift_readTexts_of_no_lack harguments s), Act.result, Act.events, Act.after,
    Act.bind_apply_ok hfound, Scope.readTexts_of_firstLacks hlacks]
  rfl

/-- The first stage that fails decides. A compilation fails exactly where a stage does to which
the stages before it lead, with the failure of that stage and in its state, and all it has done is
what they did and what the stage did; it succeeds exactly where all the stages pass. A value that
is not read leaves the state alone, and the failure is the first parameter that its texts lack.
Of a record with a class, a parameter that an argument lacks is reported before the class is
looked for, a class that is not found whatever properties and calls say, and a parameter that one
of these lacks after the class is found. -/
theorem compile_decided (c : Surroundings σ) (id : String) (r : ServiceRecord) (baseDir : String)
    (s : σ) :
    (∀ e es s', c.compile id (.record r) baseDir s = (⟨.error e, es⟩, s') ↔
      ∃ before stage after es₁ s₁ es₂, r.stages id = before ++ stage :: after ∧
        c.Passes baseDir s before es₁ s₁ ∧
        c.take baseDir stage s₁ = (⟨.error e, es₂⟩, s') ∧ es = es₁ ++ es₂) ∧
    (∀ es s', (∃ compiled, c.compile id (.record r) baseDir s = (⟨.ok compiled, es⟩, s')) ↔
      c.Passes baseDir s (r.stages id) es s') ∧
    (∀ v s₁ e es s', c.take baseDir (.read v) s₁ = (⟨.error e, es⟩, s') →
      s' = s₁ ∧ ∃ before name, c.scope.FirstLacks v.texts before name ∧
        e = .unresolved name (some .parameterNotSet) ∧ es = c.scope.warnings before) ∧
    ∀ specifier, r.IsOfClass specifier →
      (∀ before name, c.scope.FirstLacks (Value.textsOfItems r.arguments) before name →
        c.compile id (.record r) baseDir s =
          (⟨.error (.unresolved name (some .parameterNotSet)), c.scope.warnings before⟩, s)) ∧
      ((∀ t ∈ Value.textsOfItems r.arguments, ∀ name, ¬ c.scope.Lacks t name) →
        (∀ e es s', c.locate specifier baseDir r.main s = (⟨.error e, es⟩, s') →
          ∀ properties calls,
            c.compile id (.record { r with properties := properties, calls := calls }) baseDir s =
              (⟨.error e, c.scope.warnings (Value.textsOfItems r.arguments) ++ es⟩, s')) ∧
        ∀ located es s', c.locate specifier baseDir r.main s = (⟨.ok located, es⟩, s') →
          ∀ before name, c.scope.FirstLacks (Value.textsOfItems r.attached) before name →
            c.compile id (.record r) baseDir s =
              (⟨.error (.unresolved name (some .parameterNotSet)),
                c.scope.warnings (Value.textsOfItems r.arguments) ++
                  (es ++ c.scope.warnings before)⟩, s')) := by
  refine ⟨fun e es s' => ?_, fun es s' => ?_, fun v s₁ e es s' => exists_of_take_read,
    fun specifier h => ⟨fun before name => compile_of_lacking_argument h,
      fun harguments => ⟨fun e es s' hlocate properties calls => ?_,
        fun located es s' hlocate before name => compile_of_lacking_attached h harguments hlocate⟩⟩⟩
  · rw [← Act.discard_eq_error_iff, discard_compile, takeAll_eq_error_iff]
  · rw [← Act.discard_eq_ok_iff, discard_compile, takeAll_eq_ok_iff]
  · exact compile_of_unlocated (r := { r with properties := properties, calls := calls })
      ⟨h.factory, h.synthetic, h.className, h.nonempty⟩ harguments hlocate

/-- The module is loaded before the property is found lacking, and not at all where an argument
lacks the same parameter. -/
theorem mail_decided :
    let m : Modules.Memory := { modules := Table.ofList [("/app/mail.py", ∅)] }
    let c : Surroundings Modules.Memory :=
      { scope := ⟨fun _ => none, fun _ => none⟩, defaultDir := none,
        locator := Modules.locate {} Modules.Memory.fileSystem }
    let mail : ServiceRecord :=
      { className := some "/app/mail", arguments := [.text "%env(HOME)%"]
        properties := Table.ofList [("to", .text "%unset%")] }
    c.compile "mail" (.record mail) "/app" m =
        (⟨.error (.unresolved "unset" (some .parameterNotSet)),
          [.log (.variableNotSet "HOME"), .located "/app/mail" "/app" none,
            .loadedModule "/app/mail", .log (.noExport "/app/mail" none)]⟩, m) ∧
      c.compile "mail" (.record { mail with arguments := [.text "%unset%"] }) "/app" m =
        (⟨.error (.unresolved "unset" (some .parameterNotSet)), []⟩, m) ∧
      c.compile "mail" (.record { mail with className := some "/app/none" }) "/app" m =
        (⟨.error (.unresolved "/app/none" (some .noModuleFile)),
          [.log (.variableNotSet "HOME"), .located "/app/none" "/app" none,
            .loadedModule "/app/none"]⟩, m) := by
  intro m c mail
  have hclear : ∀ t ∈ Value.textsOfItems mail.arguments, ∀ name, ¬ c.scope.Lacks t name := by
    intro t ht name hname
    obtain rfl := List.mem_singleton.mp ht
    have hhome : c.scope.lackedParameter? "%env(HOME)%" = none := by decide
    rw [Scope.lackedParameter?_eq_some_iff.mpr hname] at hhome
    cases hhome
  have hunset : c.scope.Lacks "%unset%" "unset" :=
    Scope.lackedParameter?_eq_some_iff.mp (by decide)
  have hfirst : c.scope.FirstLacks ["%unset%"] [] "unset" :=
    ⟨"%unset%", [], rfl, fun _ => nofun, hunset⟩
  have hlocate : c.locate "/app/mail" "/app" none m = (⟨.ok none,
      [.located "/app/mail" "/app" none, .loadedModule "/app/mail",
        .log (.noExport "/app/mail" none)]⟩, m) := by
    rfl
  have hnone : c.locate "/app/none" "/app" none m =
      (⟨.error (.unresolved "/app/none" (some .noModuleFile)),
        [.located "/app/none" "/app" none, .loadedModule "/app/none"]⟩, m) := by
    rfl
  have hclass (r : ServiceRecord) := (c.compile_decided "mail" r "/app" m).2.2.2
  refine ⟨?_, ?_, ?_⟩
  · exact ((hclass mail "/app/mail" ⟨rfl, nofun, rfl, by decide⟩).2 hclear).2 none _ m hlocate [] _
      hfirst
  · exact (hclass { mail with arguments := [.text "%unset%"] } "/app/mail"
      ⟨rfl, nofun, rfl, by decide⟩).1 [] _ hfirst
  · exact ((hclass { mail with className := some "/app/none" } "/app/none"
      ⟨rfl, nofun, rfl, by decide⟩).2 hclear).1 _ _ m hnone _ _

end Surroundings
end Wiring
