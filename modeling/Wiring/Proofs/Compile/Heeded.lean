import Wiring.Modules.Memory
import Wiring.Proofs.Compile.Shape

/-! What compiling a record pays heed to. The form of a record decides which of its fields have a
say, and a default directory leaves the directory of the document without one. -/
namespace Wiring

/-- A record without the fields that its form passes over: a factory leaves the arguments and
whether the service is shared, and a synthetic record is nothing else. -/
def ServiceRecord.heeded (r : ServiceRecord) : ServiceRecord :=
  match r.factory with
  | some f => { factory := some f, arguments := r.arguments, shared := r.shared }
  | none => if r.synthetic = some true then { synthetic := some true } else r

theorem ServiceRecord.heeded_of_factory {r : ServiceRecord} {f : FactoryRecord}
    (h : r.factory = some f) :
    r.heeded = { factory := some f, arguments := r.arguments, shared := r.shared } := by
  rw [heeded, h]

theorem ServiceRecord.heeded_of_synthetic {r : ServiceRecord} (h : r.factory = none)
    (hsynthetic : r.synthetic = some true) : r.heeded = { synthetic := some true } := by
  rw [heeded, h]
  exact if_pos hsynthetic

namespace Surroundings
variable {σ : Type} {c : Surroundings σ}

/-- Only what a record's form heeds has a say in what it compiles to. -/
theorem compile_heeded (c : Surroundings σ) (id : String) (r : ServiceRecord) (baseDir : String) :
    c.compile id (.record r.heeded) baseDir = c.compile id (.record r) baseDir := by
  rw [compile, compile, compileRecord, compileRecord]
  cases hfactory : r.factory with
  | some f =>
    rw [ServiceRecord.heeded_of_factory hfactory]
    rfl
  | none =>
    by_cases hsynthetic : r.synthetic = some true
    · rw [ServiceRecord.heeded_of_synthetic hfactory hsynthetic]
      dsimp only
      rw [if_pos hsynthetic, if_pos rfl]
    · have hkept : r.heeded = r := by
        rw [ServiceRecord.heeded, hfactory]
        exact if_neg hsynthetic
      rw [hkept, hfactory]

theorem compile_of_synthetic (c : Surroundings σ) (id baseDir : String) {r : ServiceRecord}
    (h : r.factory = none) (hsynthetic : r.synthetic = some true) :
    c.compile id (.record r) baseDir =
      pure (.definition { implementation := none, synthetic := true }) := by
  have haccepted : accepted { implementation := none, synthetic := true } = pure _ :=
    accepted_of_consistent rfl
  rw [← compile_heeded, ServiceRecord.heeded_of_synthetic h hsynthetic, compile, compileRecord]
  dsimp only
  rw [if_pos rfl, haccepted]
  rfl

theorem directory_of_default {directory : String} (h : c.defaultDir = some directory)
    (hne : directory ≠ "") (baseDir : String) : c.directory baseDir = directory := by
  rw [Surroundings.directory, h]
  split
  · next heq => cases heq
  · next heq => exact absurd (Option.some.inj heq) hne
  · next heq => exact (Option.some.inj heq).symm

variable {baseDir baseDir' : String}

theorem locate_directory_congr (h : c.directory baseDir' = c.directory baseDir)
    (specifier : String) (wanted : Option String) :
    c.locate specifier baseDir' wanted = c.locate specifier baseDir wanted := by
  rw [locate, locate, h]

theorem factoryOwner_directory_congr (h : c.directory baseDir' = c.directory baseDir)
    (f : FactoryRecord) : c.factoryOwner f baseDir' = c.factoryOwner f baseDir := by
  unfold factoryOwner
  rw [locate_directory_congr h]

theorem compile_directory_congr (h : c.directory baseDir' = c.directory baseDir) (id : String)
    (entry : ServiceEntry) : c.compile id entry baseDir' = c.compile id entry baseDir := by
  have hfactory (r : ServiceRecord) (f : FactoryRecord) :
      c.compileFactory r f baseDir' = c.compileFactory r f baseDir := by
    rw [compileFactory, compileFactory, factoryOwner_directory_congr h]
  have hclass (r : ServiceRecord) (specifier : String) :
      c.compileClass r specifier baseDir' = c.compileClass r specifier baseDir := by
    rw [compileClass, compileClass, locate_directory_congr h]
  have hrecord (r : ServiceRecord) :
      c.compileRecord id r baseDir' = c.compileRecord id r baseDir := by
    unfold compileRecord
    split
    · exact hfactory r _
    · split
      · rfl
      · split
        · rfl
        · rfl
        · exact hclass r _
  cases entry with
  | «alias» text => rfl
  | record r => rw [compile, compile, hrecord]

/-- What a form passes over has no influence, not even a fault in it. Records with one factory
compile alike if they agree in the arguments and in whether they are shared. A synthetic record
compiles at once, whatever else it says: nothing is read, nothing is looked for. Under a default
directory the directory of the document has no say. -/
theorem compile_unheeded (c : Surroundings σ) (id baseDir : String) :
    (∀ (r r' : ServiceRecord) (f : FactoryRecord), r.factory = some f → r'.factory = some f →
      r'.shared = r.shared → r'.arguments = r.arguments →
        c.compile id (.record r') baseDir = c.compile id (.record r) baseDir) ∧
    (∀ r : ServiceRecord, r.factory = none → r.synthetic = some true →
      c.compile id (.record r) baseDir =
        pure (.definition { implementation := none, synthetic := true })) ∧
    ∀ directory, c.defaultDir = some directory → directory ≠ "" →
      ∀ (entry : ServiceEntry) (baseDir' : String),
        c.compile id entry baseDir' = c.compile id entry baseDir := by
  refine ⟨fun r r' f h h' hshared harguments => ?_, fun r h hsynthetic => ?_,
    fun directory h hne entry baseDir' => ?_⟩
  · have hsame : r'.heeded = r.heeded := by
      rw [ServiceRecord.heeded_of_factory h, ServiceRecord.heeded_of_factory h', hshared, harguments]
    rw [← compile_heeded, hsame, compile_heeded]
  · exact c.compile_of_synthetic id baseDir h hsynthetic
  · refine compile_directory_congr ?_ id entry
    rw [directory_of_default h hne, directory_of_default h hne]

/-- Parameters that are not set and modules that are not there do no harm where they have no
say. -/
theorem faults_unheeded :
    let c : Surroundings Modules.Memory :=
      { scope := ⟨fun _ => none, fun _ => none⟩, defaultDir := some "/lib",
        locator := Modules.locate {} Modules.Memory.fileSystem }
    let made : ServiceRecord :=
      { factory := some ⟨"@maker", "make"⟩, arguments := [.text "@log"], shared := some false }
    let faulty : ServiceRecord :=
      { className := some "./nowhere", properties := Table.ofList [("to", .text "%unset%")],
        calls := [⟨"start", [.text "%unset%"]⟩], synthetic := some true }
    c.compile "mail" (.record { faulty with
        factory := made.factory, arguments := made.arguments, shared := made.shared }) "/app" =
      c.compile "mail" (.record made) "/app" ∧
    c.compile "mail" (.record faulty) "/app" =
      pure (.definition { implementation := none, synthetic := true }) ∧
    c.compile "mail" (.record { faulty with synthetic := none }) "/srv" =
      c.compile "mail" (.record { faulty with synthetic := none }) "/app" := by
  intro c made faulty
  obtain ⟨hfactory, hsynthetic, hdirectory⟩ := compile_unheeded c "mail" "/app"
  exact ⟨hfactory made _ ⟨"@maker", "make"⟩ rfl rfl rfl rfl, hsynthetic faulty rfl rfl,
    hdirectory "/lib" rfl (by decide) _ "/srv"⟩

end Surroundings
end Wiring
