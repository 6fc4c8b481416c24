import Wiring.Argument.Reading
import Wiring.Container
import Wiring.Document
import Wiring.Modules.Export

/-! Compiling one service: an alias text or a record becomes an alias or a definition. -/
namespace Wiring

inductive Compiled where
  | alias (target : String)
  | definition (d : Definition)

/-- What compiling a service depends on besides the service itself. -/
structure Surroundings (σ : Type) where
  scope : Scope
  defaultDir : Option String
  locator : Modules.Locator σ

namespace Surroundings
variable {σ : Type} (c : Surroundings σ)

/-- The default directory, if one is set, stands in for the directory of the document. -/
def directory (baseDir : String) : String :=
  match c.defaultDir with
  | none | some "" => baseDir
  | some d => d

def locate (specifier baseDir : String) (wanted : Option String) : Act σ (Option Value) := do
  Act.emit (.located specifier (c.directory baseDir) wanted)
  c.locator specifier (c.directory baseDir) wanted

def readCalls : List CallRecord → Traced (List MethodCall)
  | [] => pure []
  | call :: calls => do
    let arguments ← c.scope.readItems call.arguments
    let rest ← readCalls calls
    pure (⟨call.method, arguments⟩ :: rest)

def readTag (t : TagRecord) : Tag := ⟨t.name, t.attributes.getD ∅⟩

def accepted (d : Definition) : Traced Definition :=
  match d.checkConsistent with
  | .valid d => pure d
  | .faulty fs => Traced.fail (.invalid fs)

def factoryOwner (f : FactoryRecord) (baseDir : String) : Act σ FactoryOwner :=
  match TextMeaning.of f.className with
  | .reference r => pure (.service r)
  | _ => .located <$> c.locate f.className baseDir none

def compileFactory (r : ServiceRecord) (f : FactoryRecord) (baseDir : String) : Act σ Definition := do
  let owner ← c.factoryOwner f baseDir
  let arguments ← c.scope.readItems r.arguments
  accepted { implementation := some (.byFactory owner f.method), arguments, shared := r.shared.getD true }

def compileClass (r : ServiceRecord) (specifier baseDir : String) : Act σ Definition := do
  let abstract := r.abstract.getD false
  let arguments ← c.scope.readItems r.arguments
  let located ← c.locate specifier baseDir r.main
  let properties ← c.scope.readValues r.properties.entries
  let methodCalls ← c.readCalls r.calls
  accepted
    { implementation := some (.byClass located specifier r.main)
      arguments := if abstract then [] else arguments
      appendedArguments := if abstract then arguments else []
      properties := Table.ofList properties
      methodCalls
      tags := r.tags.map readTag
      shared := r.shared.getD true
      lazy := r.lazy.getD false
      isPublic := r.isPublic.getD true
      abstract
      deprecated := r.deprecated
      parent := r.parent
      decoratedService := r.decorates
      decorationPriority := r.decorationPriority }

def compileRecord (id : String) (r : ServiceRecord) (baseDir : String) : Act σ Definition :=
  match r.factory with
  | some f => c.compileFactory r f baseDir
  | none =>
    if r.synthetic = some true then liftM (accepted { implementation := none, synthetic := true })
    else match r.className with
      | none | some "" => Act.fail (.document (.emptyRecord id))
      | some specifier => c.compileClass r specifier baseDir

def compile (id : String) (entry : ServiceEntry) (baseDir : String) : Act σ Compiled :=
  match entry with
  | .alias text =>
    match text.toList with
    | '@' :: target => pure (.alias (String.ofList target))
    | _ => Act.fail (.document (.badAlias id text))
  | .record r => .definition <$> c.compileRecord id r baseDir

end Surroundings
end Wiring
