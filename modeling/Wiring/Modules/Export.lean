import Wiring.Modules.Search
import Wiring.Definition.Schema
import Wiring.Text.LetterCase

/-! Which export of a module a specifier means. -/
namespace Wiring.Modules

/-- `user_service` becomes `UserService`. -/
def camelCase (name : String) : String :=
  String.ofList ((Text.split '_' name.toList).flatMap fun part =>
    match part with
    | [] => []
    | c :: cs => Text.upper c ++ cs)

/-- The last segment without one suffix at its end. An empty suffix takes everything. -/
def stem (specifier suffix : String) : String :=
  let name := (Path.Trail.ofText specifier).name
  if Text.endsWith name suffix then
    if suffix = "" then "" else String.ofList (name.toList.take (name.length - suffix.length))
  else name

def moduleName (specifier suffix : String) : String :=
  String.ofList (Text.afterLast '.' (stem specifier suffix).toList)

def candidateNames (specifier : String) (wanted : Option String) (suffix : String) : List String :=
  let name := moduleName specifier suffix
  (unique (wanted.toList ++ ["default", name, camelCase name])).filter (· ≠ "")

def selectExport (exports : Exports) (specifier : String) (wanted : Option String)
    (suffix : String) : Traced (Option Value) :=
  match (candidateNames specifier wanted suffix).findSome?
      (fun name => (exports.get? name).bind Value.present?) with
  | some v => pure (some v)
  | none => do
    Traced.emit (.log (.noExport specifier wanted))
    pure none

/-- From a specifier, a directory and a wanted name to an export, if one is meant. -/
abbrev Locator (σ : Type) := String → String → Option String → Act σ (Option Value)

variable {σ : Type}

/-- What a module raises while it is loaded makes its place unresolved, unless the failure is one
of compilation or ends the process. -/
def loading (location : String) (load : Act σ Exports) : Act σ Exports := fun s =>
  match load s with
  | (⟨.error e, es⟩, s) =>
    if e.isOwn || e.reach = .fatal then (⟨.error e, es⟩, s)
    else (⟨.error (.unresolved location (some (.loadFailed e.text))), es⟩, s)
  | r => r

def locate (rules : SearchRules) (fs : FileSystem σ) : Locator σ :=
  fun specifier directory wanted => do
    let location ← resolve rules fs specifier directory
    Act.emit (.loadedModule location)
    let exports ← loading location (fs.loadModule location)
    liftM (selectExport exports specifier wanted rules.suffix)

end Wiring.Modules
