import Wiring.Modules.Search
import Wiring.Schema.Field

/-! Settings of a compilation, taken from arguments and from environment variables. -/
namespace Wiring
open Schema

structure Settings where
  defaultDir : Option String := none
  dependencyDirName : String := "site-packages"
  moduleSuffix : String := ".py"
  includeProcessPaths : Bool := true
deriving DecidableEq, Repr

namespace Settings

def variableStart : String := "blueprint_"

def ofVariables (environment : List (String × String)) : Entries :=
  environment.foldl (fun es (name, s) =>
    let lowered := (name.map Char.toLower).toList
    if variableStart.toList.isPrefixOf lowered then
      Value.put es (.text (String.ofList (lowered.drop variableStart.length))) (.text s)
    else es) []

/-- Arguments count before variables. -/
def check (arguments : Entries) (environment : List (String × String)) : Checked Settings :=
  let es := arguments.foldl (fun es e => Value.put es e.1 e.2) (ofVariables environment)
  Settings.mk
    <$> withDefault es "default_dir" (orNull asText) none
    <*> withDefault es "dependency_dir_name" asText "site-packages"
    <*> withDefault es "module_suffix" asText ".py"
    <*> withDefault es "include_process_paths" asFlag true

def searchRules (s : Settings) : Modules.SearchRules :=
  ⟨s.dependencyDirName, s.moduleSuffix, s.includeProcessPaths⟩

end Settings
end Wiring
