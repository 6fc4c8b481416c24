import Wiring.Modules.Export

/-! A fixed registry in place of a file system: specifiers stand for objects or for modules. -/
namespace Wiring.Modules

inductive Registered where
  | object (v : Value)
  | module (exports : Exports)

abbrev Registry := Table Registered

namespace Registry

def locate (r : Registry) (specifier : String) (wanted : Option String) : Traced (Option Value) :=
  match r.get? specifier with
  | none => Traced.fail (.unresolved specifier (some .notRegistered))
  | some (.object v) => pure v.present?
  | some (.module exports) => selectExport exports specifier wanted ".py"

def locator : Locator Registry := fun specifier _ wanted r => (Registry.locate r specifier wanted, r)

end Registry
end Wiring.Modules
