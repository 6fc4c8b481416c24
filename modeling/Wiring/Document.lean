import Wiring.Definition

/-! Service documents as they are written: parameters, imports and service records. -/
namespace Wiring

structure FactoryRecord where
  className : String
  method : String
deriving DecidableEq, Repr

structure CallRecord where
  method : String
  arguments : List Value := []

structure TagRecord where
  name : String
  attributes : Option (Table Value) := none

structure ServiceRecord where
  className : Option String := none
  main : Option String := none
  factory : Option FactoryRecord := none
  arguments : List Value := []
  properties : Table Value := ∅
  calls : List CallRecord := []
  tags : List TagRecord := []
  shared : Option Bool := none
  lazy : Option Bool := none
  isPublic : Option Bool := none
  abstract : Option Bool := none
  parent : Option String := none
  decorates : Option String := none
  decorationPriority : Option Int := none
  deprecated : Option Deprecation := none
  synthetic : Option Bool := none

/-- A service is declared by a record, or by a text that should be an alias. -/
inductive ServiceEntry where
  | alias (text : String)
  | record (r : ServiceRecord)

structure ImportRecord where
  resource : String
deriving DecidableEq, Repr

structure Document where
  parameters : Table Value := ∅
  imports : List ImportRecord := []
  services : Table ServiceEntry := ∅

end Wiring
