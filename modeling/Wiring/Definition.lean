import Wiring.Argument
import Wiring.Table

/-! Definitions: how to make one service and how to wire it. -/
namespace Wiring

/-- A deprecation: a message, or a flag without one. -/
inductive Deprecation where
  | note (s : String)
  | flag (b : Bool)
deriving DecidableEq, Repr

inductive FactoryOwner where
  | service (r : Reference)
  | located (export? : Option Value)
deriving Repr

inductive Implementation where
  | byClass (located : Option Value) (specifier : String) (exportName : Option String)
  | byFactory (owner : FactoryOwner) (method : String)
deriving Repr

structure MethodCall where
  method : String
  arguments : List Argument
deriving Repr

structure Tag where
  name : String
  attributes : Table Value

/-- What makes a service. A synthetic one is put in from outside, so it has nothing to make. -/
structure Definition where
  implementation : Option Implementation
  arguments : List Argument := []
  appendedArguments : List Argument := []
  properties : Table Argument := ∅
  methodCalls : List MethodCall := []
  tags : List Tag := []
  shared : Bool := true
  lazy : Bool := false
  isPublic : Bool := true
  abstract : Bool := false
  synthetic : Bool := false
  deprecated : Option Deprecation := none
  parent : Option String := none
  decoratedService : Option String := none
  decorationPriority : Option Int := none

inductive Kind where
  | byClass | byFactory | synthetic
deriving DecidableEq, Repr

def Kind.text : Kind → String
  | .byClass => "class"
  | .byFactory => "factory"
  | .synthetic => "synthetic"

namespace Definition

def kind (d : Definition) : Kind :=
  if d.synthetic then .synthetic
  else match d.implementation with
    | some (.byFactory ..) => .byFactory
    | _ => .byClass

inductive Inconsistency where
  | syntheticImplementation
  | syntheticContents
  | noImplementation
deriving DecidableEq, Repr

def Inconsistency.text : Inconsistency → String
  | .syntheticImplementation => "A synthetic definition cannot have an implementation."
  | .syntheticContents => "A synthetic definition cannot carry arguments, properties, calls or tags."
  | .noImplementation => "A non-synthetic definition requires a class or factory implementation."

def isBare (d : Definition) : Bool :=
  d.arguments.isEmpty && d.appendedArguments.isEmpty && d.properties.entries.isEmpty &&
    d.methodCalls.isEmpty && d.tags.isEmpty

def inconsistency? (d : Definition) : Option Inconsistency :=
  if d.synthetic then
    if d.implementation.isSome then some .syntheticImplementation
    else if d.isBare then none else some .syntheticContents
  else if d.implementation.isNone then some .noImplementation
  else none

end Definition
end Wiring
