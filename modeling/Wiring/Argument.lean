import Wiring.Value

/-! Arguments of services: values, references to services and parameters, and structures of them. -/
namespace Wiring

/-- Another service by its id. An optional reference may name a service that is not there. -/
structure Reference where
  target : String
  optional : Bool := false
deriving DecidableEq, Repr

inductive Argument where
  | literal (v : Value)
  | reference (r : Reference)
  | parameter (name : String)
  | tagged (tag : String)
  | list (items : List Argument)
  | map (entries : List (Scalar × Argument))
  /-- A value put in by hand, which nobody classified. -/
  | given (v : Value)
deriving Repr

end Wiring
