import Wiring.Value

/-! Checking records: what can be wrong with a value, where, and checks that report everything
that is wrong instead of the first thing only. -/
namespace Wiring.Schema

inductive Step where
  | name (s : String)
  | index (n : Int)
deriving DecidableEq, Repr

inductive Problem where
  | missing
  | notText
  | notUnicode
  | notList
  | notTuple
  | notMapping
  | notRecord (record : String)
  | notBool
  | unreadableBool
  | notInt
  | unreadableInt
  | oversizedInt
  | fractional
  | notFinite
  | frozen
  | rule (text : String)
deriving DecidableEq, Repr

/-- A problem at a place: the steps that lead there from the record that was checked. -/
structure Fault where
  problem : Problem
  place : List Step
deriving DecidableEq, Repr

def Fault.under (step : Step) (f : Fault) : Fault := { f with place := step :: f.place }

def Problem.code : Problem → String
  | .missing => "missing"
  | .notText => "string_type"
  | .notUnicode => "string_unicode"
  | .notList => "list_type"
  | .notTuple => "tuple_type"
  | .notMapping => "dict_type"
  | .notRecord _ => "model_type"
  | .notBool => "bool_type"
  | .unreadableBool => "bool_parsing"
  | .notInt => "int_type"
  | .unreadableInt => "int_parsing"
  | .oversizedInt => "int_parsing_size"
  | .fractional => "int_from_float"
  | .notFinite => "finite_number"
  | .frozen => "frozen_instance"
  | .rule _ => "value_error"

def Problem.message : Problem → String
  | .missing => "Field required"
  | .notText => "Input should be a valid string"
  | .notUnicode => "Input should be a valid string, unable to parse raw data as a unicode string"
  | .notList => "Input should be a valid list"
  | .notTuple => "Input should be a valid tuple"
  | .notMapping => "Input should be a valid dictionary"
  | .notRecord record => "Input should be a valid dictionary or instance of " ++ record
  | .notBool => "Input should be a valid boolean"
  | .unreadableBool => "Input should be a valid boolean, unable to interpret input"
  | .notInt => "Input should be a valid integer"
  | .unreadableInt => "Input should be a valid integer, unable to parse string as an integer"
  | .oversizedInt => "Unable to parse input string as an integer, exceeded maximum size"
  | .fractional => "Input should be a valid integer, got a number with a fractional part"
  | .notFinite => "Input should be a finite number"
  | .frozen => "Instance is frozen"
  | .rule text => "Value error, " ++ text

/-- A valid result, or all faults in the order of the checks. -/
inductive Checked (α : Type) where
  | valid (a : α)
  | faulty (faults : List Fault)
deriving Repr

namespace Checked
variable {α β : Type}

def map (f : α → β) : Checked α → Checked β
  | .valid a => .valid (f a)
  | .faulty fs => .faulty fs

def seq (f : Checked (α → β)) (x : Unit → Checked α) : Checked β :=
  match f, x () with
  | .valid g, .valid a => .valid (g a)
  | .valid _, .faulty fs => .faulty fs
  | .faulty fs, .valid _ => .faulty fs
  | .faulty fs, .faulty gs => .faulty (fs ++ gs)

instance : Applicative Checked where
  pure := .valid
  map := map
  seq := seq

def fault (p : Problem) : Checked α := .faulty [⟨p, []⟩]

def under (step : Step) : Checked α → Checked α
  | .valid a => .valid a
  | .faulty fs => .faulty (fs.map (Fault.under step))

/-- The first of two alternatives that is valid, and else the faults of both, each under its name. -/
def orElse (first : String) (a : Checked α) (second : String) (b : Checked α) : Checked α :=
  match a, b with
  | .valid x, _ => .valid x
  | .faulty _, .valid x => .valid x
  | .faulty fs, .faulty gs =>
    .faulty (fs.map (Fault.under (.name first)) ++ gs.map (Fault.under (.name second)))

def all (xs : List (Checked α)) : Checked (List α) :=
  match xs with
  | [] => .valid []
  | x :: xs => List.cons <$> x <*> all xs

end Checked
end Wiring.Schema
