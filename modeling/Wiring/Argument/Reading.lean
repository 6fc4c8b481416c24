import Wiring.Act
import Wiring.Argument

/-! Reading values as arguments. The signs at the start of a text tell what it stands for; what
an interpolation stands for is looked up at once and is not read again. -/
namespace Wiring

inductive TextMeaning where
  | reference (r : Reference)
  | interpolation (expression : String)
  | parameter (name : String)
  | tagged (tag : String)
  | literal
deriving DecidableEq, Repr

/-- A lone `%` both opens and closes, and so names the empty parameter. -/
def TextMeaning.of (s : String) : TextMeaning :=
  match s.toList with
  | '@' :: '?' :: target => .reference ⟨String.ofList target, true⟩
  | '@' :: target => .reference ⟨String.ofList target, false⟩
  | '%' :: name =>
    if ('%' :: name).getLast? = some '%' then .interpolation (String.ofList name.dropLast)
    else .parameter (String.ofList name)
  | cs =>
    if tagMarker.toList.isPrefixOf cs then .tagged (String.ofList (cs.drop tagMarker.length))
    else .literal

def variableName? (expression : String) : Option String :=
  match expression.toList with
  | 'e' :: 'n' :: 'v' :: '(' :: cs =>
    let name := cs.dropLast
    if cs.getLast? = some ')' ∧ name ≠ [] ∧ '(' ∉ name ∧ ')' ∉ name then some (String.ofList name)
    else none
  | _ => none

/-- What interpolations refer to. -/
structure Scope where
  fromParameters? : String → Option Value
  fromEnvironment? : String → Option String

namespace Scope

def interpolate (scope : Scope) (expression : String) : Traced Value :=
  match variableName? expression with
  | some name =>
    match scope.fromEnvironment? name with
    | some s => pure (.text s)
    | none => do
      Traced.emit (.log (.variableNotSet name))
      pure .null
  | none =>
    match scope.fromParameters? expression with
    | some v => pure v
    | none => Traced.fail (.unresolved expression (some .parameterNotSet))

def readText (scope : Scope) (s : String) : Traced Argument :=
  match TextMeaning.of s with
  | .reference r => pure (.reference r)
  | .interpolation e => .literal <$> scope.interpolate e
  | .parameter name => pure (.parameter name)
  | .tagged tag => pure (.tagged tag)
  | .literal => pure (.literal (.text s))

mutual
def read (scope : Scope) : Value → Traced Argument
  | .scalar (.text s) => scope.readText s
  | .scalar s => pure (.literal (.scalar s))
  | .set ms => pure (.literal (.set ms))
  | .list vs => .list <$> scope.readItems vs
  | .map es => .map <$> scope.readEntries es
def readItems (scope : Scope) : List Value → Traced (List Argument)
  | [] => pure []
  | v :: vs => do
    let a ← scope.read v
    let rest ← scope.readItems vs
    pure (a :: rest)
def readEntries (scope : Scope) : List (Scalar × Value) → Traced (List (Scalar × Argument))
  | [] => pure []
  | (k, v) :: es => do
    let a ← scope.read v
    let rest ← scope.readEntries es
    pure ((k, a) :: rest)
end

/-- Reads values under keys of any kind, one after the other. -/
def readValues {κ : Type} (scope : Scope) (es : List (κ × Value)) :
    Traced (List (κ × Argument)) :=
  (es.map Prod.fst).zip <$> scope.readItems (es.map Prod.snd)

end Scope
end Wiring
