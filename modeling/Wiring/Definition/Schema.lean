import Wiring.Definition
import Wiring.Schema.Field

/-! Checks for definitions and their parts, given as mappings from field names. -/
namespace Wiring
open Schema

def Value.present? : Value → Option Value
  | .null => none
  | v => some v

def Reference.check : Value → Checked Reference :=
  asRecord "ServiceReference" fun es =>
    Reference.mk <$> required es "target" asText <*> withDefault es "optional" asFlag false

def Argument.checkLiteral : Value → Checked Value :=
  asRecord "LiteralValue" fun es => required es "value" anything

def Argument.checkParameter : Value → Checked String :=
  asRecord "ParameterHandle" fun es => required es "name" asText

def Argument.checkTagged : Value → Checked String :=
  asRecord "TaggedCollectionReference" fun es => required es "tag" asText

def checkAlias : Value → Checked String :=
  asRecord "Alias" fun es => required es "target" asText

def given (v : Value) : Checked Argument := .valid (.given v)

namespace Implementation

def checkClass : Value → Checked Implementation :=
  asRecord "ClassImplementation" fun es =>
    (fun located specifier name => .byClass (located.bind Value.present?) specifier name)
      <$> withDefault es "cls" (orNull anything) none
      <*> required es "specifier" asText
      <*> withDefault es "export_name" (orNull asText) none

def checkFactory : Value → Checked Implementation :=
  asRecord "FactoryImplementation" fun es =>
    (fun owner method => .byFactory (.located owner.present?) method)
      <$> required es "target" anything <*> required es "method" asText

def countGiven (names : List String) : Value → Nat
  | .map es => (names.filter (fun n => (Value.entry? n es).isSome)).length
  | _ => 0

/-- Of two valid readings the one with more of its fields given, and of equal ones the first. -/
def check (v : Value) : Checked Implementation :=
  let byClass := checkClass v
  let byFactory := checkFactory v
  let given (names : List String) := countGiven names v
  match byFactory with
  | .valid f =>
    if given ["cls", "specifier", "export_name"] < given ["target", "method"] then .valid f
    else byClass.orElse "ClassImplementation" "FactoryImplementation" byFactory
  | .faulty _ => byClass.orElse "ClassImplementation" "FactoryImplementation" byFactory

end Implementation

def MethodCall.check : Value → Checked MethodCall :=
  asRecord "MethodCall" fun es =>
    MethodCall.mk <$> required es "method" asText <*> withDefault es "arguments" (asTupleOf given) []

def Tag.check : Value → Checked Tag :=
  asRecord "Tag" fun es =>
    Tag.mk <$> required es "name" asText <*> withDefault es "attributes" (asMappingOf anything) ∅

def Deprecation.check (v : Value) : Checked Deprecation :=
  (Deprecation.note <$> asText v).orElse "str" "bool" (Deprecation.flag <$> asFlag v)

namespace Definition

def checkFields (es : Entries) : Checked Definition :=
  Definition.mk
    <$> withDefault es "implementation" (orNull Implementation.check) none
    <*> withDefault es "arguments" (asTupleOf given) []
    <*> withDefault es "appended_arguments" (asTupleOf given) []
    <*> withDefault es "properties" (asMappingOf given) ∅
    <*> withDefault es "method_calls" (asTupleOf MethodCall.check) []
    <*> withDefault es "tags" (asTupleOf Tag.check) []
    <*> withDefault es "shared" asFlag true
    <*> withDefault es "lazy" asFlag false
    <*> withDefault es "public" asFlag true
    <*> withDefault es "abstract" asFlag false
    <*> withDefault es "synthetic" asFlag false
    <*> withDefault es "deprecated" (orNull Deprecation.check) none
    <*> withDefault es "parent" (orNull asText) none
    <*> withDefault es "decorated_service" (orNull asText) none
    <*> withDefault es "decoration_priority" (orNull asInteger) none

def checkConsistent (d : Definition) : Checked Definition :=
  match d.inconsistency? with
  | none => .valid d
  | some i => .fault (.rule i.text)

/-- Consistency is looked at only when every field is valid. -/
def check (v : Value) : Checked Definition :=
  match asRecord "Definition" checkFields v with
  | .valid d => d.checkConsistent
  | .faulty fs => .faulty fs

end Definition
end Wiring
