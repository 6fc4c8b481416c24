import Wiring.Document.Schema
import Wiring.Failure
import Wiring.Outline
import Wiring.Text.Split

/-! The records that can be built from plain values, each by its own check. -/
namespace Wiring

inductive ModelKind where
  | literal | reference | parameter | tagged | alias
  | byClass | byFactory | call | tag | definition
  | document | importRecord | serviceRecord | factoryRecord | callRecord | tagRecord
deriving DecidableEq, Repr

namespace ModelKind

def name : ModelKind → String
  | .literal => "LiteralValue"
  | .reference => "ServiceReference"
  | .parameter => "ParameterHandle"
  | .tagged => "TaggedCollectionReference"
  | .alias => "Alias"
  | .byClass => "ClassImplementation"
  | .byFactory => "FactoryImplementation"
  | .call => "MethodCall"
  | .tag => "Tag"
  | .definition => "Definition"
  | .document => "RawDocument"
  | .importRecord => "RawImport"
  | .serviceRecord => "RawService"
  | .factoryRecord => "RawFactory"
  | .callRecord => "RawCall"
  | .tagRecord => "RawTag"

def all : List ModelKind :=
  [.literal, .reference, .parameter, .tagged, .alias, .byClass, .byFactory, .call, .tag, .definition,
   .document, .importRecord, .serviceRecord, .factoryRecord, .callRecord, .tagRecord]

def ofName? (s : String) : Option ModelKind := all.find? (fun k => k.name = s)

/-- What is compiled cannot be changed any more; what is written can. -/
def isFrozen : ModelKind → Bool
  | .document | .importRecord | .serviceRecord | .factoryRecord | .callRecord | .tagRecord => false
  | _ => true

open Schema in
def build (kind : ModelKind) (fields : Value) : Checked Outline :=
  match kind with
  | .literal => (fun v => (Argument.literal v).outline) <$> Argument.checkLiteral fields
  | .reference => Reference.outline <$> Reference.check fields
  | .parameter => (fun n => (Argument.parameter n).outline) <$> Argument.checkParameter fields
  | .tagged => (fun t => (Argument.tagged t).outline) <$> Argument.checkTagged fields
  | .alias => aliasOutline <$> checkAlias fields
  | .byClass => Implementation.outline <$> Implementation.checkClass fields
  | .byFactory => Implementation.outline <$> Implementation.checkFactory fields
  | .call => MethodCall.outline <$> MethodCall.check fields
  | .tag => Tag.outline <$> Tag.check fields
  | .definition => Definition.outline <$> Definition.check fields
  | .document => Document.outline <$> Document.check fields
  | .importRecord => ImportRecord.outline <$> ImportRecord.check fields
  | .serviceRecord => ServiceRecord.outline <$> ServiceRecord.check fields
  | .factoryRecord => FactoryRecord.outline <$> FactoryRecord.check fields
  | .callRecord => CallRecord.outline <$> CallRecord.check fields
  | .tagRecord => TagRecord.outline <$> TagRecord.check fields

end ModelKind

/-- Puts a value into a field without checking it. Names that start with an underscore are no
fields: they may be set on anything, and no outline shows them. -/
def Outline.assign (kind : ModelKind) (record : Outline) (name : String) (v : Value) :
    Except Failure Outline :=
  if Text.startsWith name "_" then .ok record
  else if kind.isFrozen then .error (.invalid [⟨.frozen, [.name name]⟩])
  else match record with
    | .record n fields =>
      if fields.any (fun f => f.1 = name) then
        .ok (.record n (fields.map fun f => if f.1 = name then (name, .value v) else f))
      else .error (.noField n name)
    | o => .ok o

end Wiring
