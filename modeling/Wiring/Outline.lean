import Wiring.Container
import Wiring.Document

/-! Outlines: records of every kind as a name and fields in their declared order. -/
namespace Wiring

inductive Outline where
  | value (v : Value)
  | list (items : List Outline)
  | map (entries : List (Scalar × Outline))
  | record (name : String) (fields : List (String × Outline))

namespace Outline

def text (s : String) : Outline := .value (.text s)
def flag (b : Bool) : Outline := .value (.bool b)
def null : Outline := .value .null

def maybe {α : Type} (f : α → Outline) : Option α → Outline
  | none => null
  | some a => f a

def table {α : Type} (f : α → Outline) (t : Table α) : Outline :=
  .map (t.entries.map fun e => (.text e.1, f e.2))

def listOf {α : Type} (f : α → Outline) (xs : List α) : Outline := .list (xs.map f)

mutual
def same : Outline → Outline → Bool
  | .value v, .value w => v.same w
  | .list xs, .list ys => sameItems xs ys
  | .map es, .map fs => es.length = fs.length && sameEntries es fs
  | .record n xs, .record m ys => n = m && sameFields xs ys
  | _, _ => false
def sameItems : List Outline → List Outline → Bool
  | [], [] => true
  | x :: xs, y :: ys => x.same y && sameItems xs ys
  | _, _ => false
def sameEntries : List (Scalar × Outline) → List (Scalar × Outline) → Bool
  | [], _ => true
  | (k, x) :: es, fs =>
    (match fs.find? (fun f => k.same f.1) with
      | some f => x.same f.2
      | none => false) && sameEntries es fs
def sameFields : List (String × Outline) → List (String × Outline) → Bool
  | [], [] => true
  | (n, x) :: xs, (m, y) :: ys => n = m && x.same y && sameFields xs ys
  | _, _ => false
end

end Outline

open Outline in
def Reference.outline (r : Reference) : Outline :=
  .record "ServiceReference" [("target", .text r.target), ("optional", flag r.optional)]

mutual
def Argument.outline : Argument → Outline
  | .literal v => .record "LiteralValue" [("value", .value v)]
  | .reference r => r.outline
  | .parameter name => .record "ParameterHandle" [("name", .text name)]
  | .tagged tag => .record "TaggedCollectionReference" [("tag", .text tag)]
  | .list items => .list (Argument.outlines items)
  | .map entries => .map (Argument.entryOutlines entries)
  | .given v => .value v
def Argument.outlines : List Argument → List Outline
  | [] => []
  | a :: as => a.outline :: Argument.outlines as
def Argument.entryOutlines : List (Scalar × Argument) → List (Scalar × Outline)
  | [] => []
  | (k, a) :: es => (k, a.outline) :: Argument.entryOutlines es
end

open Outline

def FactoryOwner.outline : FactoryOwner → Outline
  | .service r => r.outline
  | .located v => maybe .value v

def Implementation.outline : Implementation → Outline
  | .byClass located specifier name =>
    .record "ClassImplementation"
      [("cls", maybe .value located), ("specifier", .text specifier), ("export_name", maybe .text name)]
  | .byFactory owner method =>
    .record "FactoryImplementation" [("target", owner.outline), ("method", .text method)]

def MethodCall.outline (c : MethodCall) : Outline :=
  .record "MethodCall" [("method", .text c.method), ("arguments", listOf Argument.outline c.arguments)]

def Tag.outline (t : Tag) : Outline :=
  .record "Tag" [("name", .text t.name), ("attributes", table .value t.attributes)]

def Deprecation.outline : Deprecation → Outline
  | .note s => .text s
  | .flag b => Outline.flag b

def number (n : Int) : Outline := .value (.int n)

def Definition.outline (d : Definition) : Outline :=
  .record "Definition"
    [("kind", .text d.kind.text),
     ("implementation", maybe Implementation.outline d.implementation),
     ("arguments", listOf Argument.outline d.arguments),
     ("appended_arguments", listOf Argument.outline d.appendedArguments),
     ("properties", table Argument.outline d.properties),
     ("method_calls", listOf MethodCall.outline d.methodCalls),
     ("tags", listOf Tag.outline d.tags),
     ("shared", flag d.shared),
     ("lazy", flag d.lazy),
     ("public", flag d.isPublic),
     ("abstract", flag d.abstract),
     ("synthetic", flag d.synthetic),
     ("deprecated", maybe Deprecation.outline d.deprecated),
     ("parent", maybe .text d.parent),
     ("decorated_service", maybe .text d.decoratedService),
     ("decoration_priority", maybe number d.decorationPriority)]

def aliasOutline (target : String) : Outline := .record "Alias" [("target", .text target)]

def ImportRecord.outline (i : ImportRecord) : Outline :=
  .record "RawImport" [("resource", .text i.resource)]

def FactoryRecord.outline (f : FactoryRecord) : Outline :=
  .record "RawFactory" [("class_", .text f.className), ("method", .text f.method)]

def CallRecord.outline (c : CallRecord) : Outline :=
  .record "RawCall" [("method", .text c.method), ("arguments", listOf .value c.arguments)]

def TagRecord.outline (t : TagRecord) : Outline :=
  .record "RawTag" [("name", .text t.name), ("attributes", maybe (table .value) t.attributes)]

def ServiceRecord.outline (r : ServiceRecord) : Outline :=
  .record "RawService"
    [("class_", maybe .text r.className),
     ("main", maybe .text r.main),
     ("factory", maybe FactoryRecord.outline r.factory),
     ("arguments", listOf .value r.arguments),
     ("properties", table .value r.properties),
     ("calls", listOf CallRecord.outline r.calls),
     ("tags", listOf TagRecord.outline r.tags),
     ("shared", maybe flag r.shared),
     ("lazy", maybe flag r.lazy),
     ("public", maybe flag r.isPublic),
     ("abstract", maybe flag r.abstract),
     ("parent", maybe .text r.parent),
     ("decorates", maybe .text r.decorates),
     ("decoration_priority", maybe number r.decorationPriority),
     ("deprecated", maybe Deprecation.outline r.deprecated),
     ("synthetic", maybe flag r.synthetic)]

def ServiceEntry.outline : ServiceEntry → Outline
  | .alias s => .text s
  | .record r => r.outline

def Document.outline (d : Document) : Outline :=
  .record "RawDocument"
    [("parameters", table .value d.parameters),
     ("imports", listOf ImportRecord.outline d.imports),
     ("services", table ServiceEntry.outline d.services)]

def Container.outline (c : Container) : List (String × Outline) :=
  [("default_dir", maybe .text c.defaultDir),
   ("parameters", table .value c.parameters),
   ("aliases", table .text c.aliases),
   ("definitions", table Definition.outline c.definitions)]

end Wiring
