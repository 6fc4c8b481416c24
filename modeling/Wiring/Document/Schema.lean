import Wiring.Definition.Schema
import Wiring.Document

/-! Checks that turn a value read from a file into a document. Unknown keys are left alone, and a
null stands for an empty section. -/
namespace Wiring
open Schema

def ImportRecord.check : Value → Checked ImportRecord :=
  asRecord "RawImport" fun es => ImportRecord.mk <$> required es "resource" asText

def FactoryRecord.check : Value → Checked FactoryRecord :=
  asRecord "RawFactory" fun es =>
    FactoryRecord.mk
      <$> either es "class" "class_" asText ((Checked.fault .missing).under (.name "class"))
      <*> required es "method" asText

def CallRecord.check : Value → Checked CallRecord :=
  asRecord "RawCall" fun es =>
    CallRecord.mk <$> required es "method" asText <*> blankable es "arguments" (asListOf anything) []

def TagRecord.check : Value → Checked TagRecord :=
  asRecord "RawTag" fun es =>
    TagRecord.mk <$> required es "name" asText
      <*> withDefault es "attributes" (orNull (asMappingOf anything)) none

def ServiceRecord.check : Value → Checked ServiceRecord :=
  asRecord "RawService" fun es =>
    ServiceRecord.mk
      <$> either es "class" "class_" (orNull asText) (.valid none)
      <*> withDefault es "main" (orNull asText) none
      <*> withDefault es "factory" (orNull FactoryRecord.check) none
      <*> blankable es "arguments" (asListOf anything) []
      <*> blankable es "properties" (asMappingOf anything) ∅
      <*> blankable es "calls" (asListOf CallRecord.check) []
      <*> blankable es "tags" (asListOf TagRecord.check) []
      <*> withDefault es "shared" (orNull asFlag) none
      <*> withDefault es "lazy" (orNull asFlag) none
      <*> withDefault es "public" (orNull asFlag) none
      <*> withDefault es "abstract" (orNull asFlag) none
      <*> withDefault es "parent" (orNull asText) none
      <*> withDefault es "decorates" (orNull asText) none
      <*> withDefault es "decoration_priority" (orNull asInteger) none
      <*> withDefault es "deprecated" (orNull Deprecation.check) none
      <*> withDefault es "synthetic" (orNull asFlag) none

def ServiceEntry.check (v : Value) : Checked ServiceEntry :=
  (ServiceEntry.alias <$> asText v).orElse "str" "RawService" (ServiceEntry.record <$> ServiceRecord.check v)

def Document.check : Value → Checked Document :=
  asRecord "RawDocument" fun es =>
    Document.mk
      <$> blankable es "parameters" (asMappingOf anything) ∅
      <*> blankable es "imports" (asListOf ImportRecord.check) []
      <*> blankable es "services" (asMappingOf ServiceEntry.check) ∅

end Wiring
