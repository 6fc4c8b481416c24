import Wiring.Json.Reader
import Wiring.Schema.Checked
import Wiring.Text.Quoted
import Wiring.Text.Utf8

/-! Everything that can go wrong while documents are compiled, by cause, and the words for it. -/
namespace Wiring

/-- Why a specifier, location or parameter could not be resolved. -/
inductive Reason where
  | noModule (searched : Nat)
  | noModuleFile
  | notLoadable
  | notRegistered
  | parameterNotSet
  | loadFailed (text : String)
  | other (text : String)
deriving DecidableEq, Repr

def Reason.text : Reason → String
  | .noModule n => "No module found in " ++ toString n ++ " search paths"
  | .noModuleFile => "No module file at this location"
  | .notLoadable => "Not a loadable module"
  | .notRegistered => "Specifier is not registered"
  | .parameterNotSet => "Parameter is not set"
  | .loadFailed text => "Failed to load module: " ++ text
  | .other text => text

/-- Why a file could not be opened. -/
inductive OpenFault where
  | absent | directory | underFile
deriving DecidableEq, Repr

def OpenFault.text (path : String) : OpenFault → String
  | .absent => "[Errno 2] No such file or directory: " ++ Text.quoted path
  | .directory => "[Errno 21] Is a directory: " ++ Text.quoted path
  | .underFile => "[Errno 20] Not a directory: " ++ Text.quoted path

inductive JsonFault where
  | bytes (m : Utf8.Malformed)
  | malformed (read : List Char) (f : Json.Fault)
  | zeroInPath
deriving DecidableEq, Repr

def Utf8.Malformed.text (m : Utf8.Malformed) : String :=
  let place :=
    if m.past = m.first + 1 then
      "byte 0x" ++ String.ofList (Text.hexText 2 m.lead.toNat) ++ " in position " ++ toString m.first
    else "bytes in position " ++ toString m.first ++ "-" ++ toString (m.past - 1)
  "'utf-8' codec can't decode " ++ place ++ ": " ++ (match m.fault with
    | .start => "invalid start byte"
    | .continuation => "invalid continuation byte"
    | .endOfData => "unexpected end of data")

def zeroInPathText : String := "embedded null byte"

def JsonFault.text : JsonFault → String
  | .bytes m => m.text
  | .malformed read f => f.message read
  | .zeroInPath => zeroInPathText

/-- A document that cannot be used. -/
inductive DocumentFault where
  | notStored (location : String)
  | unopenable (location : String) (f : OpenFault)
  | malformedYaml (location : String)
  | malformedJson (location : String) (f : JsonFault)
  | notMapping (location : String) (found : String)
  | unsupported (location : String) (extensions : List String)
  | invalid (location : String) (faults : List Schema.Fault)
  | badAlias (id : String) (text : String)
  | emptyRecord (id : String)
  | other (text : String)
deriving DecidableEq, Repr

def DocumentFault.text : DocumentFault → String
  | .notStored l => "Cannot read service document " ++ l ++ ": not found"
  | .unopenable l f => "Cannot read service document " ++ l ++ ": " ++ f.text l
  | .malformedYaml l => "Invalid YAML in service document " ++ l
  | .malformedJson l f => "Invalid JSON in service document " ++ l ++ ": " ++ f.text
  | .notMapping l found => "Service document " ++ l ++ " must contain a mapping, got " ++ found
  | .unsupported l es =>
    "Unsupported service document " ++ l ++ ", expected one of: " ++ ", ".intercalate es
  | .invalid l _ => "Invalid service document " ++ l
  | .badAlias id text => "Service '" ++ id ++ "': alias '" ++ text ++ "' must start with '@'"
  | .emptyRecord id => "Service '" ++ id ++ "' declares neither a class, a factory nor synthetic"
  | .other text => text

/-- How far an error raised by a module reaches: it keeps an import from succeeding, it is an
ordinary error, or it ends the process and nothing holds it up. -/
inductive Reach where
  | importing | ordinary | fatal
deriving DecidableEq, Repr

inductive Failure where
  | plain (text : String)
  | unresolved (subject : String) (reason : Option Reason)
  | undefined (id : String)
  | document (f : DocumentFault)
  | circular (chain : List String)
  | invalid (faults : List Schema.Fault)
  | zeroInPath
  /-- A module file that is no program. -/
  | unparsable (file : String)
  /-- An error of a kind of its own, from what is only run or called here. -/
  | raised (reach : Reach) (kind : String) (text : String)
  | noField (record : String) (name : String)
deriving DecidableEq, Repr

namespace Failure

def text : Failure → String
  | .plain t => t
  | .unresolved subject reason =>
    "Cannot resolve '" ++ subject ++ "'" ++ (match reason.map Reason.text with
      | none | some "" => ""
      | some r => ". Reason: " ++ r)
  | .undefined id => "Service '" ++ id ++ "' is not defined"
  | .document f => f.text
  | .circular chain => "Circular import detected: " ++ " -> ".intercalate chain
  | .invalid _ => ""
  | .zeroInPath => zeroInPathText
  | .unparsable file => "invalid syntax (" ++ file ++ ", line 1)"
  | .raised _ _ t => t
  | .noField record name => "\"" ++ record ++ "\" object has no field \"" ++ name ++ "\""

/-- The failures that compilation itself defines, as against those that come from outside. -/
def isOwn : Failure → Bool
  | .plain _ | .unresolved .. | .undefined _ | .document _ | .circular _ => true
  | _ => false

def isDocument : Failure → Bool
  | .document _ | .circular _ => true
  | _ => false

def reach : Failure → Reach
  | .raised r _ _ => r
  | _ => .ordinary

end Failure
end Wiring
