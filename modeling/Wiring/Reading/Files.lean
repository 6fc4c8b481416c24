import Wiring.Disk.Location
import Wiring.Load
import Wiring.Number.Numeral
import Wiring.Text.LetterCase

/-! Documents that are files on a disk, in the format that their extension tells. -/
namespace Wiring

inductive Format where
  | yaml | json
deriving DecidableEq, Repr

/-- How the format of a document is chosen: it is given, or the extension tells. -/
inductive FormatRule where
  | given (f : Format)
  | byExtension (choices : List (String × FormatRule))

namespace FormatRule

def standard : FormatRule :=
  .byExtension [(".yml", .given .yaml), (".yaml", .given .yaml), (".json", .given .json)]

def extension (location : String) : String := Text.lowerCase (Path.splitExtension location).2

def unsupported (location : String) (extensions : List String) : Failure :=
  .document (.unsupported location (extensions.mergeSort (fun a b => decide (a ≤ b))))

mutual
def format (location : String) : FormatRule → Except Failure Format
  | .given f => .ok f
  | .byExtension choices =>
    (formatAmong location choices).getD (.error (unsupported location (choices.map Prod.fst)))
def formatAmong (location : String) : List (String × FormatRule) → Option (Except Failure Format)
  | [] => none
  | (e, r) :: cs => if e = extension location then some (r.format location) else formatAmong location cs
end

end FormatRule

def unifyBreaks : List Char → List Char
  | '\r' :: '\n' :: cs => '\n' :: unifyBreaks cs
  | '\r' :: cs => '\n' :: unifyBreaks cs
  | c :: cs => c :: unifyBreaks cs
  | [] => []

def Value.kindName : Value → String
  | .null => "NoneType"
  | .bool _ => "bool"
  | .int _ => "int"
  | .float _ => "float"
  | .text _ => "str"
  | .scalar (.bytes _) => "bytes"
  | .scalar (.date _) => "date"
  | .scalar (.moment _) => "datetime"
  | .list _ => "list"
  | .map _ => "dict"
  | .set _ => "set"

/-- A document is a mapping; nothing at all is an empty one. -/
def asDocument (location : String) : Value → Except Failure Value
  | .null => .ok (.map [])
  | .map es => .ok (.map es)
  | v => .error (.document (.notMapping location v.kindName))

/-- How a loader of YAML can fail: the bytes are no text, the text is no YAML, or what the loader
raises is an error of some other kind. -/
inductive YamlFault where
  | undecodable
  | malformed
  | other (kind text : String)
deriving DecidableEq, Repr

/-- Loads the one document that a stream of bytes holds as YAML, if it holds any. -/
abbrev YamlLoader := List UInt8 → Except YamlFault (Option Value)

namespace Format

def readYaml (load : YamlLoader) (location : String) (bytes : List UInt8) : Except Failure Value :=
  match load bytes with
  | .ok v => asDocument location (v.getD .null)
  | .error .undecodable | .error .malformed => .error (.document (.malformedYaml location))
  | .error (.other kind text) => .error (.raised .ordinary kind text)

def readJson (location : String) (bytes : List UInt8) : Except Failure Value :=
  match Utf8.decode bytes with
  | .error m => .error (.document (.malformedJson location (.bytes m)))
  | .ok s =>
    let text := unifyBreaks s.toList
    match Json.parse (some Numeral.decimalLimit) text with
    | .error f => .error (.document (.malformedJson location (.malformed text f)))
    | .ok v => asDocument location v

def read (load : YamlLoader) : Format → String → List UInt8 → Except Failure Value
  | .yaml => readYaml load
  | .json => readJson

def zeroInPath (location : String) : Format → Failure
  | .yaml => .zeroInPath
  | .json => .document (.malformedJson location .zeroInPath)

end Format

/-- What a file holds for a reader of text. Programs are not text. -/
def Content.text : Content → List UInt8
  | .bytes bs => bs
  | .program _ | .broken => []

structure FileDocuments where
  disk : Disk
  loadYaml : YamlLoader
  workingDir : Location := .root
  rule : FormatRule := .standard

namespace FileDocuments

def read (s : FileDocuments) (path : String) : Except Failure Value :=
  match s.rule.format path with
  | .error e => .error e
  | .ok f =>
    if !Disk.isName path then .error (f.zeroInPath path)
    else match s.disk.openFile s.workingDir path with
      | .error fault => .error (.document (.unopenable path fault))
      | .ok c => f.read s.loadYaml path c.text

theorem mem_names_of_read {s : FileDocuments} {l : Location} {v : Value}
    (h : s.read l.text = .ok v) : Disk.fullPath l.segments ∈ s.disk.files.names := by
  unfold read at h
  split at h
  · cases h
  · split at h
    · cases h
    · split at h
      · cases h
      · next hc => exact Location.mem_names_of_openFile hc

def reader (s : FileDocuments) : Reader where
  read l := s.read l.text
  stored := (s.disk.files.names.flatMap (fun p => [p, "/" ++ p])).filterMap Location.ofText?
  mem_stored := by
    intro l v h
    have hmem := mem_names_of_read h
    refine List.mem_filterMap.2 ⟨l.text, ?_, l.ofText?_text⟩
    rcases l.text_eq with ht | ht
    · exact List.mem_flatMap.2 ⟨_, hmem, by simp [ht]⟩
    · exact List.mem_flatMap.2 ⟨_, hmem, by simp [ht]⟩

end FileDocuments
end Wiring
