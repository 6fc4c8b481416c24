import Wiring.Number.Numeral
import Wiring.Text.Utf8
import Wiring.Yaml.Scalar

/-! Tokens of YAML text. A key is known as one only by the colon behind it, so its token is put
in later, at the place where the key began. -/
namespace Wiring.Yaml
open Glyphs

inductive Token where
  | version (major : Nat)
  | tagHandle (handle : List Char) (start : List Char)
  | otherDirective
  | documentStart
  | documentEnd
  | blockSequence
  | blockMapping
  | blockEnd
  | flowSequence
  | flowSequenceEnd
  | flowMapping
  | flowMappingEnd
  | blockEntry
  | flowEntry
  | key
  | value
  | alias (name : List Char)
  | anchor (name : List Char)
  | tag (handle : Option (List Char)) (suffix : List Char)
  | scalar (text : List Char) (plain : Bool)
  | streamEnd
  | fault (f : Fault)
deriving DecidableEq, Repr

/-! Names, tags and directives. -/

def anchorName (gs : Glyphs) : Scan (List Char) :=
  let (name, rest) := spanWhile isWordChar gs
  if name = [] then malformed
  else if isBlank (peek rest) || "?:,]\x7d%@\u0060".toList.contains (peek rest) then .ok (name, rest)
  else malformed

def uriEscapes : Glyphs → Scan (List UInt8)
  | g :: h :: l :: gs =>
    if g.char = '%' then
      match Json.hexNumber? [h.char, l.char] with
      | none => malformed
      | some n => (uriEscapes gs).map (fun (bs, rest) => (UInt8.ofNat n :: bs, rest))
    else .ok ([], g :: h :: l :: gs)
  | gs => if peek gs = '%' then malformed else .ok ([], gs)

def uriFrom (gs : Glyphs) (read : List (List Char)) : Scan (List Char) :=
  let (plain, rest) := spanWhile (fun c => isUriChar c && c ≠ '%') gs
  if peek rest = '%' then
    match uriEscapes rest with
    | .error e => .error e
    | .ok (bytes, after) =>
      match Utf8.decode bytes with
      | .error _ => malformed
      | .ok s =>
        if after.length < gs.length then uriFrom after (s.toList :: plain :: read) else malformed
  else .ok ((plain :: read).reverse.flatten, rest)
termination_by gs.length

def uri (gs : Glyphs) : Scan (List Char) :=
  if isUriChar (peek gs) then uriFrom gs [] else malformed

def tagHandle (gs : Glyphs) : Scan (List Char) :=
  if peek gs ≠ '!' then malformed
  else if peekAt gs 1 = ' ' then .ok (['!'], gs.drop 1)
  else
    let (name, rest) := spanWhile isWordChar (gs.drop 1)
    if peek rest = '!' then .ok ('!' :: name ++ ['!'], rest.drop 1) else malformed

def tag (gs : Glyphs) : Scan Token :=
  let finish (t : Token) (rest : Glyphs) : Scan Token :=
    if isGap (peek rest) then .ok (t, rest) else malformed
  let next := peekAt gs 1
  if next = '<' then
    match uri (gs.drop 2) with
    | .error e => .error e
    | .ok (name, rest) =>
      if peek rest = '>' then finish (.tag none name) (rest.drop 1) else malformed
  else if isBlank next then finish (.tag none ['!']) (gs.drop 1)
  else
    let word := text ((gs.drop 1).takeWhile (fun g => !isGap g.char))
    match (if word.contains '!' then tagHandle gs else .ok (['!'], gs.drop 1)) with
    | .error e => .error e
    | .ok (handle, rest) =>
      match uri rest with
      | .error e => .error e
      | .ok (suffix, rest) => finish (.tag (some handle) suffix) rest

def versionNumber (gs : Glyphs) : Scan Nat :=
  let (digits, rest) := spanWhile Char.isDigit gs
  if digits = [] then malformed
  else if Numeral.decimalLimit < digits.length then .error (.scalar (.digits digits.length))
  else .ok (Json.decimalValue digits, rest)

def directive (gs : Glyphs) : Scan Token :=
  let finish (t : Token) (rest : Glyphs) : Scan Token := (restOfLine rest).map (fun r => (t, r.2))
  let (name, rest) := spanWhile isWordChar (gs.drop 1)
  if name = [] || !isGap (peek rest) then malformed
  else if name = "YAML".toList then
    match versionNumber (skipSpaces rest) with
    | .error e => .error e
    | .ok (major, dot) =>
      if peek dot ≠ '.' then malformed
      else match versionNumber (dot.drop 1) with
        | .error e => .error e
        | .ok (_, rest) => if isGap (peek rest) then finish (.version major) rest else malformed
  else if name = "TAG".toList then
    match tagHandle (skipSpaces rest) with
    | .error e => .error e
    | .ok (handle, rest) =>
      if peek rest ≠ ' ' then malformed
      else match uri (skipSpaces rest) with
        | .error e => .error e
        | .ok (start, rest) =>
          if isGap (peek rest) then finish (.tagHandle handle start) rest else malformed
  else finish .otherDirective (skipWhile (fun c => !isBreakOrEnd c) rest)

/-! The state between two tokens. -/

/-- A place at which a key may have begun. It has to be one when it stands first in its line. -/
structure PossibleKey where
  place : Nat
  required : Bool
  index : Nat
  line : Nat
  column : Nat

structure State where
  rest : Glyphs
  tokens : Array Token := #[]
  flow : Nat := 0
  indent : Int := -1
  indents : List Int := []
  allowKey : Bool := true
  keys : List (Nat × PossibleKey) := []

namespace State

abbrev Step := Except Fault State

def push (s : State) (t : Token) : State := { s with tokens := s.tokens.push t }
def inFlow (s : State) : Bool := s.flow ≠ 0
def column (s : State) : Int := Glyphs.column s.rest
def key? (s : State) : Option PossibleKey := s.keys.lookup s.flow
def dropKey (s : State) : State := { s with keys := s.keys.filter (fun k => k.1 ≠ s.flow) }

def removeKey (s : State) : Step :=
  match s.key? with
  | some k => if k.required then malformed else .ok s.dropKey
  | none => .ok s

/-- A key cannot go on over lines or over more than 1024 characters. -/
def removeStaleKeys (s : State) : Step :=
  let here := s.rest.head?.getD ⟨endChar, 0, 0, 0⟩
  let stale (k : PossibleKey) : Bool := k.line ≠ here.line || 1024 < here.index - k.index
  if s.keys.any (fun k => stale k.2 && k.2.required) then malformed
  else .ok { s with keys := s.keys.filter (fun k => !stale k.2) }

def saveKey (s : State) : Step :=
  if s.allowKey then
    let here := s.rest.head?.getD ⟨endChar, 0, 0, 0⟩
    let required := !s.inFlow && s.indent = s.column
    (removeKey s).map fun (s : State) =>
      { s with keys := (s.flow, ⟨s.tokens.size, required, here.index, here.line, here.column⟩) :: s.keys }
  else .ok s

def unwindFrom (column : Int) (indents : List Int) (s : State) : State :=
  if s.indent ≤ column then s
  else match indents with
    | [] => s
    | i :: is => unwindFrom column is ({ s with indent := i, indents := is }.push .blockEnd)

def unwind (s : State) (column : Int) : State :=
  if s.inFlow then s else unwindFrom column s.indents s

/-- Begins a block at a column if it is further to the right than the block around it, putting
its token at a place among the tokens read. -/
def openBlock (s : State) (column : Int) (t : Token) (place : Nat) : State :=
  if s.indent < column then
    { s with
      indents := s.indent :: s.indents
      indent := column
      tokens := s.tokens.insertIdxIfInBounds place t }
  else s

def openHere (s : State) (t : Token) : State := s.openBlock s.column t s.tokens.size

def advance (s : State) (n : Nat) : State := { s with rest := s.rest.drop n }

def toNextToken (s : State) : Nat → State
  | 0 => s
  | n + 1 =>
    let rest := skipComment (skipSpaces s.rest)
    if isBreak (peek rest) then
      toNextToken { s with rest := (lineBreak rest).2, allowKey := s.allowKey || !s.inFlow } n
    else { s with rest }

/-! One token more. -/

def marker (s : State) (t : Token) : Step :=
  (s.unwind (-1)).removeKey.map fun (s : State) => ({ s with allowKey := false }.advance 3).push t

def fetchDirective (s : State) : Step := do
  let s ← (s.unwind (-1)).removeKey
  let (t, rest) ← directive s.rest
  pure ({ s with allowKey := false, rest }.push t)

def fetchEnd (s : State) : Step :=
  (s.unwind (-1)).removeKey.map fun (s : State) => { s with keys := [], allowKey := false }.push .streamEnd

def flowStart (s : State) (t : Token) : Step :=
  s.saveKey.map fun (s : State) => ({ s with flow := s.flow + 1, allowKey := true }.push t).advance 1

/-- An end without a start is malformed here already: nothing could take it. -/
def flowEnd (s : State) (t : Token) : Step :=
  if s.inFlow then
    s.removeKey.map fun (s : State) => ({ s with flow := s.flow - 1, allowKey := false }.push t).advance 1
  else malformed

def flowEntry (s : State) : Step :=
  s.removeKey.map fun (s : State) => ({ s with allowKey := true }.push .flowEntry).advance 1

def blockEntry (s : State) : Step :=
  if s.inFlow then malformed
  else if !s.allowKey then malformed
  else ({ s.openHere .blockSequence with allowKey := true }).removeKey.map fun (s : State) =>
    (s.push .blockEntry).advance 1

def keySign (s : State) : Step :=
  if !s.inFlow && !s.allowKey then malformed
  else
    let s := if s.inFlow then s else s.openHere .blockMapping
    { s with allowKey := !s.inFlow }.removeKey.map fun (s : State) => (s.push .key).advance 1

def valueSign (s : State) : Step :=
  match s.key? with
  | some k =>
    let s := { s.dropKey with tokens := s.tokens.insertIdxIfInBounds k.place .key }
    let s := if s.inFlow then s else s.openBlock k.column .blockMapping k.place
    .ok (({ s with allowKey := false }.push .value).advance 1)
  | none =>
    if !s.inFlow && !s.allowKey then malformed
    else
      let s := if s.inFlow then s else s.openHere .blockMapping
      { s with allowKey := !s.inFlow }.removeKey.map fun (s : State) => (s.push .value).advance 1

def keyable (s : State) (scan : Glyphs → Scan Token) : Step := do
  let s ← s.saveKey
  let (t, rest) ← scan s.rest
  pure ({ s with allowKey := false, rest }.push t)

def quoted (double : Bool) (gs : Glyphs) : Scan Token :=
  (quotedFrom double (gs.drop 1) []).map (fun (cs, rest) => (.scalar cs false, rest))

def block (s : State) (folded : Bool) : Step := do
  let s ← { s with allowKey := true }.removeKey
  let (cs, rest) ← blockScalar folded s.indent (s.rest.drop 1)
  pure ({ s with rest }.push (.scalar cs false))

def plain (s : State) : Step :=
  s.saveKey.map fun (s : State) =>
    let (cs, ended, rest) := plainFrom s.inFlow (s.indent + 1) [] false s.rest
    { s with allowKey := ended, rest }.push (.scalar cs true)

def startsPlain (s : State) : Bool :=
  let c := peek s.rest
  let next := peekAt s.rest 1
  (!isBlank c && !isIndicator c) ||
    (!isBlank next && (c = '-' || (!s.inFlow && (c = '?' || c = ':'))))

def fetchAt (s : State) : Step :=
  let c := peek s.rest
  let next := peekAt s.rest 1
  if c = endChar then s.fetchEnd
  else if c = '%' && s.column = 0 then s.fetchDirective
  else if s.column = 0 && atMarker s.rest then s.marker (if c = '-' then .documentStart else .documentEnd)
  else match c with
    | '[' => s.flowStart .flowSequence
    | '\x7b' => s.flowStart .flowMapping
    | ']' => s.flowEnd .flowSequenceEnd
    | '\x7d' => s.flowEnd .flowMappingEnd
    | ',' => s.flowEntry
    | '*' => s.keyable (fun gs => (anchorName (gs.drop 1)).map (fun (n, r) => (.alias n, r)))
    | '&' => s.keyable (fun gs => (anchorName (gs.drop 1)).map (fun (n, r) => (.anchor n, r)))
    | '!' => s.keyable tag
    | '\'' => s.keyable (quoted false)
    | '"' => s.keyable (quoted true)
    | _ =>
      if c = '-' && isBlank next then s.blockEntry
      else if c = '?' && (s.inFlow || isBlank next) then s.keySign
      else if c = ':' && (s.inFlow || isBlank next) then s.valueSign
      else if c = '|' && !s.inFlow then s.block false
      else if c = '>' && !s.inFlow then s.block true
      else if s.startsPlain then s.plain
      else malformed

def fetch (s : State) : Step := do
  let s ← (s.toNextToken s.rest.length).removeStaleKeys
  (s.unwind s.column).fetchAt

/-- The tokens before the first place at which a key may have begun: only these are certain. -/
def certain (s : State) : Array Token :=
  match s.removeStaleKeys with
  | .error _ => s.tokens
  | .ok t => s.tokens.take (t.keys.foldl (fun n k => min n k.2.place) s.tokens.size)

/-- All tokens up to the end or to the first fault. Every step goes forward in the text. -/
def run (s : State) : Array Token :=
  match s.fetch with
  | .error f => s.certain.push (.fault f)
  | .ok next =>
    if next.tokens.back? = some .streamEnd then next.tokens
    else if next.rest.length < s.rest.length then run next
    else next.tokens.push (.fault .malformed)
termination_by s.rest.length

end State

def tokens (cs : List Char) : List Token :=
  if cs.all isAllowed then
    let gs := glyphs cs
    (State.run { rest := if peek gs = '\uFEFF' then gs.drop 1 else gs }).toList
  else [.fault .malformed]

end Wiring.Yaml
