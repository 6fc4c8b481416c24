import Wiring.Json.Reader
import Wiring.Yaml.Fault
import Wiring.Yaml.Glyph

/-! The spellings of scalars in YAML text: plain, quoted, and as blocks of lines. -/
namespace Wiring.Yaml
open Glyphs

abbrev Scan (α : Type) := Except Fault (α × Glyphs)

def malformed {α : Type} : Except Fault α := .error .malformed

/-! Plain scalars. -/

def endsPlain (inFlow : Bool) (c next : Char) : Bool :=
  isBlank c || (c = ':' && (isBlank next || (inFlow && isFlowIndicator next))) ||
    (inFlow && (c = '?' || isFlowIndicator c))

def plainRun (inFlow : Bool) : Glyphs → List Char × Glyphs
  | [] => ([], [])
  | g :: gs =>
    if endsPlain inFlow g.char (peek gs) then ([], g :: gs)
    else
      let (cs, rest) := plainRun inFlow gs
      (g.char :: cs, rest)

/-- Line breaks and spaces up to the next character or the next document marker, and whether
such a marker was found. -/
def breaksBefore : Glyphs → List Char × Bool × Glyphs
  | [] => ([], false, [])
  | g :: gs =>
    if g.char = ' ' then breaksBefore gs
    else if isBreak g.char then
      let c := if g.char = '\u0085' then '\n' else g.char
      if atMarker gs then ([], true, gs)
      else
        let (cs, marker, rest) := breaksBefore gs
        (c :: cs, marker, rest)
    else ([], false, g :: gs)

/-- A single line break folds into a space, and of several the first is dropped. -/
def fold (first : List Char) (breaks : List Char) : List Char :=
  if first ≠ ['\n'] then first ++ breaks else if breaks = [] then [' '] else breaks

def plainGap (gs : Glyphs) : List Char × Bool × Glyphs :=
  let (spaces, rest) := spanWhile (· = ' ') gs
  if isBreak (peek rest) then
    let (first, after) := lineBreak rest
    if atMarker after then ([], true, after)
    else
      let (breaks, marker, last) := breaksBefore after
      if marker then ([], true, last) else (fold first breaks, true, last)
  else (spaces, false, rest)

def plainFrom (inFlow : Bool) (indent : Int) (gap : List Char) (ended : Bool) (gs : Glyphs) :
    List Char × Bool × Glyphs :=
  if peek gs = '#' then ([], ended, gs)
  else
    match plainRun inFlow gs with
    | ([], _) => ([], ended, gs)
    | (run, after) =>
      let (next, ended, rest) := plainGap after
      if next = [] || peek rest = '#' || (!inFlow && (column rest : Int) < indent) then
        (gap ++ run, ended, rest)
      else if rest.length < gs.length then
        let (more, ended, last) := plainFrom inFlow indent next ended rest
        (gap ++ run ++ more, ended, last)
      else (gap ++ run, ended, rest)
termination_by gs.length

/-! Quoted scalars. -/

def escapeChar? : Char → Option Char
  | '0' => some '\x00'
  | 'a' => some '\x07'
  | 'b' => some '\x08'
  | 't' | '\t' => some '\t'
  | 'n' => some '\n'
  | 'v' => some '\x0b'
  | 'f' => some '\x0c'
  | 'r' => some '\r'
  | 'e' => some '\x1b'
  | ' ' => some ' '
  | '"' => some '"'
  | '\\' => some '\\'
  | '/' => some '/'
  | 'N' => some '\u0085'
  | '_' => some '\u00a0'
  | 'L' => some '\u2028'
  | 'P' => some '\u2029'
  | _ => none

def escapeWidth? : Char → Option Nat
  | 'x' => some 2
  | 'u' => some 4
  | 'U' => some 8
  | _ => none

def codePoint (n : Nat) : Except Fault Char :=
  if n < 0x110000 then .ok (Json.ofCode n)
  else if n < Nat.pow 2 31 then .error (.scalar .codePoint)
  else .error (.scalar .oversizedCodePoint)

def quotedBreaks : Glyphs → Scan (List Char)
  | [] => .ok ([], [])
  | g :: gs =>
    if g.char = ' ' || g.char = '\t' then quotedBreaks gs
    else if isBreak g.char then
      if atMarker gs then malformed
      else
        match quotedBreaks gs with
        | .error e => .error e
        | .ok (cs, rest) => .ok ((if g.char = '\u0085' then '\n' else g.char) :: cs, rest)
    else .ok ([], g :: gs)

def quotedBreaksFrom (gs : Glyphs) : Scan (List Char) :=
  if atMarker gs then malformed else quotedBreaks gs

/-- One piece of a quoted scalar that is not its end: characters, an escape, or a gap. -/
def quotedPiece (double : Bool) (gs : Glyphs) : Scan (List Char) :=
  match gs with
  | [] => malformed
  | g :: rest =>
    let c := g.char
    if c = endChar then malformed
    else if c = '\'' && !double && peek rest = '\'' then .ok (['\''], rest.drop 1)
    else if (double && c = '\'') || (!double && (c = '"' || c = '\\')) then .ok ([c], rest)
    else if double && c = '\\' then
      match escapeChar? (peek rest), escapeWidth? (peek rest) with
      | some e, _ => .ok ([e], rest.drop 1)
      | none, some n =>
        let digits := text ((rest.drop 1).take n)
        match (if digits.length = n then Json.hexNumber? digits else none) with
        | none => malformed
        | some k => (codePoint k).map (fun e => ([e], rest.drop (n + 1)))
      | none, none => if isBreak (peek rest) then quotedBreaksFrom (rest.drop 1) else malformed
    else if c = ' ' || c = '\t' then
      let (blanks, after) := spanWhile (fun d => d = ' ' || d = '\t') gs
      if peek after = endChar then malformed
      else if isBreak (peek after) then
        let (first, next) := lineBreak after
        (quotedBreaksFrom next).map (fun (breaks, last) => (fold first breaks, last))
      else .ok (blanks, after)
    else if isBreak c then
      let (first, next) := lineBreak gs
      (quotedBreaksFrom next).map (fun (breaks, last) => (fold first breaks, last))
    else .ok ([c], rest)

def quotedFrom (double : Bool) (gs : Glyphs) (read : List (List Char)) : Scan (List Char) :=
  let closes := if double then peek gs = '"' else peek gs = '\'' && peekAt gs 1 ≠ '\''
  if closes then .ok (read.reverse.flatten, gs.drop 1)
  else
    match quotedPiece double gs with
    | .error e => .error e
    | .ok (cs, rest) =>
      if rest.length < gs.length then quotedFrom double rest (cs :: read) else malformed
termination_by gs.length

/-! Block scalars. -/

inductive Chomp where
  | strip | clip | keep
deriving DecidableEq, Repr

def chompSign? : Char → Option Chomp
  | '+' => some .keep
  | '-' => some .strip
  | _ => none

/-- The signs after `|` or `>`: how the end is chomped, and how far the block is indented. -/
def blockHeader (gs : Glyphs) : Scan (Chomp × Option Nat) :=
  let digit? (c : Char) : Option Nat := if c.isDigit then some (c.toNat - 48) else none
  let finish (chomp : Chomp) (indent : Option Nat) (rest : Glyphs) : Scan (Chomp × Option Nat) :=
    if indent = some 0 then malformed
    else if isGap (peek rest) then .ok ((chomp, indent), rest)
    else malformed
  match chompSign? (peek gs), digit? (peek gs) with
  | some chomp, _ =>
    match digit? (peekAt gs 1) with
    | some n => finish chomp (some n) (gs.drop 2)
    | none => finish chomp none (gs.drop 1)
  | none, some n =>
    match chompSign? (peekAt gs 1) with
    | some chomp => finish chomp (some n) (gs.drop 2)
    | none => finish .clip (some n) (gs.drop 1)
  | none, none => finish .clip none gs

def skipComment (gs : Glyphs) : Glyphs :=
  if peek gs = '#' then skipWhile (fun c => !isBreakOrEnd c) gs else gs

def restOfLine (gs : Glyphs) : Scan Unit :=
  let rest := skipComment (skipSpaces gs)
  if isBreakOrEnd (peek rest) then .ok ((), (lineBreak rest).2) else malformed

def blockStart (widest : Nat) : Glyphs → List Char × Nat × Glyphs
  | [] => ([], widest, [])
  | g :: gs =>
    if g.char = ' ' then blockStart (max widest (column gs)) gs
    else if isBreak g.char then
      let (cs, n, rest) := blockStart widest gs
      ((if g.char = '\u0085' then '\n' else g.char) :: cs, n, rest)
    else ([], widest, g :: gs)

def blockBreaks (indent : Nat) : Glyphs → List Char × Glyphs
  | [] => ([], [])
  | g :: gs =>
    if g.char = ' ' && g.column < indent then blockBreaks indent gs
    else if isBreak g.char then
      let (cs, rest) := blockBreaks indent gs
      ((if g.char = '\u0085' then '\n' else g.char) :: cs, rest)
    else ([], g :: gs)

/-- The lines of a block, with the break that ends the last one and the blank lines behind it. -/
def blockLines (folded : Bool) (indent : Nat) (gs : Glyphs) (read : List (List Char)) :
    List (List Char) × List Char × List Char × Glyphs :=
  let (line, after) := spanWhile (fun c => !isBreakOrEnd c) gs
  let (ending, next) := lineBreak after
  let (breaks, rest) := blockBreaks indent next
  if (column rest = indent ∧ peek rest ≠ endChar) ∧ rest.length < gs.length then
    let indented (c : Char) : Bool := c = ' ' || c = '\t'
    let joint :=
      if folded && ending = ['\n'] && !indented (peek gs) && !indented (peek rest) then
        if breaks = [] then [' '] else []
      else ending
    blockLines folded indent rest (breaks :: joint :: line :: read)
  else (line :: read, ending, breaks, rest)
termination_by gs.length

def blockScalar (folded : Bool) (outer : Int) (gs : Glyphs) : Scan (List Char) :=
  match blockHeader gs with
  | .error e => .error e
  | .ok ((chomp, given), afterHeader) =>
    match restOfLine afterHeader with
    | .error e => .error e
    | .ok ((), start) =>
      let least := (max (outer + 1) 1).toNat
      let (leading, indent, first) := match given with
        | some n =>
          let indent := least + n - 1
          let (cs, rest) := blockBreaks indent start
          (cs, indent, rest)
        | none =>
          let (cs, widest, rest) := blockStart 0 start
          (cs, max least widest, rest)
      if column first = indent && peek first ≠ endChar then
        let (read, ending, breaks, rest) := blockLines folded indent first [leading]
        let tail := match chomp with
          | .strip => []
          | .clip => ending
          | .keep => ending ++ breaks
        .ok (read.reverse.flatten ++ tail, rest)
      else .ok (if chomp = .keep then leading else [], first)

end Wiring.Yaml
