import Wiring.Text.Split

/-! Lexical paths: text with `/` between segments. Nothing here looks at a disk.
A path may start with one slash or with exactly two, which stay two. -/
namespace Wiring.Path
open Wiring.Text

abbrev Segment := List Char

def here : Segment := ['.']
def up : Segment := ['.', '.']

def isAbsolute (p : String) : Bool := p.toList.head? = some '/'

/-- How many slashes the root of a path is written with: none, one or two. -/
def rootSlashes : List Char → Nat
  | '/' :: '/' :: '/' :: _ => 1
  | '/' :: '/' :: _ => 2
  | '/' :: _ => 1
  | _ => 0

/-- One segment more, against the segments kept so far, the last kept first. -/
def climb (rooted : Bool) (kept : List Segment) (s : Segment) : List Segment :=
  if s = [] ∨ s = here then kept
  else if s = up then
    match kept with
    | [] => if rooted then [] else [up]
    | top :: below => if top = up then up :: kept else below
  else s :: kept

def normalSegments (cs : List Char) : List Segment :=
  ((split '/' cs).foldl (climb (rootSlashes cs != 0)) []).reverse

def ofSegments (slashes : Nat) (segments : List Segment) : String :=
  match slashes, segments with
  | 0, [] => "."
  | n, ss => String.ofList (List.replicate n '/' ++ Text.join '/' ss)

/-- The same place without `.`, repeated slashes, trailing slashes and `x/..` detours. -/
def normal (p : String) : String :=
  ofSegments (rootSlashes p.toList) (normalSegments p.toList)

/-- `part` seen from `base`; an absolute `part` starts again. -/
def join (base part : String) : String :=
  if isAbsolute part then part
  else if base = "" ∨ base.toList.getLast? = some '/' then base ++ part
  else base ++ "/" ++ part

/-- Everything up to the last slash, without the slashes that end it. -/
def directory (p : String) : String :=
  let head := (p.toList.reverse.dropWhile (· ≠ '/')).reverse
  if head.all (· = '/') then String.ofList head
  else String.ofList (head.reverse.dropWhile (· = '/')).reverse

def base (p : String) : String := String.ofList (afterLast '/' p.toList)

/-- Stem and extension, dot included. Leading dots of the last segment start no extension. -/
def splitExtension (p : String) : String × String :=
  let cs := p.toList
  let last := afterLast '/' cs
  let name := last.dropWhile (· = '.')
  if name.contains '.' then
    let ext := '.' :: afterLast '.' name
    (String.ofList (cs.take (cs.length - ext.length)), String.ofList ext)
  else (p, "")

def absolute (workingDir p : String) : String :=
  normal (if isAbsolute p then p else join workingDir p)

def dropCommon : List Segment → List Segment → List Segment × List Segment
  | s :: ss, t :: ts => if s = t then dropCommon ss ts else (s :: ss, t :: ts)
  | ss, ts => (ss, ts)

def relative (workingDir p start : String) : String :=
  let segments (q : String) := normalSegments (absolute workingDir q).toList
  let (down, back) := dropCommon (segments p) (segments start)
  ofSegments 0 (back.map (fun _ => up) ++ down)

/-- A path as its root and its segments, without blanks and `.` but with `..` kept. -/
structure Trail where
  root : String
  segments : List String
deriving DecidableEq, Repr

namespace Trail

def ofText (p : String) : Trail where
  root := String.ofList (List.replicate (rootSlashes p.toList) '/')
  segments := ((split '/' p.toList).filter (fun s => s ≠ [] ∧ s ≠ here)).map String.ofList

def text (t : Trail) : String :=
  if t.root = "" ∧ t.segments = [] then "."
  else t.root ++ "/".intercalate t.segments

def name (t : Trail) : String := t.segments.getLast?.getD ""

def append (t : Trail) (p : Trail) : Trail :=
  if p.root ≠ "" then p else { t with segments := t.segments ++ p.segments }

/-- The path itself, then each directory above it, up to the root or to `.`. -/
def ancestors (t : Trail) : List Trail :=
  (List.range (t.segments.length + 1)).reverse.map (fun n => { t with segments := t.segments.take n })

end Trail
end Wiring.Path
