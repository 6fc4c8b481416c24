import Wiring.Location
import Wiring.Modules.FileSystem

/-! A disk: files and directories below one root, and the ways in which a path finds one or
fails to. -/
namespace Wiring
open Wiring.Path (Segment)

/-- What running a module file does: it offers exports, or it raises a failure. -/
structure Program where
  exports : Exports := ∅
  raises : Option Failure := none

inductive Content where
  | bytes (bs : List UInt8)
  | program (p : Program)
  /-- A module file that is no program. -/
  | broken

/-- Files by their full paths, which start with one slash and are in normal form. A directory is
there when a file lies below it, and also when it is listed. -/
structure Disk where
  files : Table Content := ∅
  directories : List String := []

namespace Disk

inductive Entry where
  | directory
  | file (c : Content)

def fullPath (segments : List Segment) : String := Path.ofSegments 1 segments

def segmentsOf (p : String) : List Segment := Path.normalSegments p.toList

def add (d : Disk) (path : String) (c : Content) : Disk :=
  { d with files := d.files.set (fullPath (segmentsOf path)) c }

def addDirectory (d : Disk) (path : String) : Disk :=
  { d with directories := fullPath (segmentsOf path) :: d.directories }

def hasDirectory (d : Disk) (segments : List Segment) : Bool :=
  segments = [] || d.directories.contains (fullPath segments) ||
    (d.directories ++ d.files.names).any (fun p => Text.startsWith p (fullPath segments ++ "/"))

def entry? (d : Disk) (segments : List Segment) : Option Entry :=
  match d.files.get? (fullPath segments) with
  | some c => some (.file c)
  | none => if d.hasDirectory segments then some .directory else none

/-- Follows segments from a place. Every place on the way has to be a directory. -/
def follow (d : Disk) (place : List Segment) : List Segment → Except OpenFault (List Segment)
  | [] => .ok place
  | s :: ss =>
    match d.entry? place with
    | none => .error .absent
    | some (.file _) => .error .underFile
    | some .directory =>
      if s = [] ∨ s = Path.here then follow d place ss
      else if s = Path.up then follow d place.dropLast ss
      else follow d (place ++ [s]) ss

/-- The place that a path means, seen from the working directory. The empty path means none. -/
def placeOf (d : Disk) (workingDir : Location) (path : String) : Except OpenFault (List Segment) :=
  if path = "" then .error .absent
  else d.follow (if Path.isAbsolute path then [] else segmentsOf workingDir.text)
    (Text.split '/' path.toList)

def look (d : Disk) (workingDir : Location) (path : String) : Except OpenFault Entry :=
  match d.placeOf workingDir path with
  | .error f => .error f
  | .ok place =>
    match d.entry? place with
    | some e => .ok e
    | none => .error .absent

def isName (path : String) : Bool := !path.toList.contains '\x00'

def present (d : Disk) (workingDir : Location) (path : String) : Bool :=
  isName path && (d.look workingDir path).toBool

def isFile (d : Disk) (workingDir : Location) (path : String) : Bool :=
  isName path && (match d.look workingDir path with
    | .ok (.file _) => true
    | _ => false)

def openFile (d : Disk) (workingDir : Location) (path : String) : Except OpenFault Content :=
  match d.look workingDir path with
  | .ok (.file c) => .ok c
  | .ok .directory => .error .directory
  | .error f => .error f

end Disk
end Wiring
