import Wiring.Modules.Host.Import
import Wiring.Text.Identifier

/-! The file system of a process. A file that the process would import under some name is
imported under that name, and any other file is loaded by itself. -/
namespace Wiring.Modules.Host

/-! Names of files. -/

/-- Whether the process would find a name without dots right below a directory. -/
def ownsTopLevel (p : Host) (suffix name root : String) : Bool :=
  let expected := p.realPath (Path.join root name)
  match p.specOf name with
  | none => false
  | some s =>
    if s.isPackage then s.portions.any (fun d => p.realPath d = expected)
    else p.realPath (s.file.getD "") = expected ++ suffix

def nameParts (p : Host) (suffix path root : String) : List String :=
  if Text.startsWith path (root ++ "/") then
    let (stem, extension) := Path.splitExtension (Path.relative p.workingDir.text path root)
    if extension = suffix then
      let parts := (Text.split '/' stem.toList).map String.ofList
      let parts := if parts.getLast? = some "__init__" then parts.dropLast else parts
      if parts.all Text.isIdentifier then parts else []
    else []
  else []

/-- The dotted name that a file has below the first search root which owns its first part. -/
def ownedName (p : Host) (owns : String → String → Bool) (suffix path : String) : Option String :=
  p.roots.findSome? fun root =>
    match p.nameParts suffix path root with
    | [] => none
    | top :: parts => if owns top root then some (".".intercalate (top :: parts)) else none

def importableName (p : Host) (suffix path : String) : Option String :=
  p.ownedName (p.ownsTopLevel suffix) suffix path

def packageRoot (p : Host) (specifier : String) : Option String :=
  let top := String.ofList (specifier.toList.takeWhile (fun c => c ≠ '/' && c ≠ '.'))
  if Text.isIdentifier top then
    match p.foreign.get? top, p.specOf top with
    | some directory, _ => directory
    | none, none => none
    | none, some s =>
      s.file.map fun file =>
        let directory := Path.directory file
        if s.isPackage then Path.directory directory else directory
  else none

def lookupPaths (p : Host) (specifier : String) : List String :=
  (p.packageRoot specifier).toList ++ p.roots

/-! Loading. -/

def resolveModule (suffix : String) (p : Host) (specifier : String) (roots : List String) :
    Except Failure String :=
  let paths := searched specifier suffix roots
  match (paths.flatMap (candidates · suffix)).find? p.isFile with
  | some path => .ok path
  | none => .error (.unresolved specifier (some (.noModule paths.length)))

def findFile (p : Host) (suffix location : String) : Except Failure String :=
  match (candidates location suffix).find? p.isFile with
  | some path => .ok (p.absolute path)
  | none => .error (.unresolved location (some .noModuleFile))

/-- Loads a file by itself. When an ordinary failure stops it, nothing of it is kept; when the
process ends in it, the module stays as far as it came. -/
def loadFromFile (path : String) : Act Host Module := do
  let p ← Act.get
  match p.byFile.get? path with
  | some m => pure m
  | none =>
    if Text.endsWith path programSuffix then
      let (exports, fault) := p.run path
      let m := p.newModule ⟨some path, []⟩ exports
      let keep := Act.update fun p => { p with byFile := p.byFile.set path m, created := p.created + 1 }
      match fault with
      | none => do
        keep
        pure m
      | some e => do
        if e.reach = .fatal then keep
        Act.fail e
    else Act.fail (.unresolved path (some .notLoadable))

/-- Imports a file under a name, if that brings the module of this very file. -/
def importFile (path name : String) : Act Host (Option Module) := fun p =>
  match importFrom none ((Text.split '.' name.toList).map String.ofList) p with
  | (⟨.error e, es⟩, p) =>
    if e.reach = .importing then (⟨.ok none, es ++ [.log (.notImported path name e.text)]⟩, p)
    else (⟨.error e, es⟩, p)
  | (⟨.ok m, es⟩, p) =>
    (⟨.ok (m.filter (fun m => p.realPath (m.spec.file.getD "") = p.realPath path)), es⟩, p)

/-- Loads the module of a location, once for every file found. -/
def loadAt (suffix location : String) : Act Host Module := do
  let p ← Act.get
  let path ← liftM (Traced.ofExcept (p.findFile suffix location))
  match p.found.get? path with
  | some m => pure m
  | none =>
    let imported ← match p.importableName suffix path with
      | some name => importFile path name
      | none => pure none
    let m ← match imported with
      | some m => pure m
      | none => loadFromFile path
    Act.log (.loaded path)
    Act.update fun p => { p with found := p.found.set path m }
    pure m

def fileSystem (suffix : String) : FileSystem Host where
  present p path := p.disk.present p.workingDir path
  processRoots := lookupPaths
  resolveModule := resolveModule suffix
  loadModule location := Module.exports <$> loadAt suffix location

end Wiring.Modules.Host
