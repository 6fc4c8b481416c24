import Wiring.Modules.Host

/-! Importing modules by dotted names. A package comes before the modules inside it; a name that
only directories have is a package without a file of its own. -/
namespace Wiring.Modules.Host

def programSuffix : String := ".py"

def withoutLastSlashes (path : String) : String :=
  String.ofList (path.toList.reverse.dropWhile (· = '/')).reverse

def below (directory name : String) : String := withoutLastSlashes directory ++ "/" ++ name

/-- The directory that a search root means. A relative root is seen from the working directory. -/
def rootDirectory (p : Host) (root : String) : String :=
  if root = "" ∨ root = "." then p.workingDir.text
  else if Path.isAbsolute root then root
  else
    let relative := if Text.startsWith root "./" then String.ofList (root.toList.drop 2) else root
    below p.workingDir.text (withoutLastSlashes relative)

def isDirectory (p : Host) (path : String) : Bool :=
  match p.disk.look p.workingDir path with
  | .ok .directory => true
  | _ => false

def specIn (p : Host) (name directory : String) : Option Spec :=
  let base := below directory name
  let package := below base ("__init__" ++ programSuffix)
  let file := base ++ programSuffix
  if p.isFile package then some ⟨some package, [base]⟩
  else if p.isFile file then some ⟨some file, []⟩
  else if p.isDirectory base then some ⟨none, [base]⟩
  else none

/-- Looks for a name in several directories: the first file wins, else all mere directories of
that name are one package. -/
def specAmong (p : Host) (name : String) (directories : List String) : Option Spec :=
  let specs := directories.filterMap (p.specIn name)
  match specs.find? (fun s => s.file.isSome) with
  | some s => some s
  | none => if specs = [] then none else some ⟨none, specs.flatMap Spec.portions⟩

def searchDirectories (p : Host) : List String :=
  (p.searchRoots.filter (fun root => root = "" || p.isDirectory root)).map p.rootDirectory

/-- Where on the disk a name without dots comes from or would come from. -/
def specOf (p : Host) (name : String) : Option Spec :=
  if p.foreign.contains name then none
  else match p.byName.get? name with
    | some m => some m.spec
    | none => p.specAmong name p.searchDirectories

def importFault (text : String) : Failure := .raised .importing "ModuleNotFoundError" text

def noModuleNamed (name : String) : String := "No module named " ++ Text.quoted name

def runNamed (name : String) (spec : Spec) : Act Host Module := do
  let p ← Act.get
  match (spec.file.map p.run).getD (∅, none) with
  | (_, some e) => Act.fail e
  | (exports, none) =>
    let m := p.newModule spec exports
    Act.update fun p => { p with byName := p.byName.set name m, created := p.created + 1 }
    pure m

/-- One name more below what was imported, which is a module and its name. -/
def importBelow (outer : Option (String × Module)) (part : String) : Act Host (String × Module) := do
  let p ← Act.get
  let name := match outer with
    | none => part
    | some (outerName, _) => outerName ++ "." ++ part
  match p.byName.get? name with
  | some m => pure (name, m)
  | none =>
    match outer with
    | some (outerName, m) =>
      if m.spec.isPackage then
        match p.specAmong part (m.spec.portions.filter p.isDirectory) with
        | some spec => Prod.mk name <$> runNamed name spec
        | none => Act.fail (importFault (noModuleNamed name))
      else
        Act.fail (importFault
          (noModuleNamed name ++ "; " ++ Text.quoted outerName ++ " is not a package"))
    | none =>
      match p.specOf part with
      | some spec => Prod.mk name <$> runNamed name spec
      | none => Act.fail (importFault (noModuleNamed name))

def importFrom (outer : Option (String × Module)) : List String → Act Host (Option Module)
  | [] => pure (outer.map Prod.snd)
  | part :: parts => do
    let m ← importBelow outer part
    importFrom (some m) parts

end Wiring.Modules.Host
