import Wiring.Modules.FileSystem

/-! From a specifier and a directory to the place of a module. -/
namespace Wiring.Modules

structure SearchRules where
  dependencyDir : String := "site-packages"
  suffix : String := ".py"
  processRoots : Bool := true
deriving DecidableEq, Repr

/-- Older documents write this before the name of a shared package. -/
def legacyStart : String := "../site-packages/"

/-- The directory, then the dependency folder in it and in each directory above it. -/
def searchPaths (rules : SearchRules) (directory : String) : List String :=
  let folder := Path.Trail.ofText rules.dependencyDir
  directory :: (Path.Trail.ofText directory).ancestors.map (fun t => (t.append folder).text)

def unique (xs : List String) : List String :=
  (xs.foldl (fun kept x => if x ∈ kept then kept else x :: kept) []).reverse

def withoutLegacyStart (specifier : String) : String :=
  if Text.startsWith specifier legacyStart then
    String.ofList (specifier.toList.drop legacyStart.length)
  else specifier

variable {σ : Type}

def resolveModule (fs : FileSystem σ) (specifier : String) (roots : List String) : Act σ String := do
  Act.log (.resolving specifier roots.length)
  Act.emit (.resolvedModule specifier roots)
  let s ← Act.get
  liftM (Traced.ofExcept (fs.resolveModule s specifier roots))

/-- Absolute specifiers stay. Others are looked for at the directory, with the suffix or without;
then a relative one is looked for at that place only, and a bare name under every root. -/
def resolve (rules : SearchRules) (fs : FileSystem σ) (specifier directory : String) :
    Act σ String := do
  if Path.isAbsolute specifier then return specifier
  let specifier := withoutLegacyStart specifier
  let joined := Path.normal (Path.join directory specifier)
  let s ← Act.get
  if fs.present s (joined ++ rules.suffix) || fs.present s joined then return joined
  if Text.startsWith specifier "." then
    let target := Path.normal (Path.join directory (Path.directory specifier))
    resolveModule fs joined (searchPaths rules target)
  else if rules.processRoots then
    Act.emit (.lookedUp specifier)
    resolveModule fs specifier (unique (searchPaths rules directory ++ fs.processRoots s specifier))
  else resolveModule fs specifier (searchPaths rules directory)

end Wiring.Modules
