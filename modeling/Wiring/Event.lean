/-! What a compilation does on its way, in the order in which it does it. -/
namespace Wiring

inductive Level where
  | debug | info | warning
deriving DecidableEq, Repr

def Level.text : Level → String
  | .debug => "DEBUG"
  | .info => "INFO"
  | .warning => "WARNING"

inductive LogRecord where
  | variableNotSet (name : String)
  | resolving (specifier : String) (roots : Nat)
  | noExport (specifier : String) (wanted : Option String)
  | importing (location : String)
  | registered (id : String)
  | compiled (location : String) (parameters imports services : Nat)
  | loaded (path : String)
  | notImported (path name cause : String)
deriving DecidableEq, Repr

namespace LogRecord

def level : LogRecord → Level
  | .variableNotSet _ => .warning
  | .compiled .. => .info
  | _ => .debug

def message : LogRecord → String
  | .variableNotSet name => "Environment variable '" ++ name ++ "' is not set"
  | .resolving s n => "Resolving '" ++ s ++ "' against " ++ toString n ++ " search paths"
  | .noExport s wanted => "No export of '" ++ s ++ "' matches " ++ (match wanted with
      | none | some "" => "its basename"
      | some name => name)
  | .importing l => "Importing " ++ l
  | .registered id => "Registered service '" ++ id ++ "'"
  | .compiled l p i s => "Compiled " ++ l ++ ": " ++ toString p ++ " parameters, " ++ toString i ++
      " imports, " ++ toString s ++ " services"
  | .loaded path => "Loaded module " ++ path
  | .notImported path name cause => "Cannot import " ++ path ++ " as '" ++ name ++ "': " ++ cause

def text (r : LogRecord) : String := r.level.text ++ " " ++ r.message

end LogRecord

inductive Event where
  | log (r : LogRecord)
  | read (location : String)
  | located (specifier directory : String) (exportName : Option String)
  | lookedUp (specifier : String)
  | resolvedModule (specifier : String) (roots : List String)
  | loadedModule (location : String)
deriving DecidableEq, Repr

end Wiring
