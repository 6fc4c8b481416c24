import Wiring.Value

/-! What a plain scalar is by its spelling alone. -/
namespace Wiring.Yaml

/-- The tags that YAML itself defines, and the tag of tagged collections. -/
inductive Tag where
  | null | bool | int | float | timestamp | merge | value | str | binary | seq | map | set | omap
  | pairs | tagged
  | other (name : List Char)
deriving DecidableEq, Repr

def coreStart : List Char := "tag:yaml.org,2002:".toList

def coreTags : List (String × Tag) :=
  [("null", .null), ("bool", .bool), ("int", .int), ("float", .float), ("timestamp", .timestamp),
   ("merge", .merge), ("value", .value), ("str", .str), ("binary", .binary), ("seq", .seq),
   ("map", .map), ("set", .set), ("omap", .omap), ("pairs", .pairs)]

def Tag.ofName (name : List Char) : Tag :=
  if name = "!tagged".toList then .tagged
  else if coreStart.isPrefixOf name then
    (coreTags.lookup (String.ofList (name.drop coreStart.length))).getD (.other name)
  else .other name

def boolWords : List String :=
  ["yes", "Yes", "YES", "no", "No", "NO", "true", "True", "TRUE", "false", "False", "FALSE",
   "on", "On", "ON", "off", "Off", "OFF"]

def nullWords : List String := ["~", "null", "Null", "NULL", ""]

def dropSign : List Char → List Char
  | '+' :: cs => cs
  | '-' :: cs => cs
  | cs => cs

def isDigitOr (c : Char) : Bool := c.isDigit || c = '_'

/-- Groups of one or two digits after colons, the first of two at most a five. -/
def isSexagesimalTail : List Char → Bool
  | ':' :: a :: b :: cs =>
    if a.isDigit && b.isDigit then
      '0' ≤ a && a ≤ '5' && (cs = [] || isSexagesimalTail cs)
    else a.isDigit && isSexagesimalTail (b :: cs)
  | [':', a] => a.isDigit
  | _ => false

def isSexagesimal (first : Char → Bool) (cs : List Char) : Bool :=
  match cs with
  | c :: cs => first c && isSexagesimalTail (cs.dropWhile isDigitOr)
  | [] => false

def isInteger (cs : List Char) : Bool :=
  let body := dropSign cs
  let positive (c : Char) : Bool := '1' ≤ c && c ≤ '9'
  match body with
  | '0' :: 'b' :: ds => ds ≠ [] && ds.all (fun c => c = '0' || c = '1' || c = '_')
  | '0' :: 'x' :: ds =>
    ds ≠ [] && ds.all (fun c => isDigitOr c || ('a' ≤ c && c ≤ 'f') || ('A' ≤ c && c ≤ 'F'))
  | '0' :: ds => ds.all (fun c => ('0' ≤ c && c ≤ '7') || c = '_')
  | c :: ds => positive c && (ds.all isDigitOr || isSexagesimal positive body)
  | [] => false

def isExponent : List Char → Bool
  | [] => true
  | e :: sign :: ds => (e = 'e' || e = 'E') && (sign = '+' || sign = '-') && ds ≠ [] && ds.all Char.isDigit
  | _ => false

def isNumber (cs : List Char) : Bool :=
  let body := dropSign cs
  let word (ws : List String) (t : List Char) : Bool := ws.any (fun w => w.toList = t)
  match body with
  | '.' :: ds =>
    word ["inf", "Inf", "INF"] ds || (body = cs && (word ["nan", "NaN", "NAN"] ds ||
      (match ds with
        | d :: rest => d.isDigit && isExponent (rest.dropWhile isDigitOr)
        | [] => false)))
  | d :: ds =>
    d.isDigit &&
      (match ds.dropWhile isDigitOr with
        | '.' :: rest => isExponent (rest.dropWhile isDigitOr)
        | rest =>
          let groups := rest.takeWhile (· ≠ '.')
          isSexagesimalTail groups &&
            (match rest.dropWhile (· ≠ '.') with
              | '.' :: rest => rest.all isDigitOr
              | _ => false))
  | [] => false

/-- The parts of a date, or of a date with a time, as they are written. -/
structure DateParts where
  year : List Char
  month : List Char
  day : List Char
  /-- Hour, minute and second, the fraction, and the zone. -/
  time : Option ((List Char × List Char × List Char) × Option (List Char) × List Char)

def takeDigits (least most : Nat) (cs : List Char) : Option (List Char × List Char) :=
  let ds := (cs.take most).takeWhile Char.isDigit
  if ds.length < least then none else some (ds, cs.drop ds.length)

def takeSign (c : Char) : List Char → Option (List Char)
  | d :: cs => if c = d then some cs else none
  | [] => none

def isTimeBlank (c : Char) : Bool := c = ' ' || c = '\t'

def isZone (cs : List Char) : Bool :=
  match cs with
  | [] => true
  | _ =>
    match cs.dropWhile isTimeBlank with
    | ['Z'] => true
    | sign :: ds =>
      (sign = '+' || sign = '-') &&
        (match takeDigits 1 2 ds with
          | none => false
          | some (_, []) => true
          | some (_, rest) =>
            match takeSign ':' rest with
            | some [a, b] => a.isDigit && b.isDigit
            | _ => false)
    | [] => false

def dateParts? (cs : List Char) : Option DateParts := do
  let (year, cs) ← takeDigits 4 4 cs
  let cs ← takeSign '-' cs
  let (month, cs) ← takeDigits 1 2 cs
  let cs ← takeSign '-' cs
  let (day, cs) ← takeDigits 1 2 cs
  if cs = [] then some ⟨year, month, day, none⟩
  else
    let cs ← match cs with
      | 'T' :: cs | 't' :: cs => some cs
      | c :: cs => if isTimeBlank c then some (cs.dropWhile isTimeBlank) else none
      | [] => none
    let (hour, cs) ← takeDigits 1 2 cs
    let cs ← takeSign ':' cs
    let (minute, cs) ← takeDigits 2 2 cs
    let cs ← takeSign ':' cs
    let (second, cs) ← takeDigits 2 2 cs
    let (fraction, zone) := match cs with
      | '.' :: cs => (some (cs.takeWhile Char.isDigit), cs.dropWhile Char.isDigit)
      | cs => (none, cs)
    if isZone zone then some ⟨year, month, day, some ((hour, minute, second), fraction, zone)⟩ else none

def DateParts.isPlain (p : DateParts) : Bool :=
  p.time.isSome || (p.month.length = 2 && p.day.length = 2)

def withoutLastBreak (cs : List Char) : List Char :=
  if cs.getLast? = some '\n' then cs.dropLast else cs

def plainTag (cs : List Char) : Tag :=
  let body := withoutLastBreak cs
  let word (ws : List String) : Bool := ws.any (fun w => w.toList = body)
  if cs = [] then .null
  else if word boolWords then .bool
  else if isNumber body then .float
  else if isInteger body then .int
  else if word ["<<"] then .merge
  else if word nullWords && cs.head? ≠ some '\n' then .null
  else if (dateParts? body).any DateParts.isPlain then .timestamp
  else if word ["="] then .value
  else .str

end Wiring.Yaml
