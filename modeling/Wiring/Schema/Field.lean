import Wiring.Schema.Checked
import Wiring.Table
import Wiring.Text.Blank
import Wiring.Text.Quoted
import Wiring.Text.Utf8

/-! Checks for single fields: text, flags, integers, lists, mappings, and fields that may be left
out. A check accepts what stands for a value of its kind, such as `"yes"` for a flag. -/
namespace Wiring.Schema

def asText : Value → Checked String
  | .text s => .valid s
  | .scalar (.bytes bs) =>
    match Utf8.decode bs with
    | .ok s => .valid s
    | .error _ => .fault .notUnicode
  | _ => .fault .notText

def trueWords : List String := ["1", "on", "t", "true", "y", "yes"]
def falseWords : List String := ["0", "off", "f", "false", "n", "no"]

def flagWord (s : String) : Checked Bool :=
  let word := s.map Char.toLower
  if trueWords.contains word then .valid true
  else if falseWords.contains word then .valid false
  else .fault .unreadableBool

def fitsWord (n : Int) : Bool := -(Int.pow 2 63) ≤ n && n < Int.pow 2 63

def flagNumber (n : Int) : Checked Bool :=
  if n = 0 then .valid false
  else if n = 1 then .valid true
  else .fault .unreadableBool

def wholeWord (x : Double) : Except Problem Int :=
  if !x.isFinite then .error .notFinite
  else match x.toInt? with
    | none => .error .fractional
    | some n => if -(Int.pow 2 63) < n ∧ n < Int.pow 2 63 then .ok n else .error .oversizedInt

def asFlag : Value → Checked Bool
  | .bool b => .valid b
  | .text s => flagWord s
  | .scalar (.bytes bs) =>
    match Utf8.decode bs with
    | .ok s => flagWord s
    | .error _ => .fault .unreadableBool
  | .int n => if fitsWord n then flagNumber n else .fault .notBool
  | .float x =>
    match wholeWord x with
    | .ok n => flagNumber n
    | .error _ => .fault .notBool
  | _ => .fault .notBool

/-- Digits with single underscores between them, as the digits alone. -/
def groupedDigits? : List Char → Option (List Char)
  | [] => none
  | [c] => if c.isDigit then some [c] else none
  | c :: '_' :: cs => if c.isDigit then (groupedDigits? cs).map (c :: ·) else none
  | c :: cs => if c.isDigit then (groupedDigits? cs).map (c :: ·) else none

def readDigits (ds : List Char) : Nat := ds.foldl (fun n c => n * 10 + (c.toNat - 48)) 0

/-- An integer between blanks: a sign, digits, and a fraction of zeros may be there. -/
def integerText (s : String) : Checked Int :=
  let cs := Text.trim Text.isBlank s.toList
  let (negative, body) := match cs with
    | '-' :: ds => (true, ds)
    | '+' :: ds => (false, ds)
    | ds => (false, ds)
  let whole := body.takeWhile (· ≠ '.')
  let fraction := body.dropWhile (· ≠ '.')
  let plain := fraction = [] || (1 < fraction.length && (fraction.drop 1).all (· = '0'))
  match groupedDigits? whole with
  | none => .fault .unreadableInt
  | some ds =>
    if !plain then .fault .unreadableInt
    else if 4300 < ds.length then .fault .oversizedInt
    else .valid (if negative then -(readDigits ds : Int) else readDigits ds)

def asInteger : Value → Checked Int
  | .int n => .valid n
  | .bool b => .valid (if b then 1 else 0)
  | .float x =>
    match wholeWord x with
    | .ok n => .valid n
    | .error p => .fault p
  | .text s => integerText s
  | .scalar (.bytes bs) =>
    match Utf8.decode bs with
    | .ok s => integerText s
    | .error _ => .fault .unreadableInt
  | _ => .fault .notInt

variable {α : Type}

def items? : Value → Option (List Value)
  | .list vs => some vs
  | .set ms => some (ms.map .scalar)
  | _ => none

def indexed (check : Value → Checked α) (n : Nat) : List Value → List (Checked α)
  | [] => []
  | v :: vs => (check v).under (.index n) :: indexed check (n + 1) vs

def asListOf (check : Value → Checked α) (v : Value) : Checked (List α) :=
  match items? v with
  | some vs => .all (indexed check 0 vs)
  | none => .fault .notList

def asTupleOf (check : Value → Checked α) (v : Value) : Checked (List α) :=
  match items? v with
  | some vs => .all (indexed check 0 vs)
  | none => .fault .notTuple

def anything : Value → Checked Value := .valid

def bytesText (bs : List UInt8) : String :=
  let cs := bs.map (fun b => Char.ofNat b.toNat)
  let quote := if cs.contains '\'' && !cs.contains '"' then '"' else '\''
  String.ofList ('b' :: quote :: cs.flatMap (fun c =>
    if c.toNat < 0x80 then Text.escapeChar quote c else '\\' :: 'x' :: Text.hexText 2 c.toNat) ++ [quote])

def zoneKeyText (seconds : Int) : String :=
  if seconds = 0 then "datetime.timezone.utc" else "datetime.timezone(" ++ zoneSpan seconds ++ ")"

def momentText (t : Moment) : String :=
  let clock :=
    if t.micro ≠ 0 then [t.hour, t.minute, t.second, t.micro]
    else if t.second ≠ 0 then [t.hour, t.minute, t.second]
    else [t.hour, t.minute]
  let numbers := [t.date.year, t.date.month, t.date.day] ++ clock
  "datetime.datetime(" ++ ", ".intercalate (numbers.map toString ++
    (t.zone.map (fun z => "tzinfo=" ++ zoneKeyText z)).toList) ++ ")"

/-- The text that shows a key which is neither text nor a number that fits a word. -/
def keyText : Scalar → String
  | .null => "None"
  | .bool b => if b then "True" else "False"
  | .int n => toString n
  | .float x => x.text
  | .text s => s
  | .bytes bs => bytesText bs
  | .date d => "datetime.date(" ++ ", ".intercalate ([d.year, d.month, d.day].map toString) ++ ")"
  | .moment t => momentText t

def keyStep : Scalar → Step
  | .text s => .name s
  | .bool b => .index (if b then 1 else 0)
  | .int n => if fitsWord n then .index n else .name (keyText (.int n))
  | k => .name (keyText k)

def entry (check : Value → Checked α) (e : Scalar × Value) : Checked (String × α) :=
  Prod.mk <$> ((asText (.scalar e.1)).under (.name "[key]")).under (keyStep e.1)
    <*> (check e.2).under (keyStep e.1)

def asMappingOf (check : Value → Checked α) : Value → Checked (Table α)
  | .map es => Table.ofList <$> .all (es.map (entry check))
  | _ => .fault .notMapping

def orNull (check : Value → Checked α) : Value → Checked (Option α)
  | .null => .valid none
  | v => some <$> check v

abbrev Entries := List (Scalar × Value)

def field (entries : Entries) (key : String) (check : Value → Checked α) (absent : Checked α) :
    Checked α :=
  match Value.entry? key entries with
  | some v => (check v).under (.name key)
  | none => absent

def required (entries : Entries) (key : String) (check : Value → Checked α) : Checked α :=
  field entries key check ((Checked.fault .missing).under (.name key))

def withDefault (entries : Entries) (key : String) (check : Value → Checked α) (default : α) : Checked α :=
  field entries key check (.valid default)

/-- A field whose null stands for its default. -/
def blankable (entries : Entries) (key : String) (check : Value → Checked α) (default : α) : Checked α :=
  field entries key (fun v => match v with | .null => .valid default | v => check v) (.valid default)

/-- A field with a second spelling, which counts when the first is absent. -/
def either (entries : Entries) (key other : String) (check : Value → Checked α) (absent : Checked α) :
    Checked α :=
  match Value.entry? key entries with
  | some v => (check v).under (.name key)
  | none => field entries other check absent

def asRecord (name : String) (fields : Entries → Checked α) : Value → Checked α
  | .map es => fields es
  | _ => .fault (.notRecord name)

end Wiring.Schema
