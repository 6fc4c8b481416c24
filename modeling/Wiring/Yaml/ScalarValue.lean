import Wiring.Number.Numeral
import Wiring.Text.LetterCase
import Wiring.Text.Split
import Wiring.Yaml.Resolve
import Wiring.Yaml.Scalar

/-! What the text of a scalar denotes under its tag. -/
namespace Wiring.Yaml

/-! Numbers. Underscores in them do not count. -/

def withoutUnderscores (cs : List Char) : List Char := cs.filter (· ≠ '_')

def integerIn (base : Nat) (cs : List Char) : Except ScalarFault Int :=
  match Numeral.integer base cs with
  | .ok n => .ok n
  | .error .malformed => .error (.integer base (String.ofList cs))
  | .error (.digits n) => .error (.digits n)

def numberIn (cs : List Char) : Except ScalarFault Double :=
  match Numeral.number? cs with
  | some x => .ok x
  | none => .error (.number (String.ofList cs))

def integerMagnitude (body : List Char) : Except ScalarFault Int :=
  match body with
  | [] => .error .emptyNumber
  | ['0'] => .ok 0
  | '0' :: 'b' :: cs => integerIn 2 cs
  | '0' :: 'x' :: cs => integerIn 16 cs
  | '0' :: _ => integerIn 8 body
  | _ =>
    if body.contains ':' then do
      let parts ← (Text.split ':' body).mapM (integerIn 10)
      pure (parts.foldl (fun n part => n * 60 + part) 0)
    else integerIn 10 body

def integerValue (text : List Char) : Except ScalarFault Int :=
  match withoutUnderscores text with
  | [] => .error .emptyNumber
  | cs =>
    let (negative, body) := Numeral.splitSign cs
    (integerMagnitude body).map fun n => if negative then -n else n

/-- The sum of parts to the base sixty, added up from the last part to the first. The weights are
whole numbers, which can be too large for a double. -/
def sexagesimalSum (parts : List Double) : Except ScalarFault Double :=
  Prod.fst <$> parts.reverse.foldlM (fun (sum, weight) part =>
    let factor := Double.ofInt weight
    if factor.isFinite then .ok (Double.add sum (Double.mul part factor), weight * 60)
    else .error .oversizedWeight) (Double.zero false, (1 : Int))

def numberMagnitude (body : List Char) : Except ScalarFault Double :=
  if body = ".inf".toList then .ok (Double.infinity false)
  else if body = ".nan".toList then .ok Double.nan
  else if body.contains ':' then (Text.split ':' body).mapM numberIn >>= sexagesimalSum
  else numberIn body

def numberValue (text : List Char) : Except ScalarFault Double :=
  match (withoutUnderscores text).flatMap Text.lower with
  | [] => .error .emptyNumber
  | cs =>
    let (negative, body) := Numeral.splitSign cs
    (numberMagnitude body).map fun x => if negative && !x.isNaN then x.neg else x

/-! Flags. -/

def flagWords : List (String × Bool) :=
  [("yes", true), ("no", false), ("true", true), ("false", false), ("on", true), ("off", false)]

def flagValue (text : List Char) : Except ScalarFault Bool :=
  let word := Text.lowerCase (String.ofList text)
  match flagWords.lookup word with
  | some b => .ok b
  | none => .error (.flag word)

/-! Bytes. -/

def sextet? (c : Char) : Option Nat :=
  if 'A' ≤ c ∧ c ≤ 'Z' then some (c.toNat - 65)
  else if 'a' ≤ c ∧ c ≤ 'z' then some (c.toNat - 71)
  else if '0' ≤ c ∧ c ≤ '9' then some (c.toNat + 4)
  else if c = '+' then some 62
  else if c = '/' then some 63
  else none

/-- Reads groups of four sextets as three bytes. `held` are the sextets of the open group, the
last one first, and `pads` the padding signs after them; a group that is full with its padding
ends the text, and all other characters are passed over. -/
def bytesFrom (held : List Nat) (pads : Nat) : List Char → Option (List UInt8)
  | [] => if held = [] then some [] else none
  | c :: cs =>
    if c = '=' then
      if 2 ≤ held.length then
        if 4 ≤ held.length + pads + 1 then some [] else bytesFrom held (pads + 1) cs
      else bytesFrom held pads cs
    else match sextet? c, held with
      | none, _ => bytesFrom held pads cs
      | some n, [] => bytesFrom [n] 0 cs
      | some n, last :: more =>
        (bytesFrom (if more.length = 2 then [] else n :: last :: more) 0 cs).map
          (UInt8.ofNat (last * Nat.pow 4 (more.length + 1) + n / Nat.pow 4 (2 - more.length)) :: ·)

def bytesValue? (text : List Char) : Option (List UInt8) :=
  if text.all (fun c => c.toNat < 128) then bytesFrom [] 0 text else none

/-! Days and moments. -/

def natIn (cs : List Char) : Nat := Numeral.ofDigits 10 cs

def micros (fraction : List Char) : Nat :=
  let ds := fraction.take 6
  natIn (ds ++ List.replicate (6 - ds.length) '0')

def zoneSeconds (zone : List Char) : Except CalendarFault (Option Int) :=
  match zone.dropWhile isTimeBlank with
  | [] => .ok none
  | ['Z'] => .ok (some 0)
  | sign :: cs =>
    let hours := cs.takeWhile Char.isDigit
    let minutes := (cs.dropWhile Char.isDigit).drop 1
    let span : Int := natIn hours * 3600 + natIn minutes * 60
    let seconds := if sign = '-' then -span else span
    if -86400 < seconds ∧ seconds < 86400 then .ok (some seconds) else .error (.zone seconds)

def DateParts.value (p : DateParts) : Except CalendarFault Scalar :=
  match p.time with
  | none => Scalar.date <$> Date.make (natIn p.year) (natIn p.month) (natIn p.day)
  | some ((hour, minute, second), fraction, zone) => do
    let zone ← zoneSeconds zone
    Scalar.moment <$> Moment.make (natIn p.year) (natIn p.month) (natIn p.day)
      (natIn hour) (natIn minute) (natIn second) (micros (fraction.getD [])) zone

def timestampValue (text : List Char) : Except ScalarFault Scalar :=
  match dateParts? (withoutLastBreak text) with
  | none => .error .noTimestamp
  | some p =>
    match p.value with
    | .ok s => .ok s
    | .error f => .error (.calendar f)

/-! Scalars. -/

def scalarValue (tag : Tag) (text : List Char) : Except Fault Scalar :=
  let ofScalar {α : Type} (make : α → Scalar) (r : Except ScalarFault α) : Except Fault Scalar :=
    match r with
    | .ok a => .ok (make a)
    | .error f => .error (.scalar f)
  match tag with
  | .null => .ok .null
  | .bool => ofScalar .bool (flagValue text)
  | .int => ofScalar .int (integerValue text)
  | .float => ofScalar .float (numberValue text)
  | .timestamp => ofScalar id (timestampValue text)
  | .str => .ok (.text (String.ofList text))
  | .tagged => .ok (.text (tagMarker ++ String.ofList text))
  | .binary =>
    match bytesValue? text with
    | some bs => .ok (.bytes bs)
    | none => malformed
  | _ => malformed

end Wiring.Yaml
