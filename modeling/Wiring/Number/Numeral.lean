import Wiring.Number.Double
import Wiring.Text.Blank
import Wiring.Text.DecimalDigit

/-! Numerals as people write them: in a base, with digits of any script, between blanks. -/
namespace Wiring.Numeral

/-- A digit of any script as the plain digit of its value, and any blank as a space. -/
def plainChar (c : Char) : Char :=
  if c.toNat < 127 then c
  else if Text.isBlank c then ' '
  else match Text.digitValue? c with
    | some d => Char.ofNat (48 + d)
    | none => '?'

def isSpace (c : Char) : Bool := c = ' ' || (9 ≤ c.toNat && c.toNat ≤ 13)

def plain (text : List Char) : List Char := Text.trim isSpace (text.map plainChar)

def splitSign : List Char → Bool × List Char
  | '-' :: cs => (true, cs)
  | '+' :: cs => (false, cs)
  | cs => (false, cs)

def digit? (base : Nat) (c : Char) : Option Nat :=
  let n :=
    if '0' ≤ c ∧ c ≤ '9' then c.toNat - 48
    else if 'a' ≤ c ∧ c ≤ 'z' then c.toNat - 87
    else if 'A' ≤ c ∧ c ≤ 'Z' then c.toNat - 55
    else base
  if n < base then some n else none

def ofDigits (base : Nat) (ds : List Char) : Nat :=
  ds.foldl (fun n c => n * base + (digit? base c).getD 0) 0

def baseLetter? : Nat → Option Char
  | 2 => some 'b'
  | 8 => some 'o'
  | 16 => some 'x'
  | _ => none

def withoutBase (base : Nat) : List Char → List Char
  | '0' :: c :: cs => if baseLetter? base = some c.toLower then cs else '0' :: c :: cs
  | cs => cs

inductive Fault where
  | malformed
  | digits (count : Nat)
deriving DecidableEq, Repr

def decimalLimit : Nat := 4300

def integer (base : Nat) (text : List Char) : Except Fault Int :=
  let (negative, signless) := splitSign (plain text)
  let body := withoutBase base signless
  let ds := body.takeWhile (fun c => (digit? base c).isSome)
  if ds = [] then .error .malformed
  else if base = 10 ∧ decimalLimit < ds.length then .error (.digits ds.length)
  else if ds.length < body.length then .error .malformed
  else .ok (if negative then -(ofDigits base ds : Int) else ofDigits base ds)

def exponent? : List Char → Option Int
  | [] => some 0
  | e :: cs =>
    let (negative, ds) := splitSign cs
    if (e = 'e' || e = 'E') && ds ≠ [] && ds.all Char.isDigit then
      some (if negative then -(ofDigits 10 ds : Int) else ofDigits 10 ds)
    else none

def number? (text : List Char) : Option Double :=
  let (negative, body) := splitSign (plain text)
  let word := String.ofList (body.map Char.toLower)
  if word = "inf" || word = "infinity" then some (Double.infinity negative)
  else if word = "nan" then some Double.nan
  else
    let whole := body.takeWhile Char.isDigit
    let (fraction, rest) := match body.dropWhile Char.isDigit with
      | '.' :: cs => (cs.takeWhile Char.isDigit, cs.dropWhile Char.isDigit)
      | cs => ([], cs)
    if whole = [] && fraction = [] then none
    else (exponent? rest).map fun e =>
      Double.ofDecimal negative (ofDigits 10 (whole ++ fraction)) (e - fraction.length)

end Wiring.Numeral
