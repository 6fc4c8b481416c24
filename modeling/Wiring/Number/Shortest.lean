import Wiring.Number.Double

/-! The shortest decimal that reads back as a given double, and the text it is written with. -/
namespace Wiring.Shortest

def floorLog10 (num den : Nat) : Int :=
  let guess : Int := ((Nat.log2 num : Int) - Nat.log2 den) * 30103 / 100000
  let fits (k : Int) : Bool := den * Nat.pow 10 k.toNat ≤ num * Nat.pow 10 (-k).toNat
  if fits (guess + 1) then guess + 1 else if fits guess then guess else guess - 1

/-- The quotients between which every decimal reads as the double `m * 2 ^ q`, with numerators
over one denominator: lower end, value, upper end. Below a power of two the gap is half as wide. -/
structure Interval where
  low : Nat
  value : Nat
  high : Nat
  den : Nat
  closed : Bool

def interval (x : Double) : Interval :=
  let m := x.mantissa
  let scale := Nat.pow 2 x.exponent.toNat
  let narrow : Bool := m = Nat.pow 2 52 && 1 < x.exponentField
  { low := (4 * m - if narrow then 1 else 2) * scale
    value := 4 * m * scale
    high := (4 * m + 2) * scale
    den := 4 * Nat.pow 2 (-x.exponent).toNat
    closed := m % 2 = 0 }

def Interval.contains (i : Interval) (n : Nat) (p : Int) : Bool :=
  let a := n * Nat.pow 10 p.toNat * i.den
  let s := Nat.pow 10 (-p).toNat
  if i.closed then i.low * s ≤ a && a ≤ i.high * s else i.low * s < a && a < i.high * s

/-- On the grid of multiples of `10 ^ p`, the neighbour of the value that lies in the interval
and is nearer; of two equally near ones the even one. -/
def Interval.nearest? (i : Interval) (p : Int) : Option Nat :=
  let num := i.value * Nat.pow 10 (-p).toNat
  let den := i.den * Nat.pow 10 p.toNat
  let below := num / den
  let rest := 2 * (num % den)
  let first := if rest < den then below else if den < rest then below + 1 else below + below % 2
  let second := if first = below then below + 1 else below
  if i.contains first p then some first
  else if i.contains second p then some second
  else none

def decimal (x : Double) : Nat × Int :=
  let i := interval x
  let k := floorLog10 i.value i.den
  let found := (List.range 17).findSome? (fun (d : Nat) =>
    let p := k - (d : Int)
    (i.nearest? p).map (·, p))
  found.getD (0, 0)

/-- How a decimal is laid out. The exponent meant is that of the first digit. -/
structure Layout where
  leastPositional : Int
  greatestPositional : Int
  wholeTail : String
  mark : String
  leastExponentDigits : Nat
  notANumber : String
  infinite : String

def digitsText (n : Nat) : String := String.ofList (Nat.toDigits 10 n)

def padLeft (width : Nat) (s : String) : String :=
  String.ofList (List.replicate (width - s.length) '0') ++ s

def dropZeros (n : Nat) : List Char :=
  ((Nat.toDigits 10 n).reverse.dropWhile (· = '0')).reverse

def Layout.write (l : Layout) (x : Double) : String :=
  let sign := if x.isNegative then "-" else ""
  if x.isNaN then l.notANumber
  else if !x.isFinite then sign ++ l.infinite
  else if x.isZero then sign ++ "0" ++ l.wholeTail
  else
    let (n, p) := decimal x
    let ds := dropZeros n
    let e : Int := p + (Nat.toDigits 10 n).length - 1
    if l.leastPositional ≤ e ∧ e ≤ l.greatestPositional then
      if e < 0 then sign ++ "0." ++ String.ofList (List.replicate (-e - 1).toNat '0' ++ ds)
      else
        let whole := ds.take (e.toNat + 1)
        let zeros := List.replicate (e.toNat + 1 - ds.length) '0'
        let tail := ds.drop (e.toNat + 1)
        sign ++ String.ofList (whole ++ zeros) ++
          (if tail = [] then l.wholeTail else "." ++ String.ofList tail)
    else
      let first := String.ofList (ds.take 1)
      let tail := ds.drop 1
      sign ++ first ++ (if tail = [] then "" else "." ++ String.ofList tail) ++ l.mark ++
        (if e < 0 then "-" else "+") ++ padLeft l.leastExponentDigits (digitsText e.natAbs)

end Wiring.Shortest

namespace Wiring

/-- Positional from `1e-4` up to below `1e16`, always with a point; else at least two digits of
exponent with their sign. -/
def Double.layout : Shortest.Layout where
  leastPositional := -4
  greatestPositional := 15
  wholeTail := ".0"
  mark := "e"
  leastExponentDigits := 2
  notANumber := "nan"
  infinite := "inf"

def Double.text (x : Double) : String := Double.layout.write x

end Wiring
