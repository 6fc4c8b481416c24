/-! Binary floating point numbers of 64 bits, as the whole numbers that their bits stand for. -/
namespace Wiring

/-- A double is its bits: sign, eleven bits of exponent, fifty-two of fraction. -/
structure Double where
  bits : UInt64
deriving DecidableEq, Repr

namespace Double

def isNegative (x : Double) : Bool := x.bits.toNat / Nat.pow 2 63 = 1
def exponentField (x : Double) : Nat := x.bits.toNat / Nat.pow 2 52 % Nat.pow 2 11
def fractionField (x : Double) : Nat := x.bits.toNat % Nat.pow 2 52

def isFinite (x : Double) : Bool := x.exponentField ≠ 2047
def isNaN (x : Double) : Bool := x.exponentField = 2047 ∧ x.fractionField ≠ 0

/-- The magnitude of a finite double is `mantissa * 2 ^ exponent`. -/
def mantissa (x : Double) : Nat :=
  if x.exponentField = 0 then x.fractionField else Nat.pow 2 52 + x.fractionField

def exponent (x : Double) : Int :=
  (if x.exponentField = 0 then 1 else x.exponentField : Nat) - 1075

def isZero (x : Double) : Bool := x.exponentField = 0 ∧ x.fractionField = 0

def magnitude (x : Double) : Nat × Nat :=
  (x.mantissa * Nat.pow 2 x.exponent.toNat, Nat.pow 2 (-x.exponent).toNat)

def ofMagnitude (negative : Bool) (n : Nat) : Double :=
  ⟨UInt64.ofNat ((if negative then Nat.pow 2 63 else 0) + n)⟩

def zero (negative : Bool) : Double := ofMagnitude negative 0
def infinity (negative : Bool) : Double := ofMagnitude negative (2047 * Nat.pow 2 52)
def nan : Double := ofMagnitude false (2047 * Nat.pow 2 52 + Nat.pow 2 51)

def roundHalfEven (num den : Nat) : Nat :=
  let q := num / den
  let r := num % den
  if 2 * r < den then q
  else if den < 2 * r then q + 1
  else q + q % 2

/-- The greatest `e` with `2 ^ e ≤ num / den`, for a positive quotient. -/
def floorLog2 (num den : Nat) : Int :=
  let e : Int := (Nat.log2 num : Int) - Nat.log2 den
  if den * Nat.pow 2 e.toNat ≤ num * Nat.pow 2 (-e).toNat then e else e - 1

def ofQuotient (negative : Bool) (num den : Nat) : Double :=
  if num = 0 then zero negative
  else
    let q := max (floorLog2 num den - 52) (-1074)
    let m := roundHalfEven (num * Nat.pow 2 (-q).toNat) (den * Nat.pow 2 q.toNat)
    let n := (q + 1074).toNat * Nat.pow 2 52 + m
    if 2047 * Nat.pow 2 52 ≤ n then infinity negative else ofMagnitude negative n

/-- The double nearest to `digits * 10 ^ exponent`. Exponents far outside the range of doubles
are answered without computing the power. -/
def ofDecimal (negative : Bool) (digits : Nat) (exponent : Int) : Double :=
  let size := (Nat.toDigits 10 digits).length + exponent
  if digits = 0 ∨ size < -330 then zero negative
  else if 330 < size then infinity negative
  else ofQuotient negative (digits * Nat.pow 10 exponent.toNat) (Nat.pow 10 (-exponent).toNat)

def ofInt (n : Int) : Double := ofQuotient (n < 0) n.natAbs 1

def toInt? (x : Double) : Option Int :=
  if x.isFinite then
    let (num, den) := x.magnitude
    if num % den = 0 then some (if x.isNegative then -(num / den : Nat) else (num / den : Nat)) else none
  else none

def neg (x : Double) : Double := ⟨x.bits ^^^ (0x8000000000000000 : UInt64)⟩
def toFloat (x : Double) : Float := Float.ofBits x.bits
def ofFloat (x : Float) : Double := if x.isNaN then nan else ⟨x.toBits⟩
def add (x y : Double) : Double := ofFloat (x.toFloat + y.toFloat)
def mul (x y : Double) : Double := ofFloat (x.toFloat * y.toFloat)

/-- Equal as numbers: no NaN equals anything, and the two zeros are equal. -/
def sameNumber (x y : Double) : Bool :=
  !x.isNaN && !y.isNaN && (x.bits = y.bits || (x.isZero && y.isZero))

end Double
end Wiring
