/-! UTF-8: the text that bytes stand for, and what is wrong with bytes that stand for none. -/
namespace Wiring.Utf8

inductive Fault where
  | start | continuation | endOfData
deriving DecidableEq, Repr

/-- What is wrong, and the bytes it is wrong with: from `first` up to but not including `past`. -/
structure Malformed where
  fault : Fault
  first : Nat
  past : Nat
  lead : UInt8
deriving DecidableEq, Repr

def isContinuation (b : UInt8) : Bool := 0x80 ≤ b && b ≤ 0xBF

/-- Whether `b` may follow the lead byte: overlong forms, surrogates and code points beyond the
last one are excluded by their second byte. -/
def isSecond (lead b : UInt8) : Bool :=
  isContinuation b &&
    !(lead = 0xE0 && b < 0xA0) && !(lead = 0xED && 0xA0 ≤ b) &&
    !(lead = 0xF0 && b < 0x90) && !(lead = 0xF4 && 0x90 ≤ b)

def announced (lead : UInt8) : Nat :=
  if lead < 0x80 then 1
  else if lead < 0xC2 then 0
  else if lead < 0xE0 then 2
  else if lead < 0xF0 then 3
  else if lead < 0xF5 then 4
  else 0

def leadBits (lead : UInt8) : Nat :=
  if lead < 0x80 then lead.toNat
  else if lead < 0xE0 then lead.toNat - 0xC0
  else if lead < 0xF0 then lead.toNat - 0xE0
  else lead.toNat - 0xF0

def followers (lead : UInt8) (room : Nat) (bs : List UInt8) : List UInt8 :=
  match room, bs with
  | n + 1, b :: rest => if isSecond lead b then b :: (rest.take n).takeWhile isContinuation else []
  | _, _ => []

def decodeFrom (position : Nat) : List UInt8 → Except Malformed (List Char)
  | [] => .ok []
  | lead :: rest =>
    let n := announced lead
    if n = 0 then .error ⟨.start, position, position + 1, lead⟩
    else
      let tail := followers lead (n - 1) rest
      if tail.length + 1 = n then
        let code := tail.foldl (fun k b => k * 64 + (b.toNat - 0x80)) (leadBits lead)
        match decodeFrom (position + n) (rest.drop tail.length) with
        | .error e => .error e
        | .ok cs => .ok (Char.ofNat code :: cs)
      else if tail.length = rest.length then
        .error ⟨.endOfData, position, position + 1 + tail.length, lead⟩
      else .error ⟨.continuation, position, position + 1 + tail.length, lead⟩
termination_by bs => bs.length
decreasing_by simp only [List.length_drop, List.length_cons]; omega

def decode (bs : List UInt8) : Except Malformed String :=
  (decodeFrom 0 bs).map String.ofList

def encode (s : String) : List UInt8 := s.toUTF8.toList

end Wiring.Utf8
