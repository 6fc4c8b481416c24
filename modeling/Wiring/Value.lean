import Wiring.Calendar

/-! The values that documents hold, and when two of them count as the same. -/
namespace Wiring

inductive Scalar where
  | null
  | bool (b : Bool)
  | int (n : Int)
  | float (x : Double)
  | text (s : String)
  | bytes (bs : List UInt8)
  | date (d : Date)
  | moment (t : Moment)
deriving DecidableEq, Repr

/-- Text for a collection of tagged services starts with this, and the tag follows. -/
def tagMarker : String := "!tagged "

/-- A mapping keeps its entries in written order; keys and members of sets are scalars. -/
inductive Value where
  | scalar (s : Scalar)
  | list (items : List Value)
  | map (entries : List (Scalar × Value))
  | set (members : List Scalar)
deriving Repr

namespace Scalar

/-- The quotient with a positive denominator that a number is; true is one and false is zero. -/
def number? : Scalar → Option (Int × Nat)
  | .bool b => some (if b then 1 else 0, 1)
  | .int n => some (n, 1)
  | .float x =>
    if x.isFinite then
      let (num, den) := x.magnitude
      some (if x.isNegative then -(num : Int) else num, den)
    else none
  | _ => none

/-- Equality of keys: numbers by value whatever their kind, moments as moments. -/
def same : Scalar → Scalar → Bool
  | .null, .null => true
  | .text s, .text t => s = t
  | .bytes a, .bytes b => a = b
  | .date d, .date e => d = e
  | .moment t, .moment u => t.same u
  | .float x, .float y => x.sameNumber y
  | s, t =>
    match s.number?, t.number? with
    | some (a, b), some (c, d) => a * d = c * b
    | _, _ => false

def isNaN : Scalar → Bool
  | .float x => x.isNaN
  | _ => false

/-- Keys that cannot stand beside each other in a mapping. NaN is one key, though no number. -/
def sameKey (s t : Scalar) : Bool := s.same t || (s.isNaN && t.isNaN)

end Scalar

namespace Value

@[match_pattern] abbrev null : Value := .scalar .null
@[match_pattern] abbrev bool (b : Bool) : Value := .scalar (.bool b)
@[match_pattern] abbrev int (n : Int) : Value := .scalar (.int n)
@[match_pattern] abbrev float (x : Double) : Value := .scalar (.float x)
@[match_pattern] abbrev text (s : String) : Value := .scalar (.text s)

instance : Inhabited Value := ⟨.null⟩

mutual
/-- Equality of values: lists by position, mappings and sets whatever their order. -/
def same : Value → Value → Bool
  | .scalar s, .scalar t => s.same t
  | .list xs, .list ys => sameItems xs ys
  | .map es, .map fs => es.length = fs.length && sameEntries es fs
  | .set ms, .set ns => ms.length = ns.length && ms.all (fun m => ns.any m.same)
  | _, _ => false
def sameItems : List Value → List Value → Bool
  | [], [] => true
  | x :: xs, y :: ys => x.same y && sameItems xs ys
  | _, _ => false
def sameEntries : List (Scalar × Value) → List (Scalar × Value) → Bool
  | [], _ => true
  | (k, v) :: es, fs =>
    (match fs.find? (fun f => k.same f.1) with
      | some f => v.same f.2
      | none => false) && sameEntries es fs
end

def entry? (key : String) (entries : List (Scalar × Value)) : Option Value :=
  (entries.find? (fun e => e.1 = .text key)).map (·.2)

/-- Puts an entry into a mapping: an equal key keeps its place and takes the new value. -/
def put (entries : List (Scalar × Value)) (key : Scalar) (v : Value) : List (Scalar × Value) :=
  match entries with
  | [] => [(key, v)]
  | e :: es => if e.1.sameKey key then (e.1, v) :: es else e :: put es key v

end Value
end Wiring
