import Wiring.Reading.Files
import Wiring.Yaml.Node
import Wiring.Yaml.ScalarValue

/-! The value of a YAML document. Collections are filled level by level, so that of several
faults the one nearest to the root counts, and of equally near ones the first. -/
namespace Wiring.Yaml

/-- What a node stands for, or its fault and how many levels below it that is. -/
abbrev Built (α : Type) := Except (Nat × Fault) α

namespace Built
variable {α β γ : Type}

def fault (f : Fault) : Built α := .error (0, f)

def both (f : α → β → γ) : Built α → Built β → Built γ
  | .ok a, .ok b => .ok (f a b)
  | .ok _, .error e => .error e
  | .error e, .ok _ => .error e
  | .error e, .error e' => .error (if e.1 ≤ e'.1 then e else e')

def deeper : Built α → Built α
  | .ok a => .ok a
  | .error (n, f) => .error (n + 1, f)

def all : List (Built α) → Built (List α)
  | [] => .ok []
  | b :: bs => both (· :: ·) b (all bs)

end Built

/-- The text of a scalar. A mapping with a default value has the text of that value. -/
def Node.text? : Node → Option (List Char)
  | .scalar _ s => some s
  | .sequence .. => none
  | .mapping _ es => defaultText? es
where
  defaultText? : List (Node × Node) → Option (List Char)
    | [] => none
    | (k, v) :: es => if k.tag = .value then v.text? else defaultText? es

def Tag.isCollection : Tag → Bool
  | .seq | .map | .set | .omap | .pairs => true
  | _ => false

def Node.isMapping : Node → Bool
  | .mapping .. => true
  | _ => false

/-- The scalar that a node stands for under a tag that is no collection's. A timestamp is matched
with what the node itself holds, and the entries of a mapping match nothing. -/
def Node.scalarAs (tag : Tag) (n : Node) : Built Scalar :=
  match n.text? with
  | none => .fault .malformed
  | some text =>
    if tag = .timestamp && n.isMapping then .fault (.scalar .timestampEntries)
    else match scalarValue tag text with
      | .ok s => .ok s
      | .error f => .fault f

/-- The key that a node is. The sign of a default value is plain text as a key. -/
def Node.key (n : Node) : Built Scalar :=
  let tag := if n.tag = .value then .str else n.tag
  if tag.isCollection then .fault .malformed else n.scalarAs tag

/-- Later values of equal keys count, at the place of the first. -/
def ofEntries (entries : List (Scalar × Value)) : List (Scalar × Value) :=
  entries.foldl (fun es e => Value.put es e.1 e.2) []

def filled : Option (List (Built (Scalar × Value)) × List (Built (Scalar × Value))) →
    Built (List (Scalar × Value))
  | some (merged, own) => Built.all (merged ++ own)
  | none => .fault .malformed

namespace Node

mutual
def value : Node → Built Value
  | .scalar tag s =>
    if tag.isCollection then .deeper (.fault .malformed) else .scalar <$> (Node.scalar tag s).scalarAs tag
  | .sequence tag ns =>
    match tag with
    | .seq => .list <$> Built.deeper (values ns)
    | .omap | .pairs => .list <$> Built.deeper (pairValues ns)
    | .map | .set => .deeper (.fault .malformed)
    | _ => .fault .malformed
  | .mapping tag es =>
    match tag with
    | .map => (.map ∘ ofEntries) <$> Built.deeper (filled (merge es))
    | .set => (.set ∘ List.map Prod.fst ∘ ofEntries) <$> Built.deeper (filled (merge es))
    | .seq | .omap | .pairs => .deeper (.fault .malformed)
    | tag => .scalar <$> (Node.mapping tag es).scalarAs tag

def values : List Node → Built (List Value)
  | [] => .ok []
  | n :: ns => Built.both (· :: ·) (value n) (values ns)

def pairValues : List Node → Built (List Value)
  | [] => .ok []
  | .mapping _ [(k, v)] :: ns =>
    Built.both (· :: ·) (Built.both (fun k v => .list [k, v]) (value k) (value v)) (pairValues ns)
  | _ :: _ => .fault .malformed

def merge : List (Node × Node) →
    Option (List (Built (Scalar × Value)) × List (Built (Scalar × Value)))
  | [] => some ([], [])
  | (k, v) :: es =>
    if k.tag = .merge then
      match taken v, merge es with
      | some entries, some (merged, own) => some (entries ++ merged, own)
      | _, _ => none
    else
      (merge es).map fun m => (m.1, Built.both Prod.mk k.key (value v) :: m.2)

/-- The entries that a node gives to a mapping which takes it over. Only mappings and sequences of
mappings can be taken over; of the latter the first mapping counts most and so comes last. -/
def taken : Node → Option (List (Built (Scalar × Value)))
  | .mapping _ es => (merge es).map fun m => m.1 ++ m.2
  | .sequence _ ns => (takenMappings ns).map fun ms => ms.reverse.flatten
  | .scalar .. => none

def takenMappings : List Node → Option (List (List (Built (Scalar × Value))))
  | [] => some []
  | .mapping _ es :: ns =>
    match merge es, takenMappings ns with
    | some m, some ms => some ((m.1 ++ m.2) :: ms)
    | _, _ => none
  | _ :: _ => none
end

end Node

def parse (text : List Char) : Except Fault (Option Value) :=
  match document (tokens text) with
  | .error f => .error f
  | .ok none => .ok none
  | .ok (some n) =>
    match n.value with
    | .ok v => .ok (some v)
    | .error (_, f) => .error f

/-- A loader to run with. What is proved of reading files holds of every other one as well. -/
def load : YamlLoader := fun bytes =>
  match Utf8.decode bytes with
  | .error _ => .error .undecodable
  | .ok s =>
    match parse (unifyBreaks s.toList) with
    | .ok v => .ok v
    | .error .malformed => .error .malformed
    | .error (.scalar f) => .error (.other f.kind f.text)

end Wiring.Yaml
