import Wiring.Yaml.Resolve
import Wiring.Yaml.Token

/-! Nodes of YAML text, read from its tokens. An alias stands for a copy of the node that it
names; what is written as nothing is an empty node. -/
namespace Wiring.Yaml

inductive Node where
  | scalar (tag : Tag) (text : List Char)
  | sequence (tag : Tag) (items : List Node)
  | mapping (tag : Tag) (entries : List (Node × Node))
deriving Repr

namespace Node

def tag : Node → Tag
  | scalar t _ | sequence t _ | mapping t _ => t

def empty : Node := scalar .null []

end Node

def Token.isFault : Token → Bool
  | .fault _ => true
  | _ => false

def unexpected {α : Type} : List Token → Except Fault α
  | .fault f :: _ => .error f
  | _ => malformed

/-! Anchors. -/

/-- Names given so far, with their nodes once these are complete. -/
abbrev Anchors := List (List Char × Option Node)

namespace Anchors

def enter (as : Anchors) : Option (List Char) → Except Fault Anchors
  | none => .ok as
  | some name => if as.any (fun a => a.1 = name) then malformed else .ok ((name, none) :: as)

def complete (as : Anchors) (n : Node) : Option (List Char) → Anchors
  | none => as
  | some name => (name, some n) :: as

def node? (as : Anchors) (name : List Char) : Option Node := (as.lookup name).join

end Anchors

/-! Anchors and tags before a node. -/

abbrev Handles := List (List Char × List Char)

def defaultHandles : Handles := [(['!'], ['!']), (['!', '!'], coreStart)]

/-- What is written for the tag: nothing, a lone sign, or a name. -/
inductive Mark where
  | absent
  | lone
  | named (t : Tag)
deriving DecidableEq

structure Properties where
  anchor : Option (List Char) := none
  mark : Mark := .absent

namespace Properties

def isAbsent (p : Properties) : Bool := p.anchor.isNone && p.mark = .absent

def scalarTag (p : Properties) (text : List Char) (plain : Bool) : Tag :=
  match p.mark with
  | .absent => if plain then plainTag text else .str
  | .lone => plainTag text
  | .named t => t

def collectionTag (p : Properties) (default : Tag) : Tag :=
  match p.mark with
  | .absent | .lone => default
  | .named t => t

def markOf (hs : Handles) (handle : Option (List Char)) (suffix : List Char) : Except Fault Mark := do
  let name ← match handle with
    | none => pure suffix
    | some h => match hs.lookup h with
      | some start => pure (start ++ suffix)
      | none => malformed
  pure (if name = ['!'] then .lone else .named (Tag.ofName name))

def read (hs : Handles) (ts : List Token) :
    Except Fault (Properties × { rest : List Token // rest.length ≤ ts.length }) :=
  match ts with
  | .anchor name :: .tag h s :: rest =>
    (markOf hs h s).map fun m => (⟨some name, m⟩, ⟨rest, by simp only [List.length_cons]; omega⟩)
  | .anchor name :: rest => .ok (⟨some name, .absent⟩, ⟨rest, by simp⟩)
  | .tag h s :: .anchor name :: rest =>
    (markOf hs h s).map fun m => (⟨some name, m⟩, ⟨rest, by simp only [List.length_cons]; omega⟩)
  | .tag h s :: rest => (markOf hs h s).map fun m => (⟨none, m⟩, ⟨rest, by simp⟩)
  | ts => .ok ({}, ⟨ts, Nat.le_refl _⟩)

end Properties

/-! Nodes. -/

/-- Something read, the anchors after it, and the tokens after it, fewer than a bound. -/
structure Parsed (α : Type) (bound : Nat) where
  value : α
  anchors : Anchors
  rest : List Token
  isShorter : rest.length < bound

namespace Parsed
variable {α β : Type} {m n : Nat}

def map (f : α → β) (p : Parsed α n) : Parsed β n := { p with value := f p.value }

def widen (p : Parsed α m) (h : m ≤ n) : Parsed α n :=
  { p with isShorter := Nat.lt_of_lt_of_le p.isShorter h }

def named (anchor : Option (List Char)) (p : Parsed Node n) : Parsed Node n :=
  { p with anchors := p.anchors.complete p.value anchor }

end Parsed

def startsWithAny (stops ts : List Token) : Bool := ts.head?.any stops.contains

mutual
/-- Reads a node. After a key the items of a sequence may begin at the column of the key. -/
def node (hs : Handles) (indentless : Bool) (as : Anchors) (ts : List Token) :
    Except Fault (Parsed Node ts.length) :=
  match ts with
  | .alias name :: rest =>
    match as.node? name with
    | some n => .ok ⟨n, as, rest, Nat.lt_succ_self _⟩
    | none => malformed
  | ts => do
    let (p, ⟨rest, h⟩) ← Properties.read hs ts
    let sequence := Node.sequence (p.collectionTag .seq)
    let mapping := Node.mapping (p.collectionTag .map)
    match rest, h with
    | .scalar text plain :: after, h =>
      let as ← as.enter p.anchor
      return (Parsed.mk (.scalar (p.scalarTag text plain) text) as after h).named p.anchor
    | .flowSequence :: after, h =>
      let items ← flowItems hs (← as.enter p.anchor) after
      return ((items.map sequence).named p.anchor).widen (Nat.le_of_lt h)
    | .flowMapping :: after, h =>
      let pairs ← flowPairs hs (← as.enter p.anchor) after
      return ((pairs.map mapping).named p.anchor).widen (Nat.le_of_lt h)
    | .blockSequence :: after, h =>
      let items ← blockItems hs (← as.enter p.anchor) after
      return ((items.map sequence).named p.anchor).widen (Nat.le_of_lt h)
    | .blockMapping :: after, h =>
      let pairs ← blockPairs hs (← as.enter p.anchor) after
      return ((pairs.map mapping).named p.anchor).widen (Nat.le_of_lt h)
    | rest, h =>
      if indentless && rest.head? = some .blockEntry then
        let items ← indentlessItems hs (← as.enter p.anchor) rest
        return ((items.map sequence).named p.anchor).widen h
      else if hshort : rest.length < ts.length ∧ !p.isAbsent then
        if rest.head?.any Token.isFault then unexpected rest
        else
          let as ← as.enter p.anchor
          return (Parsed.mk (.scalar (p.scalarTag [] true) []) as rest hshort.1).named p.anchor
      else unexpected rest
termination_by 4 * ts.length + 1
decreasing_by all_goals grind

def part (hs : Handles) (indentless : Bool) (stops : List Token) (as : Anchors) (ts : List Token) :
    Except Fault (Parsed Node (ts.length + 1)) := do
  if startsWithAny stops ts then
    return ⟨.empty, as, ts, Nat.lt_succ_self _⟩
  else
    let n ← node hs indentless as ts
    return n.widen (Nat.le_succ _)
termination_by 4 * ts.length + 2

def valuePart (hs : Handles) (indentless : Bool) (stops : List Token) (as : Anchors)
    (ts : List Token) : Except Fault (Parsed Node (ts.length + 1)) :=
  match ts with
  | .value :: rest => do
    let v ← part hs indentless stops as rest
    return v.widen (Nat.le_succ _)
  | ts => .ok ⟨.empty, as, ts, Nat.lt_succ_self _⟩
termination_by 4 * ts.length + 3

def blockItems (hs : Handles) (as : Anchors) (ts : List Token) :
    Except Fault (Parsed (List Node) ts.length) :=
  match ts with
  | .blockEnd :: rest => .ok ⟨[], as, rest, Nat.lt_succ_self _⟩
  | .blockEntry :: rest => do
    let n ← part hs false [.blockEntry, .blockEnd] as rest
    have := n.isShorter
    let ns ← blockItems hs n.anchors n.rest
    return (ns.map (n.value :: ·)).widen (Nat.le_of_lt this)
  | ts => unexpected ts
termination_by 4 * ts.length

def indentlessItems (hs : Handles) (as : Anchors) (ts : List Token) :
    Except Fault (Parsed (List Node) ts.length) :=
  match ts with
  | .blockEntry :: rest => do
    let n ← part hs false [.blockEntry, .key, .value, .blockEnd] as rest
    have := n.isShorter
    if n.rest.head? = some .blockEntry then
      let ns ← indentlessItems hs n.anchors n.rest
      return (ns.map (n.value :: ·)).widen (Nat.le_of_lt this)
    else return n.map ([·])
  | ts => unexpected ts
termination_by 4 * ts.length

def blockPairs (hs : Handles) (as : Anchors) (ts : List Token) :
    Except Fault (Parsed (List (Node × Node)) ts.length) :=
  match ts with
  | .blockEnd :: rest => .ok ⟨[], as, rest, Nat.lt_succ_self _⟩
  | .key :: rest => do
    let k ← part hs true [.key, .value, .blockEnd] as rest
    have := k.isShorter
    let v ← valuePart hs true [.key, .value, .blockEnd] k.anchors k.rest
    have := v.isShorter
    let ps ← blockPairs hs v.anchors v.rest
    return (ps.map ((k.value, v.value) :: ·)).widen (by simp only [List.length_cons]; omega)
  | ts => unexpected ts
termination_by 4 * ts.length

/-- Reads the items of a sequence in brackets. A pair among them is a mapping of its own. -/
def flowItems (hs : Handles) (as : Anchors) (ts : List Token) :
    Except Fault (Parsed (List Node) ts.length) :=
  match ts with
  | .flowSequenceEnd :: rest => .ok ⟨[], as, rest, Nat.lt_succ_self _⟩
  | .key :: rest => do
    let k ← part hs false [.value, .flowEntry, .flowSequenceEnd] as rest
    have := k.isShorter
    let v ← valuePart hs false [.flowEntry, .flowSequenceEnd] k.anchors k.rest
    have := v.isShorter
    let ns ← moreFlowItems hs v.anchors v.rest
    return (ns.map (.mapping .map [(k.value, v.value)] :: ·)).widen
      (by simp only [List.length_cons]; omega)
  | ts => do
    let n ← node hs false as ts
    have := n.isShorter
    let ns ← moreFlowItems hs n.anchors n.rest
    return (ns.map (n.value :: ·)).widen (Nat.le_of_lt this)
termination_by 4 * ts.length + 2

def moreFlowItems (hs : Handles) (as : Anchors) (ts : List Token) :
    Except Fault (Parsed (List Node) ts.length) :=
  match ts with
  | .flowSequenceEnd :: rest => .ok ⟨[], as, rest, Nat.lt_succ_self _⟩
  | .flowEntry :: rest => do
    let ns ← flowItems hs as rest
    return ns.widen (Nat.le_succ _)
  | ts => unexpected ts
termination_by 4 * ts.length

def flowPairs (hs : Handles) (as : Anchors) (ts : List Token) :
    Except Fault (Parsed (List (Node × Node)) ts.length) :=
  match ts with
  | .flowMappingEnd :: rest => .ok ⟨[], as, rest, Nat.lt_succ_self _⟩
  | .key :: rest => do
    let k ← part hs false [.value, .flowEntry, .flowMappingEnd] as rest
    have := k.isShorter
    let v ← valuePart hs false [.flowEntry, .flowMappingEnd] k.anchors k.rest
    have := v.isShorter
    let ps ← moreFlowPairs hs v.anchors v.rest
    return (ps.map ((k.value, v.value) :: ·)).widen (by simp only [List.length_cons]; omega)
  | ts => do
    let n ← node hs false as ts
    have := n.isShorter
    let ps ← moreFlowPairs hs n.anchors n.rest
    return (ps.map ((n.value, .empty) :: ·)).widen (Nat.le_of_lt this)
termination_by 4 * ts.length + 2

def moreFlowPairs (hs : Handles) (as : Anchors) (ts : List Token) :
    Except Fault (Parsed (List (Node × Node)) ts.length) :=
  match ts with
  | .flowMappingEnd :: rest => .ok ⟨[], as, rest, Nat.lt_succ_self _⟩
  | .flowEntry :: rest => do
    let ps ← flowPairs hs as rest
    return ps.widen (Nat.le_succ _)
  | ts => unexpected ts
termination_by 4 * ts.length
end

/-! Documents. -/

/-- The directives before a document: at most one version, which has to be 1, and handles, each
given once. -/
def directives (hs : Handles) (versioned : Bool) : List Token → Except Fault (Handles × List Token)
  | .version major :: rest =>
    if versioned || major ≠ 1 then malformed else directives hs true rest
  | .tagHandle handle start :: rest =>
    if hs.any (fun h => h.1 = handle) then malformed else directives ((handle, start) :: hs) versioned rest
  | .otherDirective :: rest => directives hs versioned rest
  | ts => .ok (hs, ts)

def isDocumentEdge : Token → Bool
  | .version _ | .tagHandle .. | .otherDirective | .documentStart | .documentEnd | .streamEnd => true
  | _ => false

def atEnd (ts : List Token) : Except Fault Unit := do
  match ts.dropWhile (· = .documentEnd) with
  | [.streamEnd] => pure ()
  | ts =>
    let (_, rest) ← directives [] false ts
    unexpected rest

def rootNode (hs : Handles) (ts : List Token) : Except Fault Node := do
  let n ← node hs false [] ts
  atEnd n.rest
  pure n.value

def document (ts : List Token) : Except Fault (Option Node) := do
  match ts with
  | [.streamEnd] => pure none
  | t :: _ =>
    if isDocumentEdge t && t ≠ .documentEnd then
      match ← directives [] false ts with
      | (hs, .documentStart :: rest) =>
        if rest.head?.any isDocumentEdge then
          atEnd rest
          pure (some .empty)
        else some <$> rootNode (hs ++ defaultHandles) rest
      | (_, rest) => unexpected rest
    else some <$> rootNode defaultHandles ts
  | [] => malformed

end Wiring.Yaml
