import Wiring.Value

/-! Reading JSON text. Besides the standard, `NaN` and the two infinities are numbers; a key that
comes again keeps its place and takes the later value. -/
namespace Wiring.Json

inductive Reason where
  | value
  | propertyName
  | colon
  | comma
  | extraData
  | unterminatedString
  | controlCharacter
  | escape
  | unicodeEscape
  | byteOrderMark
deriving DecidableEq, Repr

/-- What is wrong with a text: a reason at an offset, or an integer with too many digits. -/
inductive Fault where
  | at (reason : Reason) (offset : Nat)
  | digits (count : Nat)
deriving DecidableEq, Repr

def Reason.text : Reason → String
  | .value => "Expecting value"
  | .propertyName => "Expecting property name enclosed in double quotes"
  | .colon => "Expecting ':' delimiter"
  | .comma => "Expecting ',' delimiter"
  | .extraData => "Extra data"
  | .unterminatedString => "Unterminated string starting at"
  | .controlCharacter => "Invalid control character at"
  | .escape => "Invalid \\escape"
  | .unicodeEscape => "Invalid \\uXXXX escape"
  | .byteOrderMark => "Unexpected UTF-8 BOM (decode using utf-8-sig)"

/-- What is left to read, and how many characters were read before it. -/
structure Cursor where
  rest : List Char
  offset : Nat

abbrev Cursor.Below (bound : Nat) := { c : Cursor // c.rest.length < bound }

def isBlank (c : Char) : Bool := c = ' ' || c = '\t' || c = '\n' || c = '\r'

theorem length_dropWhile_le (p : Char → Bool) (cs : List Char) :
    (cs.dropWhile p).length ≤ cs.length := (List.dropWhile_sublist p).length_le

def Cursor.skipBlanks (c : Cursor) : Cursor :=
  let rest := c.rest.dropWhile isBlank
  ⟨rest, c.offset + (c.rest.length - rest.length)⟩

theorem Cursor.skipBlanks_le (c : Cursor) : c.skipBlanks.rest.length ≤ c.rest.length :=
  length_dropWhile_le ..

def hexDigit? (c : Char) : Option Nat :=
  if '0' ≤ c ∧ c ≤ '9' then some (c.toNat - 48)
  else if 'a' ≤ c ∧ c ≤ 'f' then some (c.toNat - 87)
  else if 'A' ≤ c ∧ c ≤ 'F' then some (c.toNat - 55)
  else none

def hexNumber? (cs : List Char) : Option Nat :=
  cs.foldl (fun n c => n.bind fun n => (hexDigit? c).map (n * 16 + ·)) (some 0)

def escaped? : Char → Option Char
  | '"' => some '"'
  | '\\' => some '\\'
  | '/' => some '/'
  | 'b' => some '\x08'
  | 'f' => some '\x0c'
  | 'n' => some '\n'
  | 'r' => some '\r'
  | 't' => some '\t'
  | _ => none

def isHighSurrogate (n : Nat) : Bool := 0xD800 ≤ n && n ≤ 0xDBFF
def isLowSurrogate (n : Nat) : Bool := 0xDC00 ≤ n && n ≤ 0xDFFF

def ofCode (n : Nat) : Char := if isHighSurrogate n || isLowSurrogate n then '\uFFFD' else Char.ofNat n

/-- The code point that follows the `u` of an escape, with the second half of a pair if it is
there, and how many characters it takes. Some character has to come after it. -/
def unicodeEscape? (cs : List Char) (offset : Nat) : Except Fault (Char × Nat) :=
  match (if cs.length ≤ 4 then none else hexNumber? (cs.take 4)) with
  | none => .error (.at .unicodeEscape (offset - 1))
  | some high =>
    let next := cs.drop 4
    if isHighSurrogate high && next.take 2 = ['\\', 'u'] && 6 < next.length then
      match hexNumber? ((next.drop 2).take 4) with
      | none => .error (.at .unicodeEscape (offset + 5))
      | some low =>
        if isLowSurrogate low then
          .ok (Char.ofNat (0x10000 + (high - 0xD800) * 0x400 + (low - 0xDC00)), 10)
        else .ok (ofCode high, 4)
    else .ok (ofCode high, 4)

def stringBody (start : Nat) (cs : List Char) (offset : Nat) (read : List Char) :
    Except Fault (String × Cursor) :=
  match cs with
  | [] => .error (.at .unterminatedString start)
  | '"' :: rest => .ok (String.ofList read.reverse, ⟨rest, offset + 1⟩)
  | '\\' :: [] => .error (.at .unterminatedString start)
  | '\\' :: 'u' :: rest =>
    match unicodeEscape? rest (offset + 2) with
    | .error e => .error e
    | .ok (c, n) => stringBody start (rest.drop n) (offset + 2 + n) (c :: read)
  | '\\' :: c :: rest =>
    match escaped? c with
    | none => .error (.at .escape offset)
    | some c => stringBody start rest (offset + 2) (c :: read)
  | c :: rest =>
    if c.toNat < 0x20 then .error (.at .controlCharacter offset)
    else stringBody start rest (offset + 1) (c :: read)
termination_by cs.length
decreasing_by
  all_goals simp only [List.length_cons, List.length_drop]; omega

theorem length_lt_of_stringBody {start : Nat} {cs : List Char} {offset : Nat} {read : List Char}
    {s : String} {c : Cursor} (h : stringBody start cs offset read = .ok (s, c)) :
    c.rest.length < cs.length := by
  fun_induction stringBody start cs offset read with
  | case2 =>
    cases h
    exact Nat.lt_succ_self _
  | case5 _ _ _ _ _ _ ih =>
    have hrest := ih h
    simp only [List.length_drop, List.length_cons] at hrest ⊢
    omega
  | case7 _ _ _ _ _ _ _ ih =>
    have hrest := ih h
    simp only [List.length_cons]
    omega
  | case9 _ _ _ _ _ _ _ _ _ ih => exact Nat.lt_succ_of_lt (ih h)
  | _ => cases h

def decimalValue (cs : List Char) : Nat := cs.foldl (fun n c => n * 10 + (c.toNat - 48)) 0

/-- The longest number that a text starts with, as its digits: sign, whole part, fraction and
exponent, and what follows it. -/
structure Numeral where
  negative : Bool
  whole : List Char
  fraction : Option (List Char)
  exponent : Option Int
  rest : List Char

def exponentOf (cs : List Char) : Option (Int × List Char) :=
  let (negative, digits) := match cs with
    | '-' :: ds => (true, ds)
    | '+' :: ds => (false, ds)
    | ds => (false, ds)
  let read := digits.takeWhile Char.isDigit
  if read = [] then none
  else
    some (if negative then -(decimalValue read : Int) else decimalValue read,
      digits.dropWhile Char.isDigit)

def numeral? (cs : List Char) : Option Numeral :=
  let (negative, digits) := match cs with
    | '-' :: ds => (true, ds)
    | ds => (false, ds)
  let whole := match digits with
    | '0' :: _ => ['0']
    | ds => ds.takeWhile Char.isDigit
  if whole = [] then none
  else
    let afterWhole := digits.drop whole.length
    let (fraction, afterFraction) := match afterWhole with
      | '.' :: ds =>
        let read := ds.takeWhile Char.isDigit
        if read = [] then (none, afterWhole) else (some read, ds.dropWhile Char.isDigit)
      | _ => (none, afterWhole)
    let (exponent, rest) := match afterFraction with
      | 'e' :: ds | 'E' :: ds =>
        match exponentOf ds with
        | some (n, rest) => (some n, rest)
        | none => (none, afterFraction)
      | _ => (none, afterFraction)
    some ⟨negative, whole, fraction, exponent, rest⟩

/-- An integer unless it has a fraction or an exponent. -/
def Numeral.value (n : Numeral) (limit : Option Nat) : Except Fault Value :=
  match n.fraction, n.exponent with
  | none, none =>
    if limit.any (· < n.whole.length) then .error (.digits n.whole.length)
    else
      let k := decimalValue n.whole
      .ok (.int (if n.negative then -(k : Int) else k))
  | fraction, exponent =>
    let digits := fraction.getD []
    .ok (.float (Double.ofDecimal n.negative (decimalValue (n.whole ++ digits))
      (exponent.getD 0 - digits.length)))

def words : List (String × Value) :=
  [("null", .null), ("true", .bool true), ("false", .bool false), ("NaN", .float Double.nan),
   ("Infinity", .float (Double.infinity false)), ("-Infinity", .float (Double.infinity true))]

def word? (cs : List Char) : Option (Nat × Value) :=
  (words.find? (fun w => w.1.toList.isPrefixOf cs)).map (fun w => (w.1.length, w.2))

mutual
def value (limit : Option Nat) (c : Cursor) : Except Fault (Value × Cursor.Below c.rest.length) :=
  match hc : c.rest with
  | [] => .error (.at .value c.offset)
  | '"' :: cs =>
    match hs : stringBody c.offset cs (c.offset + 1) [] with
    | .error e => .error e
    | .ok (s, r) => .ok (.text s, ⟨r, Nat.lt_succ_of_lt (length_lt_of_stringBody hs)⟩)
  | '{' :: cs =>
    let inner := (Cursor.mk cs (c.offset + 1)).skipBlanks
    have hi : inner.rest.length ≤ cs.length := Cursor.skipBlanks_le _
    match hr : inner.rest with
    | '}' :: rest => .ok (.map [], ⟨⟨rest, inner.offset + 1⟩, by
        simp only [hr, List.length_cons] at hi ⊢; show rest.length < _; omega⟩)
    | _ =>
      match members limit inner [] with
      | .error e => .error e
      | .ok (es, r) => .ok (.map es, ⟨r.1, by have := r.2; simp only [List.length_cons]; omega⟩)
  | '[' :: cs =>
    let inner := (Cursor.mk cs (c.offset + 1)).skipBlanks
    have hi : inner.rest.length ≤ cs.length := Cursor.skipBlanks_le _
    match hr : inner.rest with
    | ']' :: rest => .ok (.list [], ⟨⟨rest, inner.offset + 1⟩, by
        simp only [hr, List.length_cons] at hi ⊢; show rest.length < _; omega⟩)
    | _ =>
      match items limit inner [] with
      | .error e => .error e
      | .ok (vs, r) => .ok (.list vs, ⟨r.1, by have := r.2; simp only [List.length_cons]; omega⟩)
  | d :: cs =>
    match word? (d :: cs) with
    | some (n, v) => .ok (v, ⟨⟨cs.drop (n - 1), c.offset + n⟩, by
        show (cs.drop (n - 1)).length < _; simp only [List.length_drop, List.length_cons]; omega⟩)
    | none =>
      match numeral? (d :: cs) with
      | none => .error (.at .value c.offset)
      | some n =>
        match n.value limit with
        | .error e => .error e
        | .ok v =>
          let rest := cs.drop (cs.length - n.rest.length)
          .ok (v, ⟨⟨rest, c.offset + (cs.length + 1 - rest.length)⟩, by
            show rest.length < _; simp only [rest, List.length_drop, List.length_cons]; omega⟩)
termination_by (c.rest.length, 0)
decreasing_by
  all_goals exact Prod.Lex.left _ _ (by rw [hc, List.length_cons]; exact Nat.lt_succ_of_le hi)

def items (limit : Option Nat) (c : Cursor) (read : List Value) :
    Except Fault (List Value × Cursor.Below c.rest.length) :=
  match value limit c with
  | .error e => .error e
  | .ok (v, r) =>
    let next := r.1.skipBlanks
    have hn : next.rest.length < c.rest.length := Nat.lt_of_le_of_lt (Cursor.skipBlanks_le _) r.2
    match hr : next.rest with
    | ']' :: rest => .ok ((v :: read).reverse, ⟨⟨rest, next.offset + 1⟩, by
        simp only [hr, List.length_cons] at hn; show rest.length < _; omega⟩)
    | ',' :: rest =>
      let following := (Cursor.mk rest (next.offset + 1)).skipBlanks
      have hf : following.rest.length < c.rest.length := by
        have : following.rest.length ≤ rest.length := Cursor.skipBlanks_le _
        simp only [hr, List.length_cons] at hn; omega
      match items limit following (v :: read) with
      | .error e => .error e
      | .ok (vs, r) => .ok (vs, ⟨r.1, Nat.lt_trans r.2 hf⟩)
    | _ => .error (.at .comma next.offset)
termination_by (c.rest.length, 1)
decreasing_by
  · exact Prod.Lex.right _ Nat.zero_lt_one
  · exact Prod.Lex.left _ _ hf

def members (limit : Option Nat) (c : Cursor) (read : List (Scalar × Value)) :
    Except Fault (List (Scalar × Value) × Cursor.Below c.rest.length) :=
  match hc : c.rest with
  | '"' :: cs =>
    match hkey : stringBody c.offset cs (c.offset + 1) [] with
    | .error e => .error e
    | .ok (key, k) =>
      let colon := k.skipBlanks
      have hk : colon.rest.length < cs.length + 1 :=
        Nat.lt_of_le_of_lt (Cursor.skipBlanks_le _)
          (Nat.lt_succ_of_lt (length_lt_of_stringBody hkey))
      match hcolon : colon.rest with
      | ':' :: after =>
        let start := (Cursor.mk after (colon.offset + 1)).skipBlanks
        have hs : start.rest.length < cs.length + 1 := by
          have : start.rest.length ≤ after.length := Cursor.skipBlanks_le _
          simp only [hcolon, List.length_cons] at hk; omega
        match value limit start with
        | .error e => .error e
        | .ok (v, r) =>
          let next := r.1.skipBlanks
          have hn : next.rest.length < cs.length + 1 :=
            Nat.lt_of_le_of_lt (Cursor.skipBlanks_le _) (Nat.lt_trans r.2 hs)
          let entries := Value.put read (.text key) v
          match hr : next.rest with
          | '}' :: rest => .ok (entries, ⟨⟨rest, next.offset + 1⟩, by
              simp only [hr, List.length_cons] at hn ⊢; show rest.length < _; omega⟩)
          | ',' :: rest =>
            let following := (Cursor.mk rest (next.offset + 1)).skipBlanks
            have hf : following.rest.length < cs.length + 1 := by
              have : following.rest.length ≤ rest.length := Cursor.skipBlanks_le _
              simp only [hr, List.length_cons] at hn; omega
            match members limit following entries with
            | .error e => .error e
            | .ok (es, r) => .ok (es, ⟨r.1, by have := r.2; simp only [List.length_cons]; omega⟩)
          | _ => .error (.at .comma next.offset)
      | _ => .error (.at .colon colon.offset)
  | _ => .error (.at .propertyName c.offset)
termination_by (c.rest.length, 1)
decreasing_by
  · exact Prod.Lex.left _ _ (by rw [hc, List.length_cons]; exact hs)
  · exact Prod.Lex.left _ _ (by rw [hc, List.length_cons]; exact hf)
end

/-- The value that a whole text stands for. Integers may be limited in their number of digits. -/
def parse (limit : Option Nat) (text : List Char) : Except Fault Value :=
  if text.head? = some '\uFEFF' then .error (.at .byteOrderMark 0)
  else
    match value limit (Cursor.mk text 0).skipBlanks with
    | .error e => .error e
    | .ok (v, r) =>
      let last := r.1.skipBlanks
      if last.rest = [] then .ok v else .error (.at .extraData last.offset)

def place (text : List Char) (offset : Nat) : Nat × Nat :=
  let before := text.take offset
  (before.count '\n' + 1, (before.reverse.takeWhile (· ≠ '\n')).length + 1)

def Fault.message (text : List Char) : Fault → String
  | .at reason offset =>
    let (line, column) := place text offset
    reason.text ++ ": line " ++ Shortest.digitsText line ++ " column " ++
      Shortest.digitsText column ++ " (char " ++ Shortest.digitsText offset ++ ")"
  | .digits count =>
    "Exceeds the limit (4300 digits) for integer string conversion: value has " ++
      Shortest.digitsText count ++
      " digits; use sys.set_int_max_str_digits() to increase the limit"

end Wiring.Json
