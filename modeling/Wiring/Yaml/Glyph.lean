/-! Characters of a text with their places, and the classes of characters that YAML knows. -/
namespace Wiring.Yaml

structure Glyph where
  char : Char
  index : Nat
  line : Nat
  column : Nat
deriving Repr

def isBreak (c : Char) : Bool := c = '\n' || c = '\u0085' || c = '\u2028' || c = '\u2029'

/-- The end of a text reads as the zero character, which is allowed nowhere in it. -/
def endChar : Char := '\x00'
def isBreakOrEnd (c : Char) : Bool := isBreak c || c = endChar
def isGap (c : Char) : Bool := c = ' ' || isBreakOrEnd c
def isBlank (c : Char) : Bool := c = '\t' || isGap c

def isAllowed (c : Char) : Bool :=
  let n := c.toNat
  n = 9 || n = 10 || n = 13 || (0x20 ≤ n && n ≤ 0x7E) || n = 0x85 || (0xA0 ≤ n && n ≤ 0xFFFD) ||
    (0x10000 ≤ n && n ≤ 0x10FFFF)

def isWordChar (c : Char) : Bool := c.isAlphanum || c = '-' || c = '_'
def isUriChar (c : Char) : Bool := c.isAlphanum || "-;/?:@&=+$,_.!~*'()[]%".toList.contains c
def isIndicator (c : Char) : Bool := "-?:,[]\x7b\x7d#&*!|>'\"%@\u0060".toList.contains c
def isFlowIndicator (c : Char) : Bool := ",[]\x7b\x7d".toList.contains c

def glyphsFrom (index line column : Nat) : List Char → List Glyph
  | [] => [⟨endChar, index, line, column⟩]
  | c :: cs =>
    ⟨c, index, line, column⟩ ::
      (if isBreak c then glyphsFrom (index + 1) (line + 1) 0 cs
       else glyphsFrom (index + 1) line (if c = '\uFEFF' then column else column + 1) cs)

def glyphs (cs : List Char) : List Glyph := glyphsFrom 0 0 0 cs

abbrev Glyphs := List Glyph

namespace Glyphs

def peek : Glyphs → Char
  | [] => endChar
  | g :: _ => g.char

def peekAt (gs : Glyphs) (n : Nat) : Char := peek (gs.drop n)
def column (gs : Glyphs) : Nat := (gs.head?.map Glyph.column).getD 0
def text (gs : Glyphs) : List Char := gs.map Glyph.char

def spanWhile (p : Char → Bool) (gs : Glyphs) : List Char × Glyphs :=
  (text (gs.takeWhile (fun g => p g.char)), gs.dropWhile (fun g => p g.char))

def skipWhile (p : Char → Bool) (gs : Glyphs) : Glyphs := gs.dropWhile (fun g => p g.char)
def skipSpaces (gs : Glyphs) : Glyphs := skipWhile (· = ' ') gs

def atMarker (gs : Glyphs) : Bool :=
  (text (gs.take 3) = ['-', '-', '-'] || text (gs.take 3) = ['.', '.', '.']) && isBlank (peekAt gs 3)

def lineBreak (gs : Glyphs) : List Char × Glyphs :=
  match gs with
  | g :: rest =>
    if g.char = '\n' || g.char = '\u0085' then (['\n'], rest)
    else if isBreak g.char then ([g.char], rest)
    else ([], gs)
  | [] => ([], [])

end Glyphs
end Wiring.Yaml
