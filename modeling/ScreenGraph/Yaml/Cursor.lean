/-!
# ScreenGraph.Yaml.Cursor

Places in a YAML text and the classes of characters that its layout rests on.
-/

namespace ScreenGraph
namespace Yaml

/-- The characters that may stand in a text at all. -/
def isAllowed (c : Char) : Bool :=
  let n := c.toNat
  n = 0x09 || n = 0x0A || n = 0x0D || n = 0x85 || (0x20 ≤ n && n ≤ 0x7E)
    || (0xA0 ≤ n && n ≤ 0xD7FF) || (0xE000 ≤ n && n ≤ 0xFFFD) || 0x10000 ≤ n

/-- Ends a line, once line ends are made equal. -/
def isBreak (c : Char) : Bool :=
  c = '\n' || c = '\u2028' || c = '\u2029'

def isBlank (c : Char) : Bool :=
  c = ' ' || c = '\t'

/-- Every carriage return, alone or before a line feed, and every next-line character becomes a line
feed. -/
def unifyBreaks : List Char → List Char
  | [] => []
  | '\r' :: '\n' :: cs => '\n' :: unifyBreaks cs
  | c :: cs => (if c = '\r' || c = '\u0085' then '\n' else c) :: unifyBreaks cs

/-- The characters of names. -/
def isWordChar (c : Char) : Bool :=
  c.isAlphanum || c = '_' || c = '-'

/-- The characters that open, close and separate flow collections. -/
def isFlowIndicator (c : Char) : Bool :=
  c = ',' || c = '[' || c = ']' || c = '\x7b' || c = '\x7d'

/-- Whether a blank, a line end or nothing at all comes first. -/
def endsWord : List Char → Bool
  | [] => true
  | c :: _ => isBlank c || isBreak c

/-- Three dashes or three dots that stand alone mark where a document begins or ends. -/
def isDocumentMark : List Char → Bool
  | '-' :: '-' :: '-' :: cs => endsWord cs
  | '.' :: '.' :: '.' :: cs => endsWord cs
  | _ => false

structure Place where
  line : Nat := 0
  /-- How many characters of the line come before it. -/
  column : Nat := 0
  /-- How many bytes of the line come before it. -/
  bytes : Nat := 0
deriving DecidableEq

def Place.after (p : Place) (c : Char) : Place :=
  if isBreak c then { line := p.line + 1 }
  else { p with column := p.column + 1, bytes := p.bytes + c.utf8Size }

/-- A place and the characters from there on. -/
structure Cursor where
  place : Place
  rest : List Char
deriving DecidableEq

namespace Cursor

/-- Moves on by a number of characters. -/
def skip (c : Cursor) (n : Nat) : Cursor :=
  ⟨(c.rest.take n).foldl Place.after c.place, c.rest.drop n⟩

end Cursor
end Yaml
end ScreenGraph
