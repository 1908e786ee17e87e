import ScreenGraph.Text.Utf8
import ScreenGraph.Yaml.Scalar

/-!
# ScreenGraph.Yaml.Token

The tokens of a YAML text. Indentation becomes tokens of its own: where a block begins and ends.

A key needs no mark in front of it. So everything that may turn out to be a key is remembered until
its line ends, and a colon behind it puts the tokens of a key and, if it is the first one of its
block, of a mapping in front of it.
-/

namespace ScreenGraph
namespace Yaml

inductive Style where
  | plain
  | quoted
  | literal
  | folded
deriving DecidableEq

inductive Token where
  | version (major minor : Nat)
  | tagPrefix (handle : String) (uri : List UInt8)
  | documentStart
  | documentEnd
  | blockSequence
  | blockMapping
  | blockEnd
  | flowSequence
  | flowSequenceEnd
  | flowMapping
  | flowMappingEnd
  /-- A dash in front of an item. -/
  | item
  /-- A comma in a flow collection. -/
  | comma
  | key
  | value
  | anchor (name : String)
  | alias (name : String)
  /-- What follows the handle may be any bytes, since they can be given by their codes. -/
  | tag (handle : String) (suffix : List UInt8)
  | scalar (style : Style) (text : String)
deriving DecidableEq

/-- Something that a colon may still turn into a key. -/
structure PossibleKey where
  place : Place
  /-- How many tokens come before it. -/
  index : Nat
  /-- Whether nothing but a key can stand there. -/
  required : Bool
deriving DecidableEq

structure Lexer where
  cursor : Cursor
  /-- The least column of what belongs to the innermost block. -/
  margin : Nat := 0
  /-- The margins of the blocks around it. -/
  margins : List Nat := []
  /-- The possible key of every open flow collection, and outside of all. -/
  keys : List (Option PossibleKey) := [none]
  keyAllowed : Bool := true
  /-- The tokens so far, the newest one first. -/
  tokens : List Token := []

namespace Lexer

def ofChars (cs : List Char) : Lexer where
  cursor := ⟨{}, unifyBreaks cs⟩

def place (l : Lexer) : Place :=
  l.cursor.place

def inFlow (l : Lexer) : Bool :=
  1 < l.keys.length

def emit (l : Lexer) (t : Token) : Lexer :=
  { l with tokens := t :: l.tokens }

/-- Puts a token behind the first `index` ones. -/
def insert (l : Lexer) (index : Nat) (t : Token) : Lexer :=
  let newer := l.tokens.length - index
  { l with tokens := l.tokens.take newer ++ t :: l.tokens.drop newer }

def move (l : Lexer) (n : Nat) : Lexer :=
  { l with cursor := l.cursor.skip n }

def allowKey (l : Lexer) (allowed : Bool) : Lexer :=
  { l with keyAllowed := allowed }

/-- Gives up the possible key of the innermost collection. -/
def dropKey (l : Lexer) : Option Lexer :=
  match l.keys with
  | some k :: keys => if k.required then none else some { l with keys := none :: keys }
  | _ => some l

/-- Remembers what comes next as a possible key, where one may stand. -/
def saveKey (l : Lexer) : Option Lexer :=
  if l.keyAllowed then
    l.dropKey.map fun l =>
      let required := !l.inFlow && l.margin = l.place.column + 1
      { l with keys := some ⟨l.place, l.tokens.length, required⟩ :: l.keys.tail }
  else some l

/-- Begins a block at a column that is deeper than the innermost block. -/
def openBlock (l : Lexer) (column index : Nat) (t : Token) : Lexer :=
  if !l.inFlow && l.margin ≤ column then
    { l.insert index t with margin := column + 1, margins := l.margin :: l.margins }
  else l

/-- Ends the blocks whose margin is above `limit`. -/
def endBlocks (limit : Nat) : Nat → List Nat → List Token → Nat × List Nat × List Token
  | margin, [], tokens => (margin, [], tokens)
  | margin, m :: ms, tokens =>
    if limit < margin then endBlocks limit m ms (.blockEnd :: tokens)
    else (margin, m :: ms, tokens)

def closeBlocks (l : Lexer) (limit : Nat) : Lexer :=
  if l.inFlow then l
  else
    let (margin, margins, tokens) := endBlocks limit l.margin l.margins l.tokens
    { l with margin, margins, tokens }

/-- Skips blanks, comments and line breaks. Where a key may begin a line, tabs are no blanks. A byte
order mark at the beginning of a line counts as a column and as nothing else. -/
def skipSpace (inFlow : Bool) : (inComment allowed : Bool) → Place → List Char → Bool × Cursor
  | _, allowed, place, [] => (allowed, ⟨place, []⟩)
  | inComment, allowed, place, c :: cs =>
    if isBreak c then skipSpace inFlow false (allowed || !inFlow) (place.after c) cs
    else if inComment || c = ' ' || (c = '\t' && (inFlow || !allowed))
        || (place.column = 0 && c = '\ufeff') then
      skipSpace inFlow inComment allowed (place.after c) cs
    else if c = '#' then skipSpace inFlow true allowed (place.after c) cs
    else (allowed, ⟨place, c :: cs⟩)

def toNext (l : Lexer) : Lexer :=
  let (keyAllowed, cursor) := skipSpace l.inFlow false l.keyAllowed l.place l.cursor.rest
  { l with keyAllowed, cursor }.closeBlocks (cursor.place.column + 1)

/-- What may follow the last part of a line: blanks and a comment. -/
def restOfLine? (cs : List Char) : Option (List Char) :=
  match cs.dropWhile isBlank with
  | '#' :: cs => some (cs.dropWhile (!isBreak ·))
  | [] => some []
  | c :: cs => if isBreak c then some (c :: cs) else none

/-- The place where a line's text ends; nothing is begun there, so its column does not matter. -/
def atLineEnd (l : Lexer) (cs : List Char) : Cursor :=
  match cs with
  | [] => ⟨l.place, []⟩
  | c :: cs => ⟨l.place.after c, cs⟩

/-! ### Names, tags and directives -/

/-- A character that may follow the name of an anchor. -/
def endsAnchor : List Char → Bool
  | [] => true
  | c :: _ => isBlank c || isBreak c || "?:,]\x7d%@\x60".toList.contains c

def readAnchor (l : Lexer) (mark : String → Token) : Option Lexer :=
  let cs := l.cursor.rest.tail
  let name := cs.takeWhile isWordChar
  if !name.isEmpty && endsAnchor (cs.dropWhile isWordChar) then
    some ((l.move (name.length + 1)).emit (mark (String.ofList name)))
  else none

def isUriChar (inBrackets : Bool) (c : Char) : Bool :=
  isWordChar c || ";/?:@&=+$.%!~*'()".toList.contains c || (inBrackets && ",[]".toList.contains c)

/-- How many bytes follow the first byte of a character, going by its high bits alone. -/
def tailCount? (b : UInt8) : Option Nat :=
  if b < 0x80 then some 0
  else if b < 0xC0 then none
  else if b < 0xE0 then some 1
  else if b < 0xF0 then some 2
  else if b < 0xF8 then some 3
  else none

/-- The bytes of a URI, and what follows it. A percent sign gives a byte by two hexadecimal digits;
`left` bytes of a character that was begun that way are still to come, and in the same way. -/
def readUri? (inBrackets : Bool) : (left : Nat) → List Char → Option (List UInt8 × List Char)
  | left, '%' :: high :: low :: cs => do
    let b := UInt8.ofNat (16 * (← Text.hexValue? high) + (← Text.hexValue? low))
    let left ←
      match left with
      | 0 => tailCount? b
      | left + 1 => if Text.isTail b then some left else none
    let (bytes, rest) ← readUri? inBrackets left cs
    return (b :: bytes, rest)
  | 0, c :: cs =>
    if c = '%' then none
    else if isUriChar inBrackets c then
      (readUri? inBrackets 0 cs).map fun (bytes, rest) => (UInt8.ofNat c.toNat :: bytes, rest)
    else some ([], c :: cs)
  | 0, [] => some ([], [])
  | _ + 1, _ => none

/-- The part of some bytes that counts: a zero ends it. -/
def upToZero (bytes : List UInt8) : List UInt8 :=
  bytes.takeWhile (· ≠ 0)

/-- The handle of a tag or of its declaration: between two exclamation marks, or a single one. -/
def readHandle (cs : List Char) : Option (List Char × List Char) :=
  match cs with
  | '!' :: cs =>
    match cs.dropWhile isWordChar with
    | '!' :: rest => some ('!' :: cs.takeWhile isWordChar ++ ['!'], rest)
    | _ => some (['!'], cs)
  | _ => none

/-- A tag in angle brackets, with a handle, local, or the exclamation mark alone. -/
def readTag? (cs : List Char) : Option (Token × List Char) :=
  match cs with
  | '!' :: '<' :: cs => do
    let (uri, rest) ← readUri? true 0 cs
    match rest with
    | '>' :: rest => if uri.isEmpty then none else return (.tag "" (upToZero uri), rest)
    | _ => none
  | _ => do
    let (handle, cs) ← readHandle cs
    let (suffix, rest) ← readUri? false 0 cs
    let kept := upToZero suffix
    if handle = ['!'] then
      return (if kept.isEmpty then .tag "" (Text.utf8 "!") else .tag "!" kept, rest)
    else if suffix.isEmpty then none
    else return (.tag (String.ofList handle) kept, rest)

def readTag (l : Lexer) : Option Lexer := do
  let (token, rest) ← readTag? l.cursor.rest
  if endsWord rest || (l.inFlow && rest.head? = some ',') then
    return (l.move (l.cursor.rest.length - rest.length)).emit token
  else none

def readNumber? (cs : List Char) : Option (Nat × List Char) :=
  let digits := cs.takeWhile Char.isDigit
  if digits.isEmpty || 9 < digits.length then none
  else some (Nat.ofDigitChars 10 digits 0, cs.dropWhile Char.isDigit)

def readVersion? (cs : List Char) : Option (Token × List Char) := do
  let (major, rest) ← readNumber? (cs.dropWhile isBlank)
  match rest with
  | '.' :: rest =>
    let (minor, rest) ← readNumber? rest
    return (.version major minor, rest)
  | _ => none

def readTagPrefix? (cs : List Char) : Option (Token × List Char) := do
  let (handle, rest) ← readHandle (cs.dropWhile isBlank)
  let (uri, after) ← readUri? true 0 (rest.dropWhile isBlank)
  if (rest.head?.all fun c => !isBlank c) || uri.isEmpty || !endsWord after then none
  else return (.tagPrefix (String.ofList handle) (upToZero uri), after)

def readDirective (l : Lexer) : Option Lexer := do
  let cs := l.cursor.rest.tail
  let name := String.ofList (cs.takeWhile isWordChar)
  let rest := cs.dropWhile isWordChar
  let (token, rest) ←
    if !endsWord rest then none
    else if name = "YAML" then readVersion? rest
    else if name = "TAG" then readTagPrefix? rest
    else none
  let rest ← restOfLine? rest
  return { l with cursor := l.atLineEnd rest }.emit token

/-! ### The parts of a block and of a flow collection -/

def readItem (l : Lexer) : Option Lexer :=
  if !l.inFlow && !l.keyAllowed then none
  else
    (l.openBlock l.place.column l.tokens.length .blockSequence).dropKey.map fun l =>
      ((l.allowKey true).emit .item).move 1

def readKeyMark (l : Lexer) : Option Lexer :=
  if !l.inFlow && !l.keyAllowed then none
  else
    (l.openBlock l.place.column l.tokens.length .blockMapping).dropKey.map fun l =>
      ((l.allowKey !l.inFlow).emit .key).move 1

/-- Whether a possible key can still be one: it begins in the same line, at most 1024 bytes to the
left. -/
def reaches (k : PossibleKey) (p : Place) : Bool :=
  k.place.line = p.line && p.bytes ≤ k.place.bytes + 1024

/-- A colon with no key in front of it. -/
def readBareValue (l : Lexer) : Option Lexer :=
  if !l.inFlow && !l.keyAllowed then none
  else
    let l := l.openBlock l.place.column l.tokens.length .blockMapping
    some (((l.allowKey !l.inFlow).emit .value).move 1)

def readValue (l : Lexer) : Option Lexer :=
  match l.keys with
  | some k :: keys =>
    if reaches k l.place then
      let l := { l with keys := none :: keys }.insert k.index .key
      let l := l.openBlock k.place.column k.index .blockMapping
      some (((l.allowKey false).emit .value).move 1)
    else if k.required then none
    else { l with keys := none :: keys }.readBareValue
  | _ => l.readBareValue

def openFlow (l : Lexer) (t : Token) : Option Lexer :=
  l.saveKey.map fun l => (({ l with keys := none :: l.keys }.allowKey true).emit t).move 1

def closeFlow (l : Lexer) (t : Token) : Option Lexer :=
  l.dropKey.map fun l =>
    let keys := if l.inFlow then l.keys.tail else l.keys
    (({ l with keys }.allowKey false).emit t).move 1

def readComma (l : Lexer) : Option Lexer :=
  l.dropKey.map fun l => ((l.allowKey true).emit .comma).move 1

/-! ### Scalars -/

def take (l : Lexer) (style : Style) (s : Scanned) : Lexer :=
  { l with cursor := s.next, keyAllowed := l.keyAllowed || s.brokeLine }.emit
    (.scalar style (String.ofList s.text))

def readPlain (l : Lexer) : Option Lexer := do
  let l ← l.saveKey
  let s ← scanPlain l.inFlow l.margin l.place l.cursor.rest .empty []
  return (l.allowKey false).take .plain s

def readQuoted (l : Lexer) (scan : Place → List Char → Gap → List Char → Option Scanned) :
    Option Lexer := do
  let l ← l.saveKey
  let start := l.cursor.skip 1
  let s ← scan start.place start.rest .empty []
  return (l.allowKey false).take .quoted s

def readBlock (l : Lexer) (style : Style) : Option Lexer := do
  let l ← l.dropKey
  let (header, rest) ← readBlockHeader? l.cursor.rest.tail
  let rest ← restOfLine? rest
  let column := header.deeper.map (l.margin - 1 + ·)
  let start := l.atLineEnd rest
  let s ← scanBlock (style = .folded) header.chomping l.margin start.place start.rest { column }
  return (l.allowKey true).take style s

/-! ### Tokens -/

/-- Reads what stands at a marked beginning of a line: a directive or where a document begins or
ends. -/
def readMark (l : Lexer) (c : Char) : Option Lexer := do
  let l ← (l.closeBlocks 0).dropKey
  let l := l.allowKey false
  if c = '%' then l.readDirective
  else return (l.emit (if c = '-' then .documentStart else .documentEnd)).move 3

/-- Whether a plain scalar may begin with a character. -/
def beginsPlain (inFlow : Bool) (c : Char) (cs : List Char) : Bool :=
  if c = '-' then !endsWord cs
  else if c = '?' || c = ':' then !inFlow && !endsWord cs
  else !",[]\x7b\x7d#&*!|>'\"%@\x60".toList.contains c && !endsWord [c]

/-- Reads one token from the next character on. -/
def step (l : Lexer) (c : Char) (cs : List Char) : Option Lexer :=
  if l.place.column = 0 && (c = '%' || isDocumentMark (c :: cs)) then l.readMark c
  else
    match c with
    | '[' => l.openFlow .flowSequence
    | ']' => l.closeFlow .flowSequenceEnd
    | '\x7b' => l.openFlow .flowMapping
    | '\x7d' => l.closeFlow .flowMappingEnd
    | ',' => l.readComma
    | '&' => l.saveKey.bind fun l => (l.allowKey false).readAnchor .anchor
    | '*' => l.saveKey.bind fun l => (l.allowKey false).readAnchor .alias
    | '!' => l.saveKey.bind fun l => (l.allowKey false).readTag
    | '\'' => l.readQuoted scanSingle
    | '"' => l.readQuoted (scanDouble 0 0)
    | c =>
      if c = '-' && endsWord cs then l.readItem
      else if c = '?' && (l.inFlow || endsWord cs) then l.readKeyMark
      else if c = ':' && (l.inFlow || endsWord cs) then l.readValue
      else if c = '|' && !l.inFlow then l.readBlock .literal
      else if c = '>' && !l.inFlow then l.readBlock .folded
      else if beginsPlain l.inFlow c cs then l.readPlain
      else none

/-- Reads all tokens; every one takes a character at least. -/
def run : Nat → Lexer → Option (List Token)
  | 0, _ => none
  | fuel + 1, l =>
    let l := l.toNext
    match l.cursor.rest with
    | [] => (l.closeBlocks 0).dropKey.map (·.tokens.reverse)
    | c :: cs => (l.step c cs).bind (run fuel)

end Lexer

/-- The tokens of a text, in order. -/
def tokens? (s : String) : Option (List Token) :=
  if s.toList.all isAllowed then (Lexer.ofChars s.toList).run (s.toList.length + 1) else none

end Yaml
end ScreenGraph
