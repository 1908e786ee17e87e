import ScreenGraph.Text.Hex
import ScreenGraph.Yaml.Cursor

/-!
# ScreenGraph.Yaml.Scalar

The text of YAML scalars: plain, quoted, and as indented blocks.

Line breaks inside plain and quoted scalars are folded: a single one becomes a blank, of several the
first is left out, and blanks around them are dropped. A literal block keeps its line breaks, a
folded one folds those between two lines that do not begin with a blank.
-/

namespace ScreenGraph
namespace Yaml

/-- What lies between two pieces of a scalar. -/
inductive Gap where
  | blanks (cs : List Char)
  /-- Line breaks; the first one is missing if it was escaped. -/
  | breaks (first : Option Char) (more : List Char)
deriving DecidableEq

namespace Gap

def empty : Gap :=
  blanks []

def isEmpty : Gap → Bool
  | blanks [] => true
  | _ => false

def breaksLine : Gap → Bool
  | blanks _ => false
  | breaks _ _ => true

def add (c : Char) : Gap → Gap
  | blanks cs => if isBreak c then breaks (some c) [] else blanks (cs ++ [c])
  | breaks first more => if isBreak c then breaks first (more ++ [c]) else breaks first more

def text : Gap → List Char
  | blanks cs => cs
  | breaks (some '\n') [] => [' ']
  | breaks (some '\n') more => more
  | breaks first more => first.toList ++ more

end Gap

/-- A scalar and what follows it. -/
structure Scanned where
  text : List Char
  next : Cursor
  /-- Whether a new line was begun behind the text. -/
  brokeLine : Bool := false

/-- Where a plain scalar ends for good: at a colon that ends a word, and in a flow collection at an
indicator. -/
def plainStops (inFlow : Bool) (c : Char) (cs : List Char) : Bool :=
  (c = ':' && endsWord cs) || (inFlow && isFlowIndicator c)

/-- A colon in a flow collection that neither ends a word nor goes on with one. -/
def strayColon (inFlow : Bool) (c : Char) : List Char → Bool
  | d :: _ => inFlow && c = ':' && (isFlowIndicator d || d = '?')
  | [] => false

/-- Reads on in a plain scalar. Its further lines begin at `margin` or behind it, and not with a
tab. -/
def scanPlain (inFlow : Bool) (margin : Nat) :
    Place → List Char → Gap → List Char → Option Scanned
  | place, [], gap, acc => some ⟨acc.reverse, ⟨place, []⟩, gap.breaksLine⟩
  | place, c :: cs, gap, acc =>
    if isBlank c || isBreak c then
      if gap.breaksLine && c = '\t' && place.column < margin then none
      else scanPlain inFlow margin (place.after c) cs (gap.add c) acc
    else if plainStops inFlow c cs
        || (!gap.isEmpty && (c = '#' || (!inFlow && place.column < margin)))
        || (place.column = 0 && isDocumentMark (c :: cs)) then
      some ⟨acc.reverse, ⟨place, c :: cs⟩, gap.breaksLine⟩
    else if strayColon inFlow c cs then none
    else scanPlain inFlow margin (place.after c) cs .empty (c :: (gap.text.reverse ++ acc))

/-- Reads on behind a single quote, up to one that is not doubled. -/
def scanSingle : Place → List Char → Gap → List Char → Option Scanned
  | _, [], _, _ => none
  | place, '\'' :: '\'' :: cs, gap, acc =>
    scanSingle ((place.after '\'').after '\'') cs .empty ('\'' :: (gap.text.reverse ++ acc))
  | place, c :: cs, gap, acc =>
    if isBlank c || isBreak c then scanSingle (place.after c) cs (gap.add c) acc
    else if place.column = 0 && isDocumentMark (c :: cs) then none
    else if c = '\'' then
      some { text := (gap.text.reverse ++ acc).reverse, next := ⟨place.after c, cs⟩ }
    else scanSingle (place.after c) cs .empty (c :: (gap.text.reverse ++ acc))

/-- What a one-letter escape stands for. -/
def escaped? (c : Char) : Option Char :=
  match c with
  | '0' => some '\x00'
  | 'a' => some '\x07'
  | 'b' => some '\x08'
  | 't' => some '\t'
  | '\t' => some '\t'
  | 'n' => some '\n'
  | 'v' => some '\x0b'
  | 'f' => some '\x0c'
  | 'r' => some '\r'
  | 'e' => some '\x1b'
  | ' ' => some ' '
  | '"' => some '"'
  | '/' => some '/'
  | '\\' => some '\\'
  | 'N' => some '\u0085'
  | '_' => some '\u00a0'
  | 'L' => some '\u2028'
  | 'P' => some '\u2029'
  | _ => none

/-- How many hexadecimal digits follow the letter of an escape. -/
def escapeDigits? (c : Char) : Option Nat :=
  match c with
  | 'x' => some 2
  | 'u' => some 4
  | 'U' => some 8
  | _ => none

/-- Reads on behind a double quote; `left` digits of an escape are still to come after those that
make up `code`. -/
def scanDouble : (left code : Nat) → Place → List Char → Gap → List Char → Option Scanned
  | _, _, _, [], _, _ => none
  | left + 1, code, place, c :: cs, gap, acc =>
    match Text.hexValue? c with
    | none => none
    | some d =>
      let code := 16 * code + d
      if left ≠ 0 then scanDouble left code (place.after c) cs gap acc
      else if code.isValidChar then scanDouble 0 0 (place.after c) cs gap (Char.ofNat code :: acc)
      else none
  | 0, _, place, '\\' :: e :: cs, gap, acc =>
    let acc := gap.text.reverse ++ acc
    let place := place.after '\\'
    if isBreak e then scanDouble 0 0 (place.after e) cs (.breaks none []) acc
    else
      match escaped? e, escapeDigits? e with
      | some c, _ => scanDouble 0 0 (place.after e) cs .empty (c :: acc)
      | none, some n => scanDouble n 0 (place.after e) cs .empty acc
      | none, none => none
  | 0, _, place, c :: cs, gap, acc =>
    if isBlank c || isBreak c then scanDouble 0 0 (place.after c) cs (gap.add c) acc
    else if place.column = 0 && isDocumentMark (c :: cs) then none
    else if c = '"' then
      some { text := (gap.text.reverse ++ acc).reverse, next := ⟨place.after c, cs⟩ }
    else scanDouble 0 0 (place.after c) cs .empty (c :: (gap.text.reverse ++ acc))

/-- What happens to the line breaks at the end of a block scalar. -/
inductive Chomping where
  | strip
  /-- The last line keeps its break. -/
  | clip
  | keep
deriving DecidableEq

structure BlockHeader where
  chomping : Chomping := .clip
  /-- How much deeper than its parent the block is, if that is given. -/
  deeper : Option Nat := none

def BlockHeader.readChomping (h : BlockHeader) : List Char → BlockHeader × List Char
  | '+' :: cs => ({ h with chomping := .keep }, cs)
  | '-' :: cs => ({ h with chomping := .strip }, cs)
  | cs => (h, cs)

def BlockHeader.readDeeper? (h : BlockHeader) : List Char → Option (BlockHeader × List Char)
  | [] => some (h, [])
  | c :: cs =>
    if c = '0' then none
    else if c.isDigit then some ({ h with deeper := some (c.toNat - '0'.toNat) }, cs)
    else some (h, c :: cs)

/-- The header of a block scalar: both parts are optional and come in either order. -/
def readBlockHeader? (cs : List Char) : Option (BlockHeader × List Char) := do
  let (h, cs') := ({} : BlockHeader).readChomping cs
  let (h, cs'') ← h.readDeeper? cs'
  return if h.chomping = .clip then h.readChomping cs'' else (h, cs'')

/-- What has been read of a block scalar. -/
structure BlockText where
  /-- The column of its lines, once it is known. -/
  column : Option Nat
  /-- The deepest column of the blank lines in front. -/
  deepest : Nat := 0
  /-- The break of the last line with text, and those of the empty lines behind it. -/
  first : Option Char := none
  more : List Char := []
  /-- Whether the last line with text began with a blank. -/
  indented : Bool := false
  inLine : Bool := false
  /-- The characters so far, reversed. -/
  acc : List Char := []

namespace BlockText

/-- Takes the first character of a line with text. -/
def beginLine (b : BlockText) (folded : Bool) (column : Nat) (c : Char) : BlockText :=
  let lead :=
    if folded && b.first = some '\n' && !b.indented && !isBlank c then
      if b.more.isEmpty then [' '] else []
    else b.first.toList
  { b with
    column := some column
    first := none
    more := []
    indented := isBlank c
    inLine := true
    acc := c :: (b.more.reverse ++ lead ++ b.acc) }

def text (b : BlockText) (chomping : Chomping) : List Char :=
  b.acc.reverse ++
    match chomping with
    | .strip => []
    | .clip => b.first.toList
    | .keep => b.first.toList ++ b.more

end BlockText

/-- Reads on in a block scalar. Its column is that of its first line with text, and at least
`margin`, unless the header gave one; a line that begins elsewhere ends it. -/
def scanBlock (folded : Bool) (chomping : Chomping) (margin : Nat) :
    Place → List Char → BlockText → Option Scanned
  | place, [], b => some { text := b.text chomping, next := ⟨place, []⟩ }
  | place, c :: cs, b =>
    if b.inLine then
      if isBreak c then
        scanBlock folded chomping margin (place.after c) cs
          { b with inLine := false, first := some c }
      else scanBlock folded chomping margin (place.after c) cs { b with acc := c :: b.acc }
    else
      let before := b.column.all (place.column < ·)
      let deepest := max b.deepest place.column
      if before && c = ' ' then scanBlock folded chomping margin (place.after c) cs b
      else if before && c = '\t' then none
      else if isBreak c then
        scanBlock folded chomping margin (place.after c) cs
          { b with deepest, more := b.more ++ [c] }
      else
        let column := b.column.getD (max deepest (max margin 1))
        if place.column = column then
          scanBlock folded chomping margin (place.after c) cs (b.beginLine folded column c)
        else some { text := b.text chomping, next := ⟨place, c :: cs⟩ }

end Yaml
end ScreenGraph
