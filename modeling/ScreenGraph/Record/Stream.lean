import ScreenGraph.Files.Tree
import ScreenGraph.Record.Layout

/-!
# ScreenGraph.Record.Stream

Record files as lists of items, each a record or what is wrong with its line.

Lines end at a line feed, with or without one carriage return before it, and are decoded without
their ends. A decoded line loses the carriage returns that are left at its end; the first one also
loses its leading byte-order marks. Blank lines and a header on the first line give no item. A
malformed line is reported and the next one is read; a line that is not UTF-8 ends the list.
-/

namespace ScreenGraph
namespace Record

open Files Text

inductive ReadFailure where
  | os (error : OsError)
  | utf8 (error : Utf8Error)
deriving DecidableEq

def ReadFailure.message : ReadFailure → String
  | .os error => error.message
  | .utf8 error => error.message

inductive ReadError where
  | malformed (layout : String) (path : Path) (line expected found : Nat)
  | io (path : Path) (failure : ReadFailure)
deriving DecidableEq

namespace ReadError

def message : ReadError → String
  | malformed layout path line expected found =>
    s!"malformed {layout} record at {path.text}:{line}: " ++
      s!"expected at least {expected} fields, found {found}"
  | io path failure => s!"failed to read {path.text}: {failure.message}"

def isMalformed : ReadError → Bool
  | malformed .. => true
  | io .. => false

end ReadError

abbrev Item := Except ReadError Record

/-- A line that a line feed ends, from its reversed bytes: a carriage return right before the line
feed belongs to the line's end. -/
def ended : List UInt8 → List UInt8
  | 0x0D :: line => line.reverse
  | line => line.reverse

/-- Lines of a file, with `line` as the reversed start of the first one. No empty line follows the
last line feed, and what follows it is taken as it is. -/
def linesFrom (line : List UInt8) : List UInt8 → List (List UInt8)
  | [] => if line.isEmpty then [] else [line.reverse]
  | b :: bytes =>
    if b = 0x0A then ended line :: linesFrom [] bytes else linesFrom (b :: line) bytes

def lines (content : List UInt8) : List (List UInt8) :=
  linesFrom [] content

/-- What is left of line `number` without carriage returns at its end and marks at its start. -/
def stripped (number : Nat) (line : String) : String :=
  let cs := (line.toList.reverse.dropWhile (· = '\r')).reverse
  String.ofList (if number = 1 then cs.dropWhile (· = '\uFEFF') else cs)

/-- The item of a line, if it has one. -/
def item? (path : Path) (layout : Layout) (sep : Char) (number : Nat) (line : String) :
    Option Item :=
  let line := stripped number line
  if blank line then none
  else
    let fields := layout.split sep line
    if number = 1 ∧ (fields.head?.map trim) = layout.header.head? then none
    else if fields.length < layout.minFields then
      some (.error (.malformed layout.name path number layout.minFields fields.length))
    else some (.ok ⟨number, fields⟩)

/-- The items of the lines from `number` on. -/
def itemsFrom (path : Path) (layout : Layout) (sep : Char) (number : Nat) :
    List (List UInt8) → List Item
  | [] => []
  | line :: rest =>
    match decode line with
    | .error e => [.error (.io path (.utf8 e))]
    | .ok text =>
      match item? path layout sep number text with
      | none => itemsFrom path layout sep (number + 1) rest
      | some item => item :: itemsFrom path layout sep (number + 1) rest

/-- The items of a file. A directory can be opened but not read. -/
def openFile (t : Tree) (path : Path) (layout : Layout) (sep : Char) :
    Except ReadError (List Item) :=
  match t.find path with
  | .error e => .error (.io path (.os e))
  | .ok .directory => .ok [.error (.io path (.os .isDirectory))]
  | .ok (.file content) => .ok (itemsFrom path layout sep 1 (lines content))

/-- The records of a list of items, or its first error. -/
def collect : List Item → Except ReadError (List Record)
  | [] => .ok []
  | .error e :: _ => .error e
  | .ok r :: items =>
    match collect items with
    | .error e => .error e
    | .ok rs => .ok (r :: rs)

def readAll (t : Tree) (path : Path) (layout : Layout) (sep : Char) :
    Except ReadError (List Record) :=
  match openFile t path layout sep with
  | .error e => .error e
  | .ok items => collect items

end Record
end ScreenGraph
