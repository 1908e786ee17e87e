import ScreenGraph.Json.Value
import ScreenGraph.Text.Fields

/-!
# ScreenGraph.Json.Strings

JSON arrays of strings: written without blanks, read with any JSON blanks between their parts.
-/

namespace ScreenGraph
namespace Json

def writeStrings (items : List String) : String :=
  "[" ++ String.ofList (Text.joinChars ',' (items.map fun s => quoteChars s.toList)) ++ "]"

/-- Where a reader of an array stands. -/
inductive Phase where
  | before
  | first
  | next
  /-- Inside a string, with its characters so far reversed. -/
  | inside (read : List Char)
  | between
  | after

/-- The code unit written with four hexadecimal digits. -/
def unit? (a b c d : Char) : Option Nat :=
  match Text.hexValue? a, Text.hexValue? b, Text.hexValue? c, Text.hexValue? d with
  | some a, some b, some c, some d => some (((a * 16 + b) * 16 + c) * 16 + d)
  | _, _, _, _ => none

def isHighSurrogate (n : Nat) : Bool :=
  0xD800 ≤ n && n < 0xDC00

def isLowSurrogate (n : Nat) : Bool :=
  0xDC00 ≤ n && n < 0xE000

/-- The character of a one-letter escape. -/
def escaped? (c : Char) : Option Char :=
  match c with
  | '"' => some '"'
  | '\\' => some '\\'
  | '/' => some '/'
  | 'b' => some '\x08'
  | 'f' => some '\x0c'
  | 'n' => some '\n'
  | 'r' => some '\r'
  | 't' => some '\t'
  | _ => none

def isSpace (c : Char) : Bool :=
  c = ' ' || c = '\t' || c = '\n' || c = '\r'

/-- Reads on, with the strings so far reversed. A lone surrogate, an unescaped control character and
anything that is no string are refused. -/
def readFrom : Phase → List String → List Char → Option (List String)
  | .inside _, _, [] => none
  | .inside cs, items, '"' :: rest => readFrom .between (String.ofList cs.reverse :: items) rest
  | .inside cs, items, '\\' :: 'u' :: a :: b :: c :: d :: rest =>
    match unit? a b c d with
    | none => none
    | some n =>
      if isLowSurrogate n then none
      else if isHighSurrogate n then
        match rest with
        | '\\' :: 'u' :: a :: b :: c :: d :: rest =>
          match unit? a b c d with
          | none => none
          | some m =>
            if isLowSurrogate m then
              let code := 0x10000 + (n - 0xD800) * 0x400 + (m - 0xDC00)
              readFrom (.inside (Char.ofNat code :: cs)) items rest
            else none
        | _ => none
      else readFrom (.inside (Char.ofNat n :: cs)) items rest
  | .inside cs, items, '\\' :: e :: rest =>
    match escaped? e with
    | none => none
    | some c => readFrom (.inside (c :: cs)) items rest
  | .inside _, _, ['\\'] => none
  | .inside cs, items, c :: rest =>
    if c.toNat < 0x20 then none else readFrom (.inside (c :: cs)) items rest
  | .after, items, [] => some items.reverse
  | _, _, [] => none
  | phase, items, c :: rest =>
    if isSpace c then readFrom phase items rest
    else
      match phase, c with
      | .before, '[' => readFrom .first items rest
      | .first, ']' => readFrom .after items rest
      | .first, '"' => readFrom (.inside []) items rest
      | .next, '"' => readFrom (.inside []) items rest
      | .between, ',' => readFrom .next items rest
      | .between, ']' => readFrom .after items rest
      | _, _ => none

def readStrings? (s : String) : Option (List String) :=
  readFrom .before [] s.toList

end Json
end ScreenGraph
