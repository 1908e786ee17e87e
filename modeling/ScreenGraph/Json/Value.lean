import ScreenGraph.Text.Hex
import ScreenGraph.Text.Integer

/-!
# ScreenGraph.Json.Value

JSON values and how they are written, on one line or indented by two blanks a level.

Strings escape the quote, the backslash and the ASCII controls, and nothing else.
-/

namespace ScreenGraph
namespace Json

inductive Value where
  | null
  | bool (b : Bool)
  | integer (n : Int)
  /-- A number that is written with a fraction or an exponent. -/
  | decimal (literal : String)
  | string (s : String)
  | array (items : List Value)
  | object (fields : List (String × Value))
deriving Inhabited

def escapeChar (c : Char) : List Char :=
  if c = '"' then ['\\', '"']
  else if c = '\\' then ['\\', '\\']
  else if c = '\x08' then ['\\', 'b']
  else if c = '\t' then ['\\', 't']
  else if c = '\n' then ['\\', 'n']
  else if c = '\x0c' then ['\\', 'f']
  else if c = '\r' then ['\\', 'r']
  else if c.toNat < 0x20 then
    ['\\', 'u', '0', '0', Text.hexDigit (c.toNat / 16), Text.hexDigit (c.toNat % 16)]
  else [c]

def quoteChars (cs : List Char) : List Char :=
  '"' :: cs.flatMap escapeChar ++ ['"']

def quote (s : String) : String :=
  String.ofList (quoteChars s.toList)

def indent (level : Nat) : String :=
  String.ofList ('\n' :: List.replicate (2 * level) ' ')

mutual

/-- The value, with the lines below the first one indented from `level` on. -/
def pretty (level : Nat) : Value → String
  | .null => "null"
  | .bool b => if b then "true" else "false"
  | .integer n => Text.integerText n
  | .decimal literal => literal
  | .string s => quote s
  | .array [] => "[]"
  | .array (v :: vs) =>
    "[" ++ indent (level + 1) ++ pretty (level + 1) v ++ prettyItems (level + 1) vs
      ++ indent level ++ "]"
  | .object [] => "\x7b\x7d"
  | .object ((k, v) :: fs) =>
    "\x7b" ++ indent (level + 1) ++ quote k ++ ": " ++ pretty (level + 1) v
      ++ prettyFields (level + 1) fs ++ indent level ++ "\x7d"

def prettyItems (level : Nat) : List Value → String
  | [] => ""
  | v :: vs => "," ++ indent level ++ pretty level v ++ prettyItems level vs

def prettyFields (level : Nat) : List (String × Value) → String
  | [] => ""
  | (k, v) :: fs =>
    "," ++ indent level ++ quote k ++ ": " ++ pretty level v ++ prettyFields level fs

end

end Json
end ScreenGraph
