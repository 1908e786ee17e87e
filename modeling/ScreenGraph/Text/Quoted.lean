import ScreenGraph.Text.Escaped
import ScreenGraph.Text.Hex

/-!
# ScreenGraph.Text.Quoted

Texts in double quotes, and lists of them in brackets.
-/

namespace ScreenGraph
namespace Text

/-- Hexadecimal digits without leading zeros. -/
def hexDigits (n : Nat) : List Char :=
  Nat.toDigits 16 n

/-- Tab, line ends, NUL, backslash and quote have escapes of their own; other characters to be
spelled out are written by their code point. -/
def quotedChar (c : Char) : List Char :=
  if c = '\x00' then ['\\', '0']
  else if c = '\t' then ['\\', 't']
  else if c = '\r' then ['\\', 'r']
  else if c = '\n' then ['\\', 'n']
  else if c = '\\' then ['\\', '\\']
  else if c = '"' then ['\\', '"']
  else if isEscaped c then ['\\', 'u', '{'] ++ hexDigits c.toNat ++ ['}']
  else [c]

def quoted (s : String) : String :=
  String.ofList ('"' :: s.toList.flatMap quotedChar ++ ['"'])

def quotedList (items : List String) : String :=
  "[" ++ String.intercalate ", " (items.map quoted) ++ "]"

end Text
end ScreenGraph
