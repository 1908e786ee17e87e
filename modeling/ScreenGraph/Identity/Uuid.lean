import ScreenGraph.Sorting
import ScreenGraph.Text.Hex

/-!
# ScreenGraph.Identity.Uuid

Universally unique identifiers: sixteen bytes, their text forms and their order.

The written form is lower case with hyphens after 4, 6, 8 and 10 bytes. Read are also upper case
digits, the 32 digits without hyphens, and the hyphenated form in braces or after
`urn:uuid:` in letters of either case.

* `le_trans`, `le_total`, `le_antisymm`: the order by bytes is linear.
-/

namespace ScreenGraph
namespace Identity

open Text

structure Uuid where
  bytes : List UInt8
  length_eq : bytes.length = 16
deriving DecidableEq

def hexBytes (bytes : List UInt8) : List Char :=
  bytes.flatMap fun b => [hexDigit (b.toNat / 16), hexDigit (b.toNat % 16)]

/-- Bytes written with two digits each. -/
def readHexBytes? : List Char → Option (List UInt8)
  | [] => some []
  | [_] => none
  | hi :: lo :: rest =>
    match hexValue? hi, hexValue? lo, readHexBytes? rest with
    | some h, some l, some bytes => some (UInt8.ofNat (16 * h + l) :: bytes)
    | _, _, _ => none

namespace Uuid

def ofBytes? (bytes : List UInt8) : Option Uuid :=
  if h : bytes.length = 16 then some ⟨bytes, h⟩ else none

def chars (u : Uuid) : List Char :=
  hexBytes (u.bytes.take 4) ++ '-' :: hexBytes ((u.bytes.drop 4).take 2)
    ++ '-' :: hexBytes ((u.bytes.drop 6).take 2) ++ '-' :: hexBytes ((u.bytes.drop 8).take 2)
    ++ '-' :: hexBytes (u.bytes.drop 10)

def text (u : Uuid) : String :=
  String.ofList u.chars

/-- Thirty-two digits. -/
def readPlain? (cs : List Char) : Option Uuid :=
  (readHexBytes? cs).bind ofBytes?

/-- Digits in groups of 8, 4, 4, 4 and 12. -/
def readHyphenated? (cs : List Char) : Option Uuid :=
  match cs.drop 8, cs.drop 13, cs.drop 18, cs.drop 23 with
  | '-' :: b, '-' :: c, '-' :: d, '-' :: e =>
    readPlain? (cs.take 8 ++ b.take 4 ++ c.take 4 ++ d.take 4 ++ e)
  | _, _, _, _ => none

def read? (s : String) : Option Uuid :=
  let cs := s.toList
  match cs.length with
  | 32 => readPlain? cs
  | 36 => readHyphenated? cs
  | 38 =>
    if cs.head? = some '{' ∧ cs.getLast? = some '}' then readHyphenated? cs.tail.dropLast else none
  | 45 =>
    if (cs.take 9).map Char.toLower = "urn:uuid:".toList then readHyphenated? (cs.drop 9) else none
  | _ => none

/-- Byte by byte, the first difference decides. -/
def le (a b : Uuid) : Bool :=
  lexLe UInt8.toNat a.bytes b.bytes

theorem le_trans (a b c : Uuid) (h : le a b = true) (h' : le b c = true) : le a c = true :=
  lexLe_trans _ _ _ h h'

theorem le_total (a b : Uuid) : le a b = true ∨ le b a = true :=
  lexLe_total _ _

theorem le_antisymm (a b : Uuid) (h : le a b = true) (h' : le b a = true) : a = b := by
  obtain ⟨as, _⟩ := a
  obtain ⟨bs, _⟩ := b
  cases lexLe_antisymm (fun _ _ => UInt8.toNat_inj.1) as bs h h'
  rfl

end Uuid
end Identity
end ScreenGraph
