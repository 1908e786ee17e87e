/-!
# ScreenGraph.Text.Utf8

UTF-8 between bytes and characters.

`decode` refuses at the first byte that no well-formed text continues with, and says where the
offending sequence starts and how many of its bytes could still have begun a character. A sequence
that is cut off by the end of the bytes is incomplete rather than invalid.
-/

namespace ScreenGraph
namespace Text

/-- What is wrong with a byte string, and at which index. -/
inductive Utf8Error where
  | invalid (size index : Nat)
  | incomplete (index : Nat)
deriving DecidableEq

def Utf8Error.message : Utf8Error → String
  | .invalid size index => s!"invalid utf-8 sequence of {size} bytes from index {index}"
  | .incomplete index => s!"incomplete utf-8 byte sequence from index {index}"

def encode (cs : List Char) : List UInt8 :=
  cs.flatMap String.utf8EncodeChar

def utf8 (s : String) : List UInt8 :=
  encode s.toList

/-- Bytes that continue a character. -/
def isTail (b : UInt8) : Bool :=
  0x80 ≤ b && b ≤ 0xBF

/-- Second bytes after a given first one: no overlong form, no surrogate, nothing past the last
code point. -/
def isSecond (first second : UInt8) : Bool :=
  if first = 0xE0 then 0xA0 ≤ second && second ≤ 0xBF
  else if first = 0xED then 0x80 ≤ second && second ≤ 0x9F
  else if first = 0xF0 then 0x90 ≤ second && second ≤ 0xBF
  else if first = 0xF4 then 0x80 ≤ second && second ≤ 0x8F
  else isTail second

/-- The six payload bits of a tail byte. -/
def tailBits (b : UInt8) : Nat :=
  b.toNat % 64

/-- Characters of the bytes that start at `index` of the whole. -/
def decodeFrom (index : Nat) : List UInt8 → Except Utf8Error (List Char)
  | [] => .ok []
  | b :: rest =>
    if b < 0x80 then
      (decodeFrom (index + 1) rest).map (Char.ofNat b.toNat :: ·)
    else if 0xC2 ≤ b && b ≤ 0xDF then
      match rest with
      | [] => .error (.incomplete index)
      | b₁ :: rest =>
        if isTail b₁ then
          (decodeFrom (index + 2) rest).map
            (Char.ofNat (b.toNat % 32 * 64 + tailBits b₁) :: ·)
        else .error (.invalid 1 index)
    else if 0xE0 ≤ b && b ≤ 0xEF then
      match rest with
      | [] => .error (.incomplete index)
      | b₁ :: rest =>
        if isSecond b b₁ then
          match rest with
          | [] => .error (.incomplete index)
          | b₂ :: rest =>
            if isTail b₂ then
              (decodeFrom (index + 3) rest).map
                (Char.ofNat (b.toNat % 16 * 4096 + tailBits b₁ * 64 + tailBits b₂) :: ·)
            else .error (.invalid 2 index)
        else .error (.invalid 1 index)
    else if 0xF0 ≤ b && b ≤ 0xF4 then
      match rest with
      | [] => .error (.incomplete index)
      | b₁ :: rest =>
        if isSecond b b₁ then
          match rest with
          | [] => .error (.incomplete index)
          | b₂ :: rest =>
            if isTail b₂ then
              match rest with
              | [] => .error (.incomplete index)
              | b₃ :: rest =>
                if isTail b₃ then
                  (decodeFrom (index + 4) rest).map
                    (Char.ofNat (b.toNat % 8 * 262144 + tailBits b₁ * 4096 + tailBits b₂ * 64
                      + tailBits b₃) :: ·)
                else .error (.invalid 3 index)
            else .error (.invalid 2 index)
        else .error (.invalid 1 index)
    else .error (.invalid 1 index)

def decode (bytes : List UInt8) : Except Utf8Error String :=
  (decodeFrom 0 bytes).map String.ofList

end Text
end ScreenGraph
