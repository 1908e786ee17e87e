/-!
# ScreenGraph.Identity.Sha1

The SHA-1 digest of a byte string (FIPS 180-4), on 32-bit words.

* `digest_length`: a digest has 20 bytes.
-/

namespace ScreenGraph
namespace Identity

/-- The five chaining words. -/
structure Chain where
  a : UInt32
  b : UInt32
  c : UInt32
  d : UInt32
  e : UInt32

namespace Sha1

def start : Chain :=
  ⟨0x67452301, 0xEFCDAB89, 0x98BADCFE, 0x10325476, 0xC3D2E1F0⟩

def rotateLeft (x n : UInt32) : UInt32 :=
  (x <<< n) ||| (x >>> (32 - n))

/-- Big-endian bytes of the lowest `8 * size` bits of `n`. -/
def bigEndian : Nat → Nat → List UInt8
  | 0, _ => []
  | size + 1, n => UInt8.ofNat (n / 256 ^ size) :: bigEndian size n

/-- The message, a one bit, zeros up to 8 bytes short of a block, and the length in bits. -/
def pad (message : List UInt8) : List UInt8 :=
  message ++ 0x80 :: List.replicate ((119 - message.length % 64) % 64) 0
    ++ bigEndian 8 (8 * message.length)

def words : List UInt8 → List UInt32
  | b₀ :: b₁ :: b₂ :: b₃ :: rest =>
    UInt32.ofNat (((b₀.toNat * 256 + b₁.toNat) * 256 + b₂.toNat) * 256 + b₃.toNat) :: words rest
  | _ => []

/-- The message schedule, newest word first: each further word mixes four of the sixteen before. -/
def extend : Nat → List UInt32 → List UInt32
  | 0, ws => ws
  | n + 1, ws =>
    let w := rotateLeft (ws.getD 2 0 ^^^ ws.getD 7 0 ^^^ ws.getD 13 0 ^^^ ws.getD 15 0) 1
    extend n (w :: ws)

/-- The word function and the constant of round `t`. -/
def mix (t : Nat) (b c d : UInt32) : UInt32 × UInt32 :=
  if t < 20 then ((b &&& c) ||| (~~~b &&& d), 0x5A827999)
  else if t < 40 then (b ^^^ c ^^^ d, 0x6ED9EBA1)
  else if t < 60 then ((b &&& c) ||| (b &&& d) ||| (c &&& d), 0x8F1BBCDC)
  else (b ^^^ c ^^^ d, 0xCA62C1D6)

def rounds : Nat → Chain → List UInt32 → Chain
  | _, h, [] => h
  | t, h, w :: ws =>
    let (f, k) := mix t h.b h.c h.d
    rounds (t + 1) ⟨rotateLeft h.a 5 + f + h.e + k + w, h.a, rotateLeft h.b 30, h.c, h.d⟩ ws

def compress (h : Chain) (block : List UInt8) : Chain :=
  let g := rounds 0 h (extend 64 (words block).reverse).reverse
  ⟨h.a + g.a, h.b + g.b, h.c + g.c, h.d + g.d, h.e + g.e⟩

/-- Takes in `n` blocks of 64 bytes. -/
def absorb : Nat → Chain → List UInt8 → Chain
  | 0, h, _ => h
  | n + 1, h, bytes => absorb n (compress h (bytes.take 64)) (bytes.drop 64)

def wordBytes (w : UInt32) : List UInt8 :=
  [UInt8.ofNat (w.toNat / 16777216), UInt8.ofNat (w.toNat / 65536), UInt8.ofNat (w.toNat / 256),
    UInt8.ofNat w.toNat]

def digest (message : List UInt8) : List UInt8 :=
  let padded := pad message
  let h := absorb (padded.length / 64) start padded
  wordBytes h.a ++ wordBytes h.b ++ wordBytes h.c ++ wordBytes h.d ++ wordBytes h.e

@[simp] theorem digest_length (message : List UInt8) : (digest message).length = 20 := by
  simp only [digest, wordBytes, List.length_append, List.length_cons, List.length_nil]

end Sha1
end Identity
end ScreenGraph
