/-!
# ScreenGraph.Text.Integer

Decimal integers within fixed limits.

A text is an optional sign and at least one ASCII digit; a minus sign counts only where negative
numbers are allowed. Characters are taken from the left, and the first one that cannot be used
decides the error: it is no digit, or the value so far leaves the limits.
-/

namespace ScreenGraph
namespace Text

inductive IntegerError where
  | empty
  | invalidDigit
  | tooLarge
  | tooSmall
deriving DecidableEq

def IntegerError.message : IntegerError → String
  | .empty => "cannot parse integer from empty string"
  | .invalidDigit => "invalid digit found in string"
  | .tooLarge => "number too large to fit in target type"
  | .tooSmall => "number too small to fit in target type"

def digitValue? (c : Char) : Option Nat :=
  if '0' ≤ c ∧ c ≤ '9' then some (c.toNat - '0'.toNat) else none

/-- Appends the digits to `acc`; `overflow` is the error of a value above `limit`. -/
def readDigits (limit : Nat) (overflow : IntegerError) : Nat → List Char → Except IntegerError Nat
  | acc, [] => .ok acc
  | acc, c :: cs =>
    match digitValue? c with
    | none => .error .invalidDigit
    | some d =>
      if 10 * acc + d ≤ limit then readDigits limit overflow (10 * acc + d) cs
      else .error overflow

/-- An integer up to `high`, and down to `-low` when `low` is given. -/
def readInteger (low : Option Nat) (high : Nat) (s : String) : Except IntegerError Int :=
  match s.toList, low with
  | [], _ => .error .empty
  | ['+'], _ => .error .invalidDigit
  | ['-'], _ => .error .invalidDigit
  | '+' :: ds, _ => (readDigits high .tooLarge 0 ds).map Int.ofNat
  | '-' :: ds, some low => (readDigits low .tooSmall 0 ds).map fun n => -(Int.ofNat n)
  | ds, _ => (readDigits high .tooLarge 0 ds).map Int.ofNat

def readInt32 (s : String) : Except IntegerError Int32 :=
  (readInteger (some (UInt32.size / 2)) (UInt32.size / 2 - 1) s).map Int32.ofInt

def readInt64 (s : String) : Except IntegerError Int64 :=
  (readInteger (some (UInt64.size / 2)) (UInt64.size / 2 - 1) s).map Int64.ofInt

/-- A count below `2 ^ 64`. -/
def readCount (s : String) : Except IntegerError Nat :=
  (readInteger none (UInt64.size - 1) s).map Int.toNat

/-- Decimal digits, with a minus sign in front of a negative number. -/
def integerText : Int → String
  | .ofNat n => String.ofList (Nat.toDigits 10 n)
  | .negSucc n => String.ofList ('-' :: Nat.toDigits 10 (n + 1))

def countText (n : Nat) : String :=
  String.ofList (Nat.toDigits 10 n)

end Text
end ScreenGraph
