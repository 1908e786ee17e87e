/-!
# ScreenGraph.Text.Blank

Blank characters (the Unicode property White_Space) and trimming.

Every field of a record is read through `trim`, so that padding around an id, a flag or a number
never changes what it denotes.

* `trim_eq_self`: a text whose two ends are not blank is left alone.
-/

namespace ScreenGraph
namespace Text

/-- White_Space: the ASCII controls 9 to 13, the space, and the wide and line-breaking blanks. -/
def isBlank (c : Char) : Bool :=
  let n := c.toNat
  (9 ≤ n && n ≤ 13) || n == 0x20 || n == 0x85 || n == 0xA0 || n == 0x1680 ||
    (0x2000 ≤ n && n ≤ 0x200A) || n == 0x2028 || n == 0x2029 || n == 0x202F || n == 0x205F ||
    n == 0x3000

/-- The characters left when the blanks at both ends are gone. -/
def trimChars (cs : List Char) : List Char :=
  (((cs.dropWhile isBlank).reverse).dropWhile isBlank).reverse

def trim (s : String) : String :=
  String.ofList (trimChars s.toList)

/-- A text with nothing but blanks. -/
def blank (s : String) : Bool :=
  s.toList.all isBlank

theorem trimChars_eq_self {cs : List Char} (first : ∀ c ∈ cs.head?, isBlank c = false)
    (last : ∀ c ∈ cs.getLast?, isBlank c = false) : trimChars cs = cs := by
  have front : ∀ l : List Char, (∀ c ∈ l.head?, isBlank c = false) → l.dropWhile isBlank = l := by
    intro l h
    cases l with
    | nil => rfl
    | cons c r => simp [h c (by simp)]
  rw [trimChars, front cs first, front cs.reverse (by simpa using last), List.reverse_reverse]

theorem trim_eq_self {s : String} (first : ∀ c ∈ s.toList.head?, isBlank c = false)
    (last : ∀ c ∈ s.toList.getLast?, isBlank c = false) : trim s = s := by
  rw [trim, trimChars_eq_self first last, String.ofList_toList]

end Text
end ScreenGraph
