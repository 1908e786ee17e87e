import ScreenGraph.Json.Strings

/-!
# ScreenGraph.Proofs.Json.Strings

A written array of strings is read back, whatever the strings hold.

* `Step`, `readFrom_step`: what the reader makes of one part of an array.
* `readFrom_escapeChar`: one character, escaped or not.
* `readStrings?_writeStrings`: the whole array.
-/

namespace ScreenGraph
namespace Json

/-- A reader takes in one part of an array, and then stands elsewhere with other strings so far. -/
inductive Step : Phase → List String → List Char → Phase → List String → List Char → Prop where
  | openArray (items : List String) (rest : List Char) :
    Step .before items ('[' :: rest) .first items rest
  | closeEmpty (items : List String) (rest : List Char) :
    Step .first items (']' :: rest) .after items rest
  | openString {phase : Phase} (h : phase = .first ∨ phase = .next) (items : List String)
    (rest : List Char) : Step phase items ('"' :: rest) (.inside []) items rest
  | escaped {e c : Char} (h : escaped? e = some c) (hu : e ≠ 'u') (cs : List Char)
    (items : List String) (rest : List Char) :
    Step (.inside cs) items ('\\' :: e :: rest) (.inside (c :: cs)) items rest
  | unit {a b c d : Char} {n : Nat} (h : unit? a b c d = some n) (hlow : isLowSurrogate n = false)
    (hhigh : isHighSurrogate n = false) (cs : List Char) (items : List String)
    (rest : List Char) : Step (.inside cs) items ('\\' :: 'u' :: a :: b :: c :: d :: rest)
      (.inside (Char.ofNat n :: cs)) items rest
  | itself {c : Char} (hquote : c ≠ '"') (hslash : c ≠ '\\') (h : ¬ c.toNat < 0x20)
    (cs : List Char) (items : List String) (rest : List Char) :
    Step (.inside cs) items (c :: rest) (.inside (c :: cs)) items rest
  | closeString (cs : List Char) (items : List String) (rest : List Char) :
    Step (.inside cs) items ('"' :: rest) .between (String.ofList cs.reverse :: items) rest
  | comma (items : List String) (rest : List Char) :
    Step .between items (',' :: rest) .next items rest
  | closeArray (items : List String) (rest : List Char) :
    Step .between items (']' :: rest) .after items rest

theorem readFrom_step {phase phase' : Phase} {items items' : List String} {cs cs' : List Char}
    (h : Step phase items cs phase' items' cs') :
    readFrom phase items cs = readFrom phase' items' cs' := by
  cases h with
  | openString h =>
    rcases h with rfl | rfl
    · rfl
    · rfl
  | escaped h hu =>
    rw [readFrom]
    · rw [h]
    · intro a b c d rest' he
      exact absurd he hu
  | unit h hlow hhigh =>
    rw [readFrom]
    simp [h, hlow, hhigh]
  | itself hquote hslash h =>
    rw [readFrom]
    · rw [if_neg h]
    all_goals simp_all
  | openArray => rfl
  | closeEmpty => rfl
  | closeString => rfl
  | comma => rfl
  | closeArray => rfl

variable (items : List String) (cs rest : List Char)

theorem step_control (c : Char) (h : c.toNat < 0x20) :
    Step (.inside cs) items ('\\' :: 'u' :: '0' :: '0' :: Text.hexDigit (c.toNat / 16) ::
      Text.hexDigit (c.toNat % 16) :: rest) (.inside (c :: cs)) items rest := by
  have hhigh := Text.hexValue?_hexDigit ⟨c.toNat / 16, by omega⟩
  have hlow := Text.hexValue?_hexDigit ⟨c.toNat % 16, by omega⟩
  have hzero : Text.hexValue? '0' = some 0 := by decide
  have hvalue : c.toNat / 16 * 16 + c.toNat % 16 = c.toNat := by omega
  have hunit : unit? '0' '0' (Text.hexDigit (c.toNat / 16)) (Text.hexDigit (c.toNat % 16)) =
      some c.toNat := by
    simp only [unit?, hzero, hhigh, hlow]
    simp [hvalue]
  have hpair : isLowSurrogate c.toNat = false ∧ isHighSurrogate c.toNat = false := by
    simp [isLowSurrogate, isHighSurrogate]
    omega
  have hstep := Step.unit hunit hpair.1 hpair.2 cs items rest
  rw [Char.ofNat_toNat] at hstep
  exact hstep

/-- A character inside a string is read back from what is written for it. -/
theorem readFrom_escapeChar (c : Char) :
    readFrom (.inside cs) items (escapeChar c ++ rest) =
      readFrom (.inside (c :: cs)) items rest := by
  apply readFrom_step
  unfold escapeChar
  -- the quote, the backslash and the controls that have a letter of their own
  iterate 7
    split
    · rename_i h
      subst h
      exact .escaped rfl (by decide) _ _ _
  split
  · rename_i h
    exact step_control _ _ _ c h
  · rename_i hquote hslash _ _ _ _ _ h
    exact .itself hquote hslash h _ _ _

theorem readFrom_string (s : List Char) :
    readFrom (.inside cs) items (s.flatMap escapeChar ++ '"' :: rest) =
      readFrom .between (String.ofList (cs.reverse ++ s) :: items) rest := by
  induction s generalizing cs with
  | nil =>
    rw [List.flatMap_nil, List.nil_append, List.append_nil]
    exact readFrom_step (.closeString cs items rest)
  | cons c s ih =>
    rw [List.flatMap_cons, List.append_assoc, readFrom_escapeChar, ih, List.reverse_cons,
      List.append_assoc, List.singleton_append]

theorem readFrom_quoteChars {phase : Phase} (h : phase = .first ∨ phase = .next) (s : List Char) :
    readFrom phase items (quoteChars s ++ rest) =
      readFrom .between (String.ofList s :: items) rest := by
  have hchars : quoteChars s ++ rest = '"' :: (s.flatMap escapeChar ++ '"' :: rest) := by
    simp [quoteChars]
  rw [hchars, readFrom_step (.openString h items _), readFrom_string]
  rfl

/-- The strings from one on, and the bracket that closes the array. -/
theorem readFrom_items {phase : Phase} (h : phase = .first ∨ phase = .next) (s : String)
    (ss : List String) :
    readFrom phase items
        (Text.joinChars ',' ((s :: ss).map fun s => quoteChars s.toList) ++ [']']) =
      some (items.reverse ++ s :: ss) := by
  induction ss generalizing phase items s with
  | nil =>
    have hend : readFrom .after (s :: items) [] = some (s :: items).reverse := rfl
    rw [List.map_singleton, Text.joinChars, readFrom_quoteChars _ _ h, String.ofList_toList,
      readFrom_step (.closeArray _ _), hend, List.reverse_cons]
  | cons t ss ih =>
    have hrest := ih (s :: items) (.inr rfl) t
    rw [List.map_cons] at hrest
    rw [List.map_cons, List.map_cons, Text.joinChars, List.append_assoc, readFrom_quoteChars _ _ h,
      String.ofList_toList, List.cons_append, readFrom_step (.comma _ _), hrest,
      List.reverse_cons, List.append_assoc, List.singleton_append]

theorem readStrings?_writeStrings (items : List String) :
    readStrings? (writeStrings items) = some items := by
  have hchars : (writeStrings items).toList =
      '[' :: (Text.joinChars ',' (items.map fun s => quoteChars s.toList) ++ [']']) := by
    simp [writeStrings]
  rw [readStrings?, hchars, readFrom_step (.openArray _ _)]
  cases items with
  | nil => rfl
  | cons s ss => exact readFrom_items [] (.inl rfl) s ss

end Json
end ScreenGraph
