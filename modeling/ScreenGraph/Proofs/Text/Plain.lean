import ScreenGraph.Identity.Ident
import ScreenGraph.Proofs.Text.Fields
import ScreenGraph.Screen.Bounds

/-!
# ScreenGraph.Proofs.Text.Plain

Texts that never need quoting: ids, flags, numbers and rectangles.

A plain character is an ASCII letter, a digit or a hyphen. What is written in plain characters has
no blanks to lose, cannot hold a separator that is not plain, and is read back as it was meant.

* `trim_plain`: trimming leaves plain text alone.
* `Ident.read?_text`: an id is read back.
* `readInt32_integerText`, `readInt64_integerText`: a number is read back.
* `Bounds.read_text`: a rectangle is read back.
-/

namespace ScreenGraph
namespace Text

def isPlain (c : Char) : Bool :=
  c.isAlphanum || c == '-'

theorem toNat_of_isPlain {c : Char} (h : isPlain c = true) :
    (48 ≤ c.toNat ∧ c.toNat ≤ 57) ∨ (65 ≤ c.toNat ∧ c.toNat ≤ 90) ∨
      (97 ≤ c.toNat ∧ c.toNat ≤ 122) ∨ c.toNat = 45 := by
  have hranges : isPlain c = ((decide ('A'.val ≤ c.val ∧ c.val ≤ 'Z'.val) ||
      decide ('a'.val ≤ c.val) && decide (c.val ≤ 'z'.val)) ||
        decide ('0'.val ≤ c.val) && decide (c.val ≤ '9'.val) || c == '-') := rfl
  simp only [hranges, Bool.or_eq_true, Bool.and_eq_true, decide_eq_true_eq, beq_iff_eq,
    UInt32.le_iff_toNat_le] at h
  change (((65 ≤ c.toNat ∧ c.toNat ≤ 90) ∨ (97 ≤ c.toNat ∧ c.toNat ≤ 122)) ∨
    (48 ≤ c.toNat ∧ c.toNat ≤ 57)) ∨ c = '-' at h
  rcases h with ((h | h) | h) | rfl
  · omega
  · omega
  · omega
  · decide

theorem isBlank_of_isPlain {c : Char} (h : isPlain c = true) : isBlank c = false := by
  have hrange := toNat_of_isPlain h
  simp [isBlank]
  omega

/-- Fixed texts are checked by computing. -/
theorem plain_of_all {s : String} (h : s.toList.all isPlain = true) :
    ∀ c ∈ s.toList, isPlain c = true :=
  List.all_eq_true.1 h

theorem trim_of_notBlank {s : String} (h : ∀ c ∈ s.toList, isBlank c = false) : trim s = s :=
  trim_eq_self (fun c hc => h c (List.mem_of_mem_head? hc))
    (fun c hc => h c (List.mem_of_getLast? hc))

theorem trim_plain {s : String} (h : ∀ c ∈ s.toList, isPlain c = true) : trim s = s :=
  trim_of_notBlank fun c hc => isBlank_of_isPlain (h c hc)

theorem fits_plain {sep : Char} {s : String} (hsep : isPlain sep = false)
    (h : ∀ c ∈ s.toList, isPlain c = true) : Fits sep s := by
  refine ⟨?_, ?_⟩
  · intro hmem
    rw [h sep hmem] at hsep
    cases hsep
  · intro hmem
    cases h _ hmem

theorem head?_dropWhile_isBlank {cs : List Char} {c : Char}
    (h : c ∈ (cs.dropWhile isBlank).head?) : isBlank c = false := by
  have hnot := List.head?_dropWhile_not isBlank cs
  rw [Option.mem_def.1 h] at hnot
  exact hnot

/-- What is trimmed has no blank at its ends. -/
theorem trim_trim (s : String) : trim (trim s) = trim s := by
  generalize hfront : s.toList.dropWhile isBlank = front
  generalize hback : front.reverse.dropWhile isBlank = back
  have hchars : (trim s).toList = back.reverse := by
    rw [trim, String.toList_ofList, trimChars, hfront, hback]
  have hsplit : front = back.reverse ++ (front.reverse.takeWhile isBlank).reverse := by
    rw [← List.reverse_append, ← hback, List.takeWhile_append_dropWhile, List.reverse_reverse]
  refine trim_eq_self ?_ ?_
  · intro c hc
    have hmem : c ∈ (s.toList.dropWhile isBlank).head? := by
      rw [hchars] at hc
      rw [hfront, hsplit, List.head?_append, Option.mem_def.1 hc]
      rfl
    exact head?_dropWhile_isBlank hmem
  · intro c hc
    rw [hchars, List.getLast?_reverse, ← hback] at hc
    exact head?_dropWhile_isBlank hc

/-! ## Numbers -/

theorem digitValue?_digitChar {n : Nat} (h : n < 10) : digitValue? n.digitChar = some n := by
  have hall : ∀ m : Fin 10, digitValue? m.val.digitChar = some m.val := by decide
  exact hall ⟨n, h⟩

theorem readDigits_append (limit : Nat) (overflow : IntegerError) (acc : Nat) (cs ds : List Char) :
    readDigits limit overflow acc (cs ++ ds) =
      (readDigits limit overflow acc cs).bind fun acc => readDigits limit overflow acc ds := by
  induction cs generalizing acc with
  | nil => rfl
  | cons c cs ih =>
    simp only [List.cons_append, readDigits]
    split
    · rfl
    · split
      · exact ih _
      · rfl

theorem readDigits_toDigits (limit n : Nat) (overflow : IntegerError) (h : n ≤ limit) :
    readDigits limit overflow 0 (Nat.toDigits 10 n) = .ok n := by
  induction n using Nat.strongRecOn with
  | _ n ih =>
    rw [Nat.toDigits_eq_if (by decide)]
    split
    · rename_i hlt
      simp [readDigits, digitValue?_digitChar hlt, h]
    · rename_i hge
      have hrest := ih (n / 10) (by omega) (by omega)
      have hvalue : 10 * (n / 10) + n % 10 = n := Nat.div_add_mod n 10
      rw [readDigits_append, hrest]
      simp only [Except.bind, readDigits, digitValue?_digitChar (Nat.mod_lt n (by decide)), hvalue,
        if_pos h]

theorem isPlain_of_isDigit {c : Char} (h : c.isDigit = true) : isPlain c = true := by
  simp [isPlain, Char.isAlphanum, h]

theorem integerText_plain (n : Int) : ∀ c ∈ (integerText n).toList, isPlain c = true := by
  have hdigits : ∀ m, ∀ c ∈ Nat.toDigits 10 m, isPlain c = true := by
    intro m c hc
    exact isPlain_of_isDigit (Nat.isDigit_of_mem_toDigits (by decide) (by decide) hc)
  intro c hc
  cases n with
  | ofNat m =>
    simp only [integerText, String.toList_ofList] at hc
    exact hdigits m c hc
  | negSucc m =>
    simp only [integerText, String.toList_ofList] at hc
    rcases List.mem_cons.1 hc with rfl | hc
    · rfl
    · exact hdigits _ c hc

theorem readInteger_integerText {low high : Nat} {n : Int} (hlow : -(low : Int) ≤ n)
    (hhigh : n ≤ high) : readInteger (some low) high (integerText n) = .ok n := by
  cases n with
  | ofNat m =>
    have hread := readDigits_toDigits _ m .tooLarge (Int.ofNat_le.1 hhigh)
    have hdigits := fun c (hc : c ∈ Nat.toDigits 10 m) =>
      Nat.isDigit_of_mem_toDigits (by decide) (by decide) hc
    have hne : Nat.toDigits 10 m ≠ [] := Nat.toDigits_ne_nil
    simp only [integerText, readInteger, String.toList_ofList]
    generalize Nat.toDigits 10 m = ds at *
    split
    · exact absurd rfl hne
    · exact absurd (hdigits '+' (by simp)) (by decide)
    · exact absurd (hdigits '-' (by simp)) (by decide)
    · exact absurd (hdigits '+' (by simp)) (by decide)
    · exact absurd (hdigits '-' (by simp)) (by decide)
    · rw [hread]
      rfl
  | negSucc m =>
    have hread := readDigits_toDigits low (m + 1) .tooSmall (by omega)
    have hne : Nat.toDigits 10 (m + 1) ≠ [] := Nat.toDigits_ne_nil
    simp only [integerText, readInteger, String.toList_ofList]
    generalize Nat.toDigits 10 (m + 1) = ds at *
    cases ds with
    | nil => exact absurd rfl hne
    | cons d ds =>
      simp only [hread]
      rfl

theorem readInt32_integerText (n : Int32) : readInt32 (integerText n.toInt) = .ok n := by
  have hlow := n.le_toInt
  have hhigh := n.toInt_lt
  rw [readInt32,
    readInteger_integerText (by simp [UInt32.size]; omega) (by simp [UInt32.size]; omega)]
  simp [Except.map]

theorem readInt64_integerText (n : Int64) : readInt64 (integerText n.toInt) = .ok n := by
  have hlow := n.le_toInt
  have hhigh := n.toInt_lt
  rw [readInt64,
    readInteger_integerText (by simp [UInt64.size]; omega) (by simp [UInt64.size]; omega)]
  simp [Except.map]

end Text

/-! ## Ids -/

namespace Identity

open Text

theorem hexDigit_plain (n : Nat) (h : n < 16) : isPlain (hexDigit n) = true := by
  have hall : ∀ m : Fin 16, isPlain (hexDigit m.val) = true := by decide
  exact hall ⟨n, h⟩

theorem hexBytes_plain (bytes : List UInt8) : ∀ c ∈ hexBytes bytes, isPlain c = true := by
  intro c hc
  obtain ⟨b, -, hb⟩ := List.mem_flatMap.1 hc
  have hlt := b.toNat_lt
  rcases List.mem_cons.1 hb with rfl | hb
  · exact hexDigit_plain _ (by omega)
  · rw [List.mem_singleton.1 hb]
    exact hexDigit_plain _ (by omega)

theorem readHexBytes?_hexBytes (bytes : List UInt8) :
    readHexBytes? (hexBytes bytes) = some bytes := by
  induction bytes with
  | nil => rfl
  | cons b bytes ih =>
    have hlt := b.toNat_lt
    have hhigh := hexValue?_hexDigit ⟨b.toNat / 16, by omega⟩
    have hlow := hexValue?_hexDigit ⟨b.toNat % 16, by omega⟩
    have hvalue : 16 * (b.toNat / 16) + b.toNat % 16 = b.toNat := by omega
    have hcons : hexBytes (b :: bytes) =
      hexDigit (b.toNat / 16) :: hexDigit (b.toNat % 16) :: hexBytes bytes := rfl
    rw [hcons, readHexBytes?]
    simp only [hhigh, hlow, ih, hvalue, UInt8.ofNat_toNat]

theorem hexBytes_length (bytes : List UInt8) : (hexBytes bytes).length = 2 * bytes.length := by
  induction bytes with
  | nil => rfl
  | cons b bytes ih =>
    have hcons : hexBytes (b :: bytes) =
      hexDigit (b.toNat / 16) :: hexDigit (b.toNat % 16) :: hexBytes bytes := rfl
    rw [hcons, List.length_cons, List.length_cons, List.length_cons, ih]
    omega

namespace Uuid

/-- The id whose last digit is a one and whose other digits are zeros. -/
theorem length_bytes_one : (List.replicate 15 0 ++ [1] : List UInt8).length = 16 :=
  rfl

theorem chars_length (u : Uuid) : u.chars.length = 36 := by
  have := u.length_eq
  simp only [chars, List.length_append, List.length_cons, hexBytes_length, List.length_take,
    List.length_drop]
  omega

theorem chars_plain (u : Uuid) : ∀ c ∈ u.chars, isPlain c = true := by
  have hhyphen : isPlain '-' = true := rfl
  intro c hc
  simp only [chars, List.mem_append, List.mem_cons] at hc
  rcases hc with (((hc | rfl | hc) | rfl | hc) | rfl | hc) | rfl | hc
  all_goals first | exact hexBytes_plain _ c hc | exact hhyphen

theorem readPlain?_hexBytes (u : Uuid) : readPlain? (hexBytes u.bytes) = some u := by
  rw [readPlain?, readHexBytes?_hexBytes, Option.bind_some, ofBytes?, dif_pos u.length_eq]

theorem hexBytes_append (as bs : List UInt8) : hexBytes (as ++ bs) = hexBytes as ++ hexBytes bs :=
  List.flatMap_append

theorem readHyphenated?_chars (u : Uuid) : readHyphenated? u.chars = some u := by
  have hlen := u.length_eq
  generalize ha : hexBytes (u.bytes.take 4) = a
  generalize hb : hexBytes ((u.bytes.drop 4).take 2) = b
  generalize hc : hexBytes ((u.bytes.drop 6).take 2) = c
  generalize hd : hexBytes ((u.bytes.drop 8).take 2) = d
  generalize he : hexBytes (u.bytes.drop 10) = e
  have hla : a.length = 8 := by rw [← ha, hexBytes_length, List.length_take]; omega
  have hlb : b.length = 4 := by rw [← hb, hexBytes_length]; simp; omega
  have hlc : c.length = 4 := by rw [← hc, hexBytes_length]; simp; omega
  have hld : d.length = 4 := by rw [← hd, hexBytes_length]; simp; omega
  have hchars : u.chars = a ++ '-' :: (b ++ '-' :: (c ++ '-' :: (d ++ '-' :: e))) := by
    simp only [chars, ha, hb, hc, hd, he, List.append_assoc, List.cons_append]
  have hdrop : ∀ (f : List Char) (n : Nat) (rest : List Char), f.length = n →
      ('-' :: (f ++ rest)).drop (n + 1) = rest := by
    intro f n rest hf
    rw [List.drop_succ_cons, List.drop_left' hf]
  have h₈ : u.chars.drop 8 = '-' :: (b ++ '-' :: (c ++ '-' :: (d ++ '-' :: e))) := by
    rw [hchars, List.drop_left' hla]
  have h₁₃ : u.chars.drop 13 = '-' :: (c ++ '-' :: (d ++ '-' :: e)) := by
    rw [← List.drop_drop (i := 5) (j := 8), h₈, hdrop b 4 _ hlb]
  have h₁₈ : u.chars.drop 18 = '-' :: (d ++ '-' :: e) := by
    rw [← List.drop_drop (i := 5) (j := 13), h₁₃, hdrop c 4 _ hlc]
  have h₂₃ : u.chars.drop 23 = '-' :: e := by
    rw [← List.drop_drop (i := 5) (j := 18), h₁₈, hdrop d 4 _ hld]
  have hbytes : a ++ b ++ c ++ d ++ e = hexBytes u.bytes := by
    have hsplit : u.bytes.take 4 ++ (u.bytes.drop 4).take 2 ++ (u.bytes.drop 6).take 2 ++
        (u.bytes.drop 8).take 2 ++ u.bytes.drop 10 = u.bytes := by
      have hnext : ∀ n, (u.bytes.drop n).take 2 ++ u.bytes.drop (n + 2) = u.bytes.drop n := by
        intro n
        rw [← List.drop_drop, List.take_append_drop]
      rw [List.append_assoc, hnext 8, List.append_assoc, hnext 6, List.append_assoc, hnext 4,
        List.take_append_drop]
    rw [← ha, ← hb, ← hc, ← hd, ← he, ← hexBytes_append, ← hexBytes_append, ← hexBytes_append,
      ← hexBytes_append, hsplit]
  unfold readHyphenated?
  rw [h₈, h₁₃, h₁₈, h₂₃]
  show readPlain? (u.chars.take 8 ++ (b ++ '-' :: (c ++ '-' :: (d ++ '-' :: e))).take 4 ++
    (c ++ '-' :: (d ++ '-' :: e)).take 4 ++ (d ++ '-' :: e).take 4 ++ e) = some u
  rw [List.take_left' hlb, List.take_left' hlc, List.take_left' hld]
  have hhead : u.chars.take 8 = a := by rw [hchars, List.take_left' hla]
  rw [hhead, hbytes, readPlain?_hexBytes]

theorem read?_text (u : Uuid) : read? u.text = some u := by
  have hlen := u.chars_length
  unfold read? text
  simp only [String.toList_ofList, hlen, readHyphenated?_chars]

end Uuid

namespace Ident

variable {kind : Kind}

theorem text_length (i : Ident kind) : i.text.toList.length = 36 := by
  rw [text, Uuid.text, String.toList_ofList]
  exact i.uuid.chars_length

theorem text_plain (i : Ident kind) : ∀ c ∈ i.text.toList, isPlain c = true := by
  rw [text, Uuid.text, String.toList_ofList]
  exact i.uuid.chars_plain

theorem fits {sep : Char} (hsep : isPlain sep = false) (i : Ident kind) : Fits sep i.text :=
  fits_plain hsep i.text_plain

theorem trim_text (i : Ident kind) : trim i.text = i.text :=
  trim_plain i.text_plain

theorem read?_text (i : Ident kind) : read? i.text = some i := by
  rw [read?, trim_text, text, Uuid.read?_text]
  rfl

theorem text_injective {i j : Ident kind} (h : i.text = j.text) : i = j := by
  have hi := i.read?_text
  rw [h, j.read?_text] at hi
  exact (Option.some.inj hi).symm

theorem text_ne_empty (i : Ident kind) : i.text ≠ "" := by
  intro h
  have hlen := i.uuid.chars_length
  have hchars : i.text.toList = i.uuid.chars := by rw [text, Uuid.text, String.toList_ofList]
  rw [← hchars, h] at hlen
  cases hlen

end Ident
end Identity

/-! ## Rectangles -/

namespace Screen.Bounds

open Text

theorem readPart_text (n : Int32) : readPart (integerText n.toInt) = .ok n := by
  rw [readPart, trim_plain (integerText_plain _), readInt32_integerText]
  rfl

/-- A number has no colon in it, so that the four of them are found again. -/
theorem read_text (b : Bounds) : read b.text = .ok b := by
  have hcolon : ∀ n : Int, ':' ∉ (integerText n).toList := by
    intro n hmem
    have := integerText_plain n ':' hmem
    cases this
  let numbers := [b.x, b.y, b.width, b.height].map fun n => integerText n.toInt
  have htext : b.text = join ':' numbers := rfl
  have hblank : ∀ c ∈ b.text.toList, isBlank c = false := by
    intro c hc
    rw [htext, join, String.toList_ofList] at hc
    rcases mem_joinChars hc with rfl | ⟨f, hf, hc⟩
    · decide
    · obtain ⟨s, hs, rfl⟩ := List.mem_map.1 hf
      obtain ⟨n, -, rfl⟩ := List.mem_map.1 hs
      exact isBlank_of_isPlain (integerText_plain _ c hc)
  have hsplit : splitAll b.text ':' = numbers := by
    rw [htext]
    refine splitAll_join (by simp [numbers]) fun f hf => ?_
    obtain ⟨n, -, rfl⟩ := List.mem_map.1 hf
    exact hcolon _
  rw [read, trim_of_notBlank hblank, hsplit]
  simp only [numbers, List.map_cons, List.map_nil]
  simp only [readPart_text]
  rfl

end Screen.Bounds
end ScreenGraph
