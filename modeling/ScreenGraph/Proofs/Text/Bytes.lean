import ScreenGraph.Text.Utf8

/-!
# ScreenGraph.Proofs.Text.Bytes

Written text is decoded to itself, and ASCII characters are their own bytes.

* `decode_utf8`: decoding gives back what was encoded.
* `decode_eq_ok_iff`: nothing else is decoded.
* `mem_encode_ascii`: a byte below 128 comes from the character with its code point.
* `lineFeed_of_decode`: a line feed in a decoded text was one among the bytes.
-/

namespace ScreenGraph
namespace Text

theorem encode_append (as bs : List Char) : encode (as ++ bs) = encode as ++ encode bs := by
  simp [encode]

theorem utf8_append (s t : String) : utf8 (s ++ t) = utf8 s ++ utf8 t := by
  simp [utf8, encode_append]

/-! ## Sequences of one to four bytes -/

theorem toNat_byte {n : Nat} (h : n < 256) : (UInt8.ofNat n).toNat = n := by
  rw [UInt8.toNat_ofNat']
  omega

theorem isTail_iff {b : UInt8} : isTail b = true ↔ 128 ≤ b.toNat ∧ b.toNat ≤ 191 := by
  simp [isTail, UInt8.le_iff_toNat_le]

/-- Second bytes that begin no overlong form, no surrogate and nothing past the last code point. -/
theorem isSecond_iff {b b₁ : UInt8} : isSecond b b₁ = true ↔
    (128 ≤ b₁.toNat ∧ b₁.toNat ≤ 191) ∧ (b.toNat = 224 → 160 ≤ b₁.toNat) ∧
      (b.toNat = 237 → b₁.toNat ≤ 159) ∧ (b.toNat = 240 → 144 ≤ b₁.toNat) ∧
      (b.toNat = 244 → b₁.toNat ≤ 143) := by
  unfold isSecond
  simp only [← UInt8.toNat_inj, UInt8.toNat_ofNat, UInt8.le_iff_toNat_le]
  split
  · simp; omega
  split
  · simp; omega
  split
  · simp; omega
  split
  · simp; omega
  · simp [isTail_iff]; omega

section

variable (index : Nat) {b b₁ b₂ b₃ : UInt8} (rest : List UInt8)

theorem decodeFrom_one (h : b.toNat < 128) :
    decodeFrom index (b :: rest) =
      (decodeFrom (index + 1) rest).map (Char.ofNat b.toNat :: ·) := by
  have hb : b < 0x80 := h
  conv => lhs; unfold decodeFrom
  rw [if_pos hb]

theorem decodeFrom_two (h : 194 ≤ b.toNat) (h' : b.toNat ≤ 223) (h₁ : isTail b₁ = true) :
    decodeFrom index (b :: b₁ :: rest) =
      (decodeFrom (index + 2) rest).map
        (Char.ofNat (b.toNat % 32 * 64 + tailBits b₁) :: ·) := by
  have hb : ¬ b.toNat < 128 := by omega
  conv => lhs; unfold decodeFrom
  simp [UInt8.lt_iff_toNat_lt, UInt8.le_iff_toNat_le, hb, h, h', h₁]

theorem decodeFrom_three (h : 224 ≤ b.toNat) (h' : b.toNat ≤ 239) (h₁ : isSecond b b₁ = true)
    (h₂ : isTail b₂ = true) :
    decodeFrom index (b :: b₁ :: b₂ :: rest) =
      (decodeFrom (index + 3) rest).map
        (Char.ofNat (b.toNat % 16 * 4096 + tailBits b₁ * 64 + tailBits b₂) :: ·) := by
  have hb : ¬ b.toNat < 128 := by omega
  have hb' : ¬ b.toNat ≤ 223 := by omega
  conv => lhs; unfold decodeFrom
  simp [UInt8.lt_iff_toNat_lt, UInt8.le_iff_toNat_le, hb, hb', h, h', h₁, h₂]

theorem decodeFrom_four (h : 240 ≤ b.toNat) (h' : b.toNat ≤ 244) (h₁ : isSecond b b₁ = true)
    (h₂ : isTail b₂ = true) (h₃ : isTail b₃ = true) :
    decodeFrom index (b :: b₁ :: b₂ :: b₃ :: rest) =
      (decodeFrom (index + 4) rest).map
        (Char.ofNat (b.toNat % 8 * 262144 + tailBits b₁ * 4096 + tailBits b₂ * 64 + tailBits b₃)
          :: ·) := by
  have hb : ¬ b.toNat < 128 := by omega
  have hb' : ¬ b.toNat ≤ 223 := by omega
  have hb'' : ¬ b.toNat ≤ 239 := by omega
  conv => lhs; unfold decodeFrom
  simp [UInt8.lt_iff_toNat_lt, UInt8.le_iff_toNat_le, hb, hb', hb'', h, h', h₁, h₂, h₃]

end

/-! ## Decoding what was encoded -/

/-- Every encoded character is decoded to itself, and the bytes behind it are decoded next. -/
theorem decodeFrom_char (index : Nat) (c : Char) (rest : List UInt8) :
    ∃ next, decodeFrom index (String.utf8EncodeChar c ++ rest) =
      (decodeFrom next rest).map (c :: ·) := by
  have hvalid : c.toNat < 0xD800 ∨ (0xDFFF < c.toNat ∧ c.toNat < 0x110000) := c.valid
  have hchar : ∀ n, n = c.toNat → Char.ofNat n = c := by
    intro n hn
    rw [hn, Char.ofNat_toNat]
  have hval : c.val.toNat = c.toNat := rfl
  unfold String.utf8EncodeChar
  rw [hval]
  generalize c.toNat = n at *
  dsimp only
  split
  · have hb := toNat_byte (n := n) (by omega)
    refine ⟨index + 1, ?_⟩
    rw [List.singleton_append, decodeFrom_one index rest (by omega), hchar _ hb]
  split
  · have hb := toNat_byte (n := n / 64 % 32 + 192) (by omega)
    have hb₁ := toNat_byte (n := n % 64 + 128) (by omega)
    refine ⟨index + 2, ?_⟩
    rw [List.cons_append, List.singleton_append, decodeFrom_two index rest (by omega) (by omega)
      (isTail_iff.2 (by omega)), hchar]
    rw [tailBits]
    omega
  split
  · have hb := toNat_byte (n := n / 4096 % 16 + 224) (by omega)
    have hb₁ := toNat_byte (n := n / 64 % 64 + 128) (by omega)
    have hb₂ := toNat_byte (n := n % 64 + 128) (by omega)
    refine ⟨index + 3, ?_⟩
    rw [List.cons_append, List.cons_append, List.singleton_append,
      decodeFrom_three index rest (by omega) (by omega) (isSecond_iff.2 (by omega))
      (isTail_iff.2 (by omega)), hchar]
    rw [tailBits, tailBits]
    omega
  · have hb := toNat_byte (n := n / 262144 % 8 + 240) (by omega)
    have hb₁ := toNat_byte (n := n / 4096 % 64 + 128) (by omega)
    have hb₂ := toNat_byte (n := n / 64 % 64 + 128) (by omega)
    have hb₃ := toNat_byte (n := n % 64 + 128) (by omega)
    refine ⟨index + 4, ?_⟩
    rw [List.cons_append, List.cons_append, List.cons_append, List.singleton_append,
      decodeFrom_four index rest (by omega) (by omega) (isSecond_iff.2 (by omega))
      (isTail_iff.2 (by omega)) (isTail_iff.2 (by omega)), hchar]
    rw [tailBits, tailBits, tailBits]
    omega

theorem decodeFrom_encode (index : Nat) (cs : List Char) :
    decodeFrom index (encode cs) = .ok cs := by
  induction cs generalizing index with
  | nil => rfl
  | cons c cs ih =>
    obtain ⟨next, h⟩ := decodeFrom_char index c (encode cs)
    have hcons : encode (c :: cs) = String.utf8EncodeChar c ++ encode cs := by simp [encode]
    rw [hcons, h, ih]
    rfl

theorem decode_utf8 (s : String) : decode (utf8 s) = .ok s := by
  rw [decode, utf8, decodeFrom_encode]
  exact congrArg Except.ok String.ofList_toList

/-! ## Encoding what was decoded -/

theorem toNat_ofNat_valid {n : Nat} (h : n < 0xD800 ∨ (0xDFFF < n ∧ n < 0x110000)) :
    (Char.ofNat n).val.toNat = n := by
  have hvalid : n.isValidChar := h
  rw [Char.ofNat, dif_pos hvalid]
  rfl

section

variable {b b₁ b₂ b₃ : UInt8}

theorem byte_eq {n : Nat} (h : n = b.toNat) : UInt8.ofNat n = b := by
  rw [h, UInt8.ofNat_toNat]

theorem encodeChar_one (h : b.toNat < 128) :
    String.utf8EncodeChar (Char.ofNat b.toNat) = [b] := by
  unfold String.utf8EncodeChar
  rw [toNat_ofNat_valid (by omega)]
  dsimp only
  rw [if_pos (by omega), byte_eq rfl]

theorem encodeChar_two (h : 194 ≤ b.toNat) (h' : b.toNat ≤ 223) (h₁ : isTail b₁ = true) :
    String.utf8EncodeChar (Char.ofNat (b.toNat % 32 * 64 + tailBits b₁)) = [b, b₁] := by
  have hb₁ := isTail_iff.1 h₁
  unfold String.utf8EncodeChar tailBits
  rw [toNat_ofNat_valid (by omega)]
  dsimp only
  rw [if_neg (by omega), if_pos (by omega), byte_eq (b := b) (by omega),
    byte_eq (b := b₁) (by omega)]

theorem encodeChar_three (h : 224 ≤ b.toNat) (h' : b.toNat ≤ 239) (h₁ : isSecond b b₁ = true)
    (h₂ : isTail b₂ = true) :
    String.utf8EncodeChar
      (Char.ofNat (b.toNat % 16 * 4096 + tailBits b₁ * 64 + tailBits b₂)) = [b, b₁, b₂] := by
  have hb₁ := isSecond_iff.1 h₁
  have hb₂ := isTail_iff.1 h₂
  unfold String.utf8EncodeChar tailBits
  rw [toNat_ofNat_valid (by omega)]
  dsimp only
  rw [if_neg (by omega), if_neg (by omega), if_pos (by omega), byte_eq (b := b) (by omega),
    byte_eq (b := b₁) (by omega), byte_eq (b := b₂) (by omega)]

theorem encodeChar_four (h : 240 ≤ b.toNat) (h' : b.toNat ≤ 244) (h₁ : isSecond b b₁ = true)
    (h₂ : isTail b₂ = true) (h₃ : isTail b₃ = true) :
    String.utf8EncodeChar
      (Char.ofNat (b.toNat % 8 * 262144 + tailBits b₁ * 4096 + tailBits b₂ * 64 + tailBits b₃)) =
        [b, b₁, b₂, b₃] := by
  have hb₁ := isSecond_iff.1 h₁
  have hb₂ := isTail_iff.1 h₂
  have hb₃ := isTail_iff.1 h₃
  unfold String.utf8EncodeChar tailBits
  rw [toNat_ofNat_valid (by omega)]
  dsimp only
  rw [if_neg (by omega), if_neg (by omega), if_neg (by omega), byte_eq (b := b) (by omega),
    byte_eq (b := b₁) (by omega), byte_eq (b := b₂) (by omega), byte_eq (b := b₃) (by omega)]

end

/-- The first character and the others are encoded to what they were decoded from. -/
theorem encode_of_map {c : Char} {r : Except Utf8Error (List Char)} {cs : List Char}
    {first rest : List UInt8} (h : r.map (c :: ·) = .ok cs)
    (hfirst : String.utf8EncodeChar c = first) (hrest : ∀ ds, r = .ok ds → encode ds = rest) :
    encode cs = first ++ rest := by
  cases r with
  | error e => cases h
  | ok ds =>
    cases h
    rw [← hfirst, ← hrest ds rfl]
    rfl

theorem encode_of_decodeFrom {index : Nat} {bytes : List UInt8} {cs : List Char}
    (h : decodeFrom index bytes = .ok cs) : encode cs = bytes := by
  fun_induction decodeFrom index bytes generalizing cs
  case case1 =>
    cases h
    rfl
  case case2 index b rest hb ih =>
    exact encode_of_map h (encodeChar_one hb) fun ds hds => ih hds
  case case4 index b hb hrange b₁ rest h₁ ih =>
    simp only [Bool.and_eq_true, decide_eq_true_eq, UInt8.le_iff_toNat_le] at hrange
    exact encode_of_map h (encodeChar_two hrange.1 hrange.2 h₁) fun ds hds => ih hds
  case case8 index b hb hb' hrange b₁ h₁ b₂ rest h₂ ih =>
    simp only [Bool.and_eq_true, decide_eq_true_eq, UInt8.le_iff_toNat_le] at hrange
    exact encode_of_map h (encodeChar_three hrange.1 hrange.2 h₁ h₂) fun ds hds => ih hds
  case case14 index b hb hb' hb'' hrange b₁ h₁ b₂ h₂ b₃ rest h₃ ih =>
    simp only [Bool.and_eq_true, decide_eq_true_eq, UInt8.le_iff_toNat_le] at hrange
    exact encode_of_map h (encodeChar_four hrange.1 hrange.2 h₁ h₂ h₃) fun ds hds => ih hds
  -- What is left are the refusals.
  all_goals cases h

/-- The bytes that are accepted are the encoded texts. -/
theorem decode_eq_ok_iff {bytes : List UInt8} {s : String} :
    decode bytes = .ok s ↔ utf8 s = bytes := by
  constructor
  · intro h
    unfold decode at h
    cases hcs : decodeFrom 0 bytes with
    | error e => rw [hcs] at h; cases h
    | ok cs =>
      rw [hcs] at h
      cases h
      rw [utf8, String.toList_ofList]
      exact encode_of_decodeFrom hcs
  · rintro rfl
    exact decode_utf8 s

/-! ## Single bytes -/

theorem mem_char_ascii {c : Char} {b : UInt8} (hb : b.toNat < 128)
    (h : b ∈ String.utf8EncodeChar c) : c.toNat = b.toNat := by
  have hval : c.val.toNat = c.toNat := rfl
  unfold String.utf8EncodeChar at h
  rw [hval] at h
  dsimp only at h
  have hno : ∀ n, n < 256 → 128 ≤ n → b ≠ UInt8.ofNat n := by
    intro n hn hle he
    rw [he, toNat_byte hn] at hb
    omega
  have htail : ∀ n, b ≠ UInt8.ofNat (n % 64 + 128) := by
    intro n
    exact hno _ (by omega) (by omega)
  split at h
  · rw [List.mem_singleton.1 h, toNat_byte (by omega)]
  split at h
  · have hlead := hno (c.toNat / 64 % 32 + 192) (by omega) (by omega)
    simp only [List.mem_cons, List.not_mem_nil, htail, hlead, or_self] at h
  split at h
  · have hlead := hno (c.toNat / 4096 % 16 + 224) (by omega) (by omega)
    simp only [List.mem_cons, List.not_mem_nil, htail, hlead, or_self] at h
  · have hlead := hno (c.toNat / 262144 % 8 + 240) (by omega) (by omega)
    simp only [List.mem_cons, List.not_mem_nil, htail, hlead, or_self] at h

theorem mem_encode_ascii {cs : List Char} {b : UInt8} (hb : b.toNat < 128) (h : b ∈ encode cs) :
    Char.ofNat b.toNat ∈ cs := by
  obtain ⟨c, hc, hmem⟩ := List.mem_flatMap.1 h
  rw [← mem_char_ascii hb hmem, Char.ofNat_toNat]
  exact hc

/-- A byte below 128 at the end is the last character. -/
theorem encode_eq_concat {cs : List Char} {front : List UInt8} {b : UInt8} (hb : b.toNat < 128)
    (h : encode cs = front ++ [b]) :
    ∃ ds, cs = ds ++ [Char.ofNat b.toNat] ∧ encode ds = front := by
  rcases List.eq_nil_or_concat cs with rfl | ⟨ds, c, rfl⟩
  · simp [encode] at h
  · rw [List.concat_eq_append] at h ⊢
    have hchar : encode [c] = String.utf8EncodeChar c := by simp [encode]
    have hlast := congrArg List.getLast? h
    rw [encode_append, hchar, List.getLast?_append, List.getLast?_append,
      List.getLast?_singleton] at hlast
    have hmem : b ∈ String.utf8EncodeChar c := by
      cases hend : (String.utf8EncodeChar c).getLast? with
      | none => exact absurd (List.getLast?_eq_none_iff.1 hend) String.utf8EncodeChar_ne_nil
      | some b' =>
        rw [hend] at hlast
        cases hlast
        exact List.mem_of_getLast? hend
    have hc : c = Char.ofNat b.toNat := by
      rw [← mem_char_ascii hb hmem, Char.ofNat_toNat]
    refine ⟨ds, by rw [hc], ?_⟩
    rw [encode_append, hchar, hc, encodeChar_one hb] at h
    exact List.append_cancel_right h

theorem eq_of_ofNat_lineFeed {n : Nat} (h : Char.ofNat n = '\n') : n = 10 := by
  have hcode : (Char.ofNat n).toNat = 10 := by rw [h]; rfl
  by_cases hvalid : n.isValidChar
  · rw [Char.ofNat, dif_pos hvalid] at hcode
    exact hcode
  · rw [Char.ofNat, dif_neg hvalid] at hcode
    cases hcode

/-- A line feed among decoded characters is the first one or a later one. -/
theorem lineFeed_of_map {n : Nat} {r : Except Utf8Error (List Char)} {cs : List Char}
    (h : r.map (Char.ofNat n :: ·) = .ok cs) (hmem : '\n' ∈ cs) :
    n = 10 ∨ ∃ ds, r = .ok ds ∧ '\n' ∈ ds := by
  cases r with
  | error e => cases h
  | ok ds =>
    cases h
    rcases List.mem_cons.1 hmem with hc | hmem
    · exact .inl (eq_of_ofNat_lineFeed hc.symm)
    · exact .inr ⟨ds, rfl, hmem⟩

/-- A line feed is never spelt in any other way. -/
theorem lineFeed_of_decodeFrom {index : Nat} {bytes : List UInt8} {cs : List Char}
    (h : decodeFrom index bytes = .ok cs) (hmem : '\n' ∈ cs) : 0x0A ∈ bytes := by
  fun_induction decodeFrom index bytes generalizing cs
  case case1 =>
    cases h
    cases hmem
  case case2 index b rest hb ih =>
    rcases lineFeed_of_map h hmem with hn | ⟨ds, hds, hmem⟩
    · have hten : (0x0A : UInt8) = b := UInt8.toNat_inj.1 hn.symm
      rw [hten]
      exact List.mem_cons_self
    · exact List.mem_cons_of_mem _ (ih hds hmem)
  case case4 index b hb hrange b₁ rest h₁ ih =>
    rcases lineFeed_of_map h hmem with hn | ⟨ds, hds, hmem⟩
    · simp only [Bool.and_eq_true, decide_eq_true_eq, UInt8.le_iff_toNat_le] at hrange
      have hlow : 194 ≤ b.toNat := hrange.1
      have hhigh : b.toNat ≤ 223 := hrange.2
      omega
    · simp [ih hds hmem]
  case case8 index b hb hb' hrange b₁ h₁ b₂ rest h₂ ih =>
    rcases lineFeed_of_map h hmem with hn | ⟨ds, hds, hmem⟩
    · simp only [Bool.and_eq_true, decide_eq_true_eq, UInt8.le_iff_toNat_le] at hrange
      have hlow : 224 ≤ b.toNat := hrange.1
      have hhigh : b.toNat ≤ 239 := hrange.2
      have hsecond := isSecond_iff.1 h₁
      unfold tailBits at hn
      omega
    · simp [ih hds hmem]
  case case14 index b hb hb' hb'' hrange b₁ h₁ b₂ h₂ b₃ rest h₃ ih =>
    rcases lineFeed_of_map h hmem with hn | ⟨ds, hds, hmem⟩
    · simp only [Bool.and_eq_true, decide_eq_true_eq, UInt8.le_iff_toNat_le] at hrange
      have hlow : 240 ≤ b.toNat := hrange.1
      have hhigh : b.toNat ≤ 244 := hrange.2
      have hsecond := isSecond_iff.1 h₁
      unfold tailBits at hn
      omega
    · simp [ih hds hmem]
  -- What is left are the refusals.
  all_goals cases h

theorem lineFeed_of_decode {bytes : List UInt8} {s : String} (h : decode bytes = .ok s)
    (hmem : '\n' ∈ s.toList) : 0x0A ∈ bytes := by
  unfold decode at h
  cases hcs : decodeFrom 0 bytes with
  | error e => rw [hcs] at h; cases h
  | ok cs =>
    rw [hcs] at h
    cases h
    exact lineFeed_of_decodeFrom hcs (by simpa using hmem)

end Text
end ScreenGraph
