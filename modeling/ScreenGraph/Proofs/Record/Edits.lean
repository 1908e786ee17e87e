import ScreenGraph.Proofs.Record.Lines
import ScreenGraph.Proofs.Record.Writing

/-!
# ScreenGraph.Proofs.Record.Edits

Record files that were cut off behind a line, or that have empty lines in place of malformed ones.

Both edits are made to the bytes of a file, and both keep the numbers of the lines that stay. So
the rows that are read afterwards are rows that were read before, each with its old number.

* `lines_firstLines`, `lines_blankLines`: the lines of an edited file.
* `rowsFrom_take`: the rows of the first lines.
* `rowsFrom_blanked`: the rows that are left when the malformed lines are gone.
* `texts_utf8`: a file that is UTF-8 as a whole is so line by line.
-/

namespace ScreenGraph

open Text

namespace Record

/-! ## Edits -/

/-- The first lines of a file, with their ends. -/
def firstLines : Nat → List UInt8 → List UInt8
  | 0, _ => []
  | _ + 1, [] => []
  | n + 1, b :: content => b :: firstLines (if b = 0x0A then n else n + 1) content

/-- What follows in a file with empty lines in place of those that are `gone`, where `line` is the
reversed start of line `number`. -/
def blankFrom (gone : Nat → List UInt8 → Bool) (number : Nat) (line : List UInt8) :
    List UInt8 → List UInt8
  | [] =>
    if line.isEmpty then [] else if gone number line.reverse then [0x0A] else line.reverse
  | b :: content =>
    if b = 0x0A then
      (if gone number (ended line) then [] else line.reverse) ++
        0x0A :: blankFrom gone (number + 1) [] content
    else blankFrom gone number (b :: line) content

def blankLines (gone : Nat → List UInt8 → Bool) (content : List UInt8) : List UInt8 :=
  blankFrom gone 1 [] content

theorem firstLines_zero (content : List UInt8) : firstLines 0 content = [] := by
  cases content <;> rfl

theorem linesFrom_firstLines (start content : List UInt8) (n : Nat) :
    linesFrom start (firstLines (n + 1) content) = (linesFrom start content).take (n + 1) := by
  induction content generalizing start n with
  | nil =>
    simp only [firstLines, linesFrom]
    split <;> simp
  | cons b content ih =>
    simp only [firstLines, linesFrom]
    split
    · rw [List.take_succ_cons]
      cases n with
      | zero => rw [firstLines_zero, List.take_zero, linesFrom, List.isEmpty_nil, if_pos rfl]
      | succ n => rw [ih]
    · rw [ih]

theorem lines_firstLines (n : Nat) (content : List UInt8) :
    lines (firstLines n content) = (lines content).take n := by
  cases n with
  | zero =>
    rw [firstLines_zero, List.take_zero]
    rfl
  | succ n => exact linesFrom_firstLines [] content n

theorem linesFrom_noLineFeed_append {line : List UInt8} (start rest : List UInt8)
    (h : 0x0A ∉ line) :
    linesFrom start (line ++ rest) = linesFrom (line.reverse ++ start) rest := by
  induction line generalizing start with
  | nil => rfl
  | cons b line ih =>
    rw [List.mem_cons, not_or] at h
    rw [List.cons_append, linesFrom, if_neg (Ne.symm h.1), ih _ h.2, List.reverse_cons,
      List.append_assoc, List.singleton_append]

/-- The lines of an edited file, with those that are gone empty. -/
def blanked (gone : Nat → List UInt8 → Bool) (number : Nat) (ls : List (List UInt8)) :
    List (List UInt8) :=
  (ls.zipIdx number).map fun (line, i) => if gone i line then [] else line

theorem lines_blankFrom (gone : Nat → List UInt8 → Bool) (number : Nat) {start : List UInt8}
    (content : List UInt8) (hstart : 0x0A ∉ start) :
    lines (blankFrom gone number start content) =
      blanked gone number (linesFrom start content) := by
  induction content generalizing start number with
  | nil =>
    unfold blankFrom linesFrom
    split
    · rfl
    · rename_i hne
      simp only [blanked, List.zipIdx_singleton, List.map_singleton]
      split
      · rfl
      · have hline : 0x0A ∉ start.reverse := by simpa using hstart
        have hlines := linesFrom_noLineFeed_append [] [] hline
        rw [List.append_nil, List.reverse_reverse, List.append_nil] at hlines
        rw [lines, hlines, linesFrom, if_neg hne]
  | cons b content ih =>
    unfold blankFrom linesFrom
    split
    · have hrest := ih (number + 1) (List.not_mem_nil)
      simp only [blanked, List.zipIdx_cons, List.map_cons] at hrest ⊢
      split
      · rw [List.nil_append, lines, linesFrom, if_pos rfl]
        exact congrArg _ hrest
      · have hline : 0x0A ∉ start.reverse := by simpa using hstart
        rw [lines, linesFrom_append [] _ hline, List.reverse_reverse, List.append_nil, hrest]
    · rename_i hb
      refine ih number ?_
      rw [List.mem_cons, not_or]
      exact ⟨Ne.symm hb, hstart⟩

theorem lines_blankLines (gone : Nat → List UInt8 → Bool) (content : List UInt8) :
    lines (blankLines gone content) = blanked gone 1 (lines content) :=
  lines_blankFrom gone 1 content List.not_mem_nil

/-! ## The rows of the first lines -/

section

variable {layout : Layout} {sep : Char} {number : Nat} {r : Record}

theorem row?_line {line : String} (h : row? layout sep number line = some r) :
    r.line = number := by
  unfold row? at h
  dsimp only at h
  split at h
  · cases h
  split at h
  · cases h
  · cases h
    rfl

/-- A blank line is no row. -/
theorem row?_empty (layout : Layout) (sep : Char) (number : Nat) :
    row? layout sep number "" = none := by
  have hblank : blank (stripped number "") = true := by
    unfold stripped
    split <;> rfl
  simp only [row?, hblank, if_true]

theorem line_of_mem {ls : List String} (h : r ∈ rowsFrom layout sep number ls) :
    number ≤ r.line ∧ r.line < number + ls.length := by
  induction ls generalizing number with
  | nil => cases h
  | cons line ls ih =>
    rw [rowsFrom_cons] at h
    rw [List.length_cons]
    rcases List.mem_append.1 h with h | h
    · have hline := row?_line (Option.mem_toList.1 h)
      omega
    · have hrest := ih h
      omega

variable (layout sep number)

/-- The numbers of the rows grow. -/
theorem rowsFrom_ordered (ls : List String) :
    (rowsFrom layout sep number ls).Pairwise fun a b => a.line < b.line := by
  induction ls generalizing number with
  | nil => exact .nil
  | cons line ls ih =>
    rw [rowsFrom_cons, List.pairwise_append]
    refine ⟨?_, ih (number + 1), ?_⟩
    · cases row? layout sep number line with
      | none => exact .nil
      | some r => exact List.pairwise_singleton _ r
    · intro a ha b hb
      have hline := row?_line (Option.mem_toList.1 ha)
      have hrest := (line_of_mem hb).1
      omega

theorem rowsFrom_take (n : Nat) (ls : List String) :
    rowsFrom layout sep number (ls.take n) =
      (rowsFrom layout sep number ls).filter (·.line < number + n) := by
  induction ls generalizing number n with
  | nil => simp [rowsFrom]
  | cons line ls ih =>
    cases n with
    | zero =>
      refine (List.filter_eq_nil_iff.2 fun r hr => ?_).symm
      have hline := (line_of_mem hr).1
      simpa using hline
    | succ n =>
      have hfirst : (row? layout sep number line).toList.filter (·.line < number + (n + 1)) =
          (row? layout sep number line).toList := by
        refine List.filter_eq_self.2 fun r hr => ?_
        have hline := row?_line (Option.mem_toList.1 hr)
        simp only [decide_eq_true_eq]
        omega
      have hsum : number + 1 + n = number + (n + 1) := by omega
      rw [List.take_succ_cons, rowsFrom_cons, rowsFrom_cons, List.filter_append, hfirst, ih, hsum]

end

theorem texts_take (n : Nat) (ls : List (List UInt8)) :
    (texts (ls.take n)).1 = (texts ls).1.take n ∧
      (n ≤ (texts ls).1.length → (texts (ls.take n)).2 = none) := by
  induction ls generalizing n with
  | nil => simp [texts]
  | cons line ls ih =>
    cases n with
    | zero => simp [texts]
    | succ n =>
      rw [List.take_succ_cons]
      unfold texts
      cases decode line with
      | error e => simp
      | ok text =>
        obtain ⟨htake, hnone⟩ := ih n
        exact ⟨congrArg (text :: ·) htake, fun h => hnone (Nat.le_of_succ_le_succ h)⟩

/-! ## The rows without the malformed lines -/

/-- Whether line `number` is a row with too few fields. -/
def lacksFields (layout : Layout) (sep : Char) (number : Nat) (line : List UInt8) : Bool :=
  (decode line).toOption.any fun text => (row? layout sep number text).any (!layout.accepts ·)

theorem texts_cons {line : List UInt8} {text : String} (ls : List (List UInt8))
    (h : decode line = .ok text) :
    texts (line :: ls) = (text :: (texts ls).1, (texts ls).2) := by
  rw [texts, h]

theorem blanked_cons (gone : Nat → List UInt8 → Bool) (number : Nat) (line : List UInt8)
    (ls : List (List UInt8)) :
    blanked gone number (line :: ls) =
      (if gone number line then [] else line) :: blanked gone (number + 1) ls := by
  simp [blanked, List.zipIdx_cons]

theorem lacksFields_eq (layout : Layout) (sep : Char) (number : Nat) {line : List UInt8}
    {text : String} (h : decode line = .ok text) :
    lacksFields layout sep number line =
      (row? layout sep number text).any (!layout.accepts ·) := by
  rw [lacksFields, h]
  rfl

/-- What is left of a line is the row that it was, if that has enough fields. -/
theorem texts_blanked_cons (layout : Layout) (sep : Char) (number : Nat) {line : List UInt8}
    {text : String} (ls : List (List UInt8)) (h : decode line = .ok text) :
    ∃ left, texts (blanked (lacksFields layout sep) number (line :: ls)) =
        (left :: (texts (blanked (lacksFields layout sep) (number + 1) ls)).1,
          (texts (blanked (lacksFields layout sep) (number + 1) ls)).2) ∧
      row? layout sep number left = (row? layout sep number text).filter layout.accepts := by
  rw [blanked_cons, lacksFields_eq layout sep number h]
  cases hrow : row? layout sep number text with
  | none => exact ⟨text, texts_cons _ h, by rw [hrow]; rfl⟩
  | some r =>
    cases haccepts : layout.accepts r with
    | true =>
      simp only [Option.any_some, haccepts, Option.filter_some, if_true]
      exact ⟨text, texts_cons _ h, hrow⟩
    | false =>
      simp only [Option.any_some, haccepts, Option.filter_some]
      exact ⟨"", texts_cons _ rfl, row?_empty layout sep number⟩

theorem rowsFrom_blanked (layout : Layout) (sep : Char) (number : Nat) {ls : List (List UInt8)}
    (h : (texts ls).2 = none) :
    let left := texts (blanked (lacksFields layout sep) number ls)
    left.2 = none ∧ rowsFrom layout sep number left.1 =
      (rowsFrom layout sep number (texts ls).1).filter layout.accepts := by
  induction ls generalizing number with
  | nil => exact ⟨rfl, rfl⟩
  | cons line ls ih =>
    cases hline : decode line with
    | error e =>
      rw [texts, hline] at h
      cases h
    | ok text =>
      rw [texts_cons ls hline] at h ⊢
      obtain ⟨hnone, hrows⟩ := ih (number + 1) h
      obtain ⟨left, htexts, hrow⟩ := texts_blanked_cons layout sep number ls hline
      have hfirst : (row? layout sep number left).toList =
          (row? layout sep number text).toList.filter layout.accepts := by
        rw [hrow, Option.toList_filter]
      rw [htexts]
      refine ⟨hnone, ?_⟩
      rw [rowsFrom_cons, rowsFrom_cons, List.filter_append, hrows, hfirst]

/-! ## UTF-8 -/

/-- A line of encoded text is encoded text. -/
theorem ended_encode (cs : List Char) : ∃ ds, ended (encode cs).reverse = encode ds := by
  rcases List.eq_nil_or_concat cs with rfl | ⟨front, c, rfl⟩
  · exact ⟨[], rfl⟩
  · by_cases hc : c = '\r'
    · subst hc
      refine ⟨front, ?_⟩
      have hend : encode ['\r'] = [0x0D] := rfl
      rw [List.concat_eq_append, encode_append, hend, List.reverse_append]
      exact List.reverse_reverse _
    · have hutf8 : utf8 (String.ofList (front ++ [c])) = encode (front ++ [c]) := by
        rw [utf8, String.toList_ofList]
      refine ⟨front ++ [c], ?_⟩
      rw [List.concat_eq_append, ← hutf8]
      exact ended_utf8 (by rw [String.toList_ofList, List.getLast?_append]; rfl) hc

theorem linesFrom_encode (front cs : List Char) {line : List UInt8}
    (h : line ∈ linesFrom (encode front).reverse (encode cs)) : ∃ ds, line = encode ds := by
  induction cs generalizing front with
  | nil =>
    have hnil : encode [] = [] := rfl
    rw [hnil, linesFrom] at h
    split at h
    · cases h
    · exact ⟨front, by rw [List.mem_singleton.1 h, List.reverse_reverse]⟩
  | cons c cs ih =>
    have hcons : encode (c :: cs) = String.utf8EncodeChar c ++ encode cs := rfl
    rw [hcons] at h
    by_cases hc : c = '\n'
    · subst hc
      have hbyte : String.utf8EncodeChar '\n' = [0x0A] := rfl
      rw [hbyte, List.singleton_append, linesFrom, if_pos rfl] at h
      rcases List.mem_cons.1 h with rfl | h
      · exact ended_encode front
      · exact ih [] h
    · have hbyte : 0x0A ∉ String.utf8EncodeChar c := by
        intro hmem
        exact hc (Char.toNat_inj.1 (mem_char_ascii (by decide) hmem))
      have hfront : (String.utf8EncodeChar c).reverse ++ (encode front).reverse =
          (encode (front ++ [c])).reverse := by
        rw [encode_append, List.reverse_append]
        simp [encode]
      rw [linesFrom_noLineFeed_append _ _ hbyte, hfront] at h
      exact ih (front ++ [c]) h

theorem texts_of_decodes {ls : List (List UInt8)} (h : ∀ line ∈ ls, ∃ ds, line = encode ds) :
    (texts ls).2 = none := by
  induction ls with
  | nil => rfl
  | cons line ls ih =>
    obtain ⟨ds, rfl⟩ := h line List.mem_cons_self
    have hdecode : decode (encode ds) = .ok (String.ofList ds) := by
      have hutf8 := decode_utf8 (String.ofList ds)
      rwa [utf8, String.toList_ofList] at hutf8
    unfold texts
    rw [hdecode]
    exact ih fun line hline => h line (List.mem_cons_of_mem _ hline)

theorem texts_utf8 (text : String) : (texts (lines (utf8 text))).2 = none :=
  texts_of_decodes fun _ h => linesFrom_encode [] text.toList h

end Record
end ScreenGraph
