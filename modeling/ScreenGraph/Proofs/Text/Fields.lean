import ScreenGraph.Text.Blank
import ScreenGraph.Text.Fields

/-!
# ScreenGraph.Proofs.Text.Fields

What the fields of a cut line can hold, and what a joined line is cut into.

* `mem_splitAll`: the fields of a line are parts of it, and hold no separator when all were cut.
* `notMem_of_cuttable`: the separator stays in the last field only.
* `cuttable_append_iff`: the shape of cut fields, told from the last one and those in front of it.
* `splitAll_join`: fields without the separator are what their joined line is cut into.
* `split_eq_iff`: cutting and joining undo each other, on every line and all fields of that shape.
* `Fits`: a text that can stand in any field of a line.
-/

namespace ScreenGraph
namespace Text

/-! ## Cut lines -/

theorem mem_cutChars {sep : Char} {n : Nat} {cs f : List Char} {c : Char}
    (hf : f ∈ cutChars sep n cs) (hc : c ∈ f) : c ∈ cs := by
  fun_induction cutChars sep n cs generalizing f with
  | case1 =>
    rw [List.mem_singleton.1 hf] at hc
    exact hc
  | case2 d cs =>
    rw [List.mem_singleton.1 hf] at hc
    exact hc
  | case3 n cs ih =>
    rcases List.mem_cons.1 hf with rfl | hf
    · cases hc
    · exact List.mem_cons_of_mem _ (ih hf hc)
  | case4 n d cs _ h => exact absurd h (cutChars_ne_nil sep _ _)
  | case5 n d cs _ g gs h ih =>
    rw [h] at ih
    rcases List.mem_cons.1 hf with rfl | hf
    · rcases List.mem_cons.1 hc with rfl | hc
      · exact List.mem_cons_self
      · exact List.mem_cons_of_mem _ (ih List.mem_cons_self hc)
    · exact List.mem_cons_of_mem _ (ih (List.mem_cons_of_mem _ hf) hc)

/-- While cuts are left, the separator cannot stay in a field. -/
theorem notMem_of_cuttable {sep : Char} {n i : Nat} {fs : List (List Char)} {f : List Char}
    (h : Cuttable sep n fs) (hi : i < n) (hf : fs[i]? = some f) : sep ∉ f := by
  induction fs generalizing n i with
  | nil => exact h.elim
  | cons g fs ih =>
    cases fs with
    | nil =>
      cases i with
      | zero =>
        cases hf
        exact h (Nat.ne_of_gt hi)
      | succ i => simp at hf
    | cons g' fs =>
      obtain ⟨-, hg, hrest⟩ := h
      cases i with
      | zero =>
        cases hf
        exact hg
      | succ i => exact ih hrest (by omega) hf

/-- With enough cuts the separator stays nowhere. -/
theorem notMem_of_mem_cutChars {sep : Char} {n : Nat} {cs f : List Char} (hlen : cs.length ≤ n)
    (hf : f ∈ cutChars sep n cs) : sep ∉ f := by
  fun_induction cutChars sep n cs generalizing f with
  | case1 =>
    rw [List.mem_singleton.1 hf]
    exact List.not_mem_nil
  | case2 c cs => simp at hlen
  | case3 n cs ih =>
    rcases List.mem_cons.1 hf with rfl | hf
    · exact List.not_mem_nil
    · exact ih (by simpa using hlen) hf
  | case4 n c cs _ h => exact absurd h (cutChars_ne_nil sep _ _)
  | case5 n c cs hc g gs h ih =>
    simp only [List.length_cons] at hlen
    have hrest : ∀ f ∈ g :: gs, sep ∉ f := by
      intro f hf
      exact ih (by omega) (h ▸ hf)
    rcases List.mem_cons.1 hf with rfl | hf
    · rw [List.mem_cons, not_or]
      exact ⟨fun he => hc he.symm, hrest g List.mem_cons_self⟩
    · exact hrest f (List.mem_cons_of_mem _ hf)

/-! ## Joined fields -/

theorem mem_joinChars {sep c : Char} {fs : List (List Char)} (h : c ∈ joinChars sep fs) :
    c = sep ∨ ∃ f ∈ fs, c ∈ f := by
  fun_induction joinChars sep fs with
  | case1 => cases h
  | case2 f => exact .inr ⟨f, List.mem_cons_self, h⟩
  | case3 f g fs ih =>
    rcases List.mem_append.1 h with h | h
    · exact .inr ⟨f, List.mem_cons_self, h⟩
    rcases List.mem_cons.1 h with rfl | h
    · exact .inl rfl
    rcases ih h with hsep | ⟨f', hf', hc⟩
    · exact .inl hsep
    · exact .inr ⟨f', List.mem_cons_of_mem _ hf', hc⟩

theorem length_joinChars (sep : Char) (fs : List (List Char)) :
    fs.length ≤ (joinChars sep fs).length + 1 := by
  fun_induction joinChars sep fs with
  | case1 => simp
  | case2 f => simp
  | case3 f g fs ih =>
    simp only [List.length_cons, List.length_append] at ih ⊢
    omega

/-- Only the last field may hold the separator, and only when no cut is left for it. -/
theorem cuttable_append_iff {sep : Char} {n : Nat} {fs : List (List Char)} {last : List Char} :
    Cuttable sep n (fs ++ [last]) ↔
      (∀ f ∈ fs, sep ∉ f) ∧ fs.length ≤ n ∧ (fs.length < n → sep ∉ last) := by
  induction fs generalizing n with
  | nil => simp [Cuttable, Nat.pos_iff_ne_zero]
  | cons f fs ih =>
    have hcons : Cuttable sep n (f :: fs ++ [last]) ↔
        n ≠ 0 ∧ sep ∉ f ∧ Cuttable sep (n - 1) (fs ++ [last]) := by
      cases fs <;> rfl
    rw [hcons, ih, List.forall_mem_cons, List.length_cons]
    constructor
    · rintro ⟨hn, hf, hfs, hlen, hlast⟩
      exact ⟨⟨hf, hfs⟩, by omega, fun hlt => hlast (by omega)⟩
    · rintro ⟨⟨hf, hfs⟩, hlen, hlast⟩
      exact ⟨by omega, hf, hfs, by omega, fun hlt => hlast (by omega)⟩

theorem joinChars_append_singleton (sep : Char) {fs : List (List Char)} (last : List Char)
    (h : fs ≠ []) : joinChars sep (fs ++ [last]) = joinChars sep fs ++ sep :: last := by
  induction fs with
  | nil => exact absurd rfl h
  | cons f fs ih =>
    cases fs with
    | nil => rfl
    | cons g fs =>
      have hrest := ih (List.cons_ne_nil g fs)
      rw [List.cons_append, List.cons_append] at *
      rw [joinChars, joinChars, hrest, List.append_assoc, List.cons_append]

/-- The fields of a line are parts of it without the separator. -/
theorem mem_splitAll {sep : Char} {line f : String} (h : f ∈ splitAll line sep) :
    sep ∉ f.toList ∧ ∀ c ∈ f.toList, c ∈ line.toList := by
  obtain ⟨cs, hcs, rfl⟩ := List.mem_map.1 h
  rw [String.toList_ofList]
  exact ⟨notMem_of_mem_cutChars (by omega) hcs, fun c hc => mem_cutChars hcs hc⟩

theorem splitAll_ne_nil (line : String) (sep : Char) : splitAll line sep ≠ [] := by
  simp [splitAll, split, cutChars_ne_nil]

/-- Fields without the separator are what their joined line is cut into. -/
theorem splitAll_join {sep : Char} {fields : List String} (hne : fields ≠ [])
    (h : ∀ f ∈ fields, sep ∉ f.toList) : splitAll (join sep fields) sep = fields := by
  refine split_join ?_
  have hlength := length_joinChars sep (fields.map String.toList)
  obtain ⟨front, last, rfl⟩ : ∃ front last, fields = front ++ [last] :=
    ⟨_, _, (List.dropLast_concat_getLast hne).symm⟩
  simp only [join, String.toList_ofList, List.map_append, List.map_singleton, List.length_append,
    List.length_map, List.length_singleton] at hlength ⊢
  refine cuttable_append_iff.2 ⟨fun f hf => ?_, by simp; omega, fun _ => h last (by simp)⟩
  obtain ⟨field, hfield, rfl⟩ := List.mem_map.1 hf
  exact h field (List.mem_append_left _ hfield)

/-- A text with one more field. -/
theorem splitAll_append (sep : Char) (s last : String) (h : sep ∉ last.toList) :
    splitAll (s ++ String.singleton sep ++ last) sep = splitAll s sep ++ [last] := by
  have hjoin : join sep (splitAll s sep ++ [last]) = s ++ String.singleton sep ++ last := by
    have hne : (splitAll s sep).map String.toList ≠ [] := by
      simp [splitAll_ne_nil]
    have hs : joinChars sep ((splitAll s sep).map String.toList) = s.toList := by
      have := congrArg String.toList (join_split s sep (s.toList.length + 1))
      rwa [join, String.toList_ofList] at this
    rw [join, List.map_append, List.map_singleton, joinChars_append_singleton sep _ hne, hs]
    apply String.toList_inj.1
    simp
  rw [← hjoin]
  refine splitAll_join (by simp) fun f hf => ?_
  rcases List.mem_append.1 hf with hf | hf
  · exact (mem_splitAll hf).1
  · rw [List.mem_singleton.1 hf]
    exact h

/-! ## Fields that are cut again -/

/-- The shape of the fields of a line that is cut into at most `most` of them. -/
structure Shaped (sep : Char) (most : Nat) (fields : List String) : Prop where
  ne_nil : fields ≠ []
  length_le : fields.length ≤ most
  front : ∀ f ∈ fields.dropLast, sep ∉ f.toList
  last : ∀ f ∈ fields.getLast?, sep ∈ f.toList → fields.length = most

theorem shaped_append_iff {sep : Char} {n : Nat} {front : List String} {last : String} :
    Shaped sep (n + 1) (front ++ [last]) ↔
      (∀ f ∈ front, sep ∉ f.toList) ∧ front.length ≤ n ∧
        (sep ∈ last.toList → front.length = n) := by
  constructor
  · intro h
    exact ⟨by simpa using h.front, by simpa using h.length_le, by simpa using h.last last⟩
  · rintro ⟨hfront, hlen, hlast⟩
    exact ⟨by simp, by simpa using hlen, by simpa using hfront, by simpa using hlast⟩

theorem shaped_iff {sep : Char} {n : Nat} {fields : List String} :
    Shaped sep (n + 1) fields ↔ Cuttable sep n (fields.map String.toList) := by
  by_cases hne : fields = []
  · subst hne
    exact ⟨fun h => absurd rfl h.ne_nil, fun h => h.elim⟩
  · obtain ⟨front, last, rfl⟩ : ∃ front last, fields = front ++ [last] :=
      ⟨_, _, (List.dropLast_concat_getLast hne).symm⟩
    rw [shaped_append_iff, List.map_append, List.map_singleton, cuttable_append_iff,
      List.length_map, List.forall_mem_map]
    refine and_congr_right fun _ => and_congr_right fun hlen => ?_
    constructor
    · intro h hlt hin
      exact Nat.ne_of_lt hlt (h hin)
    · intro h hin
      exact Nat.le_antisymm hlen (Nat.le_of_not_lt fun hlt => h hlt hin)

theorem join_eq_intercalate (sep : Char) (fields : List String) :
    join sep fields = (String.singleton sep).intercalate fields := by
  induction fields with
  | nil => rfl
  | cons f fields ih =>
    cases fields with
    | nil => simp [join, joinChars]
    | cons g fields =>
      rw [String.intercalate_cons_cons, ← ih]
      apply String.toList_inj.1
      simp [join, joinChars]

/-- A line is cut into the only fields of that shape that give it back when they are joined, with
the separator between any two of them, and all fields of that shape are what their joined line is
cut into. -/
theorem split_eq_iff (line : String) (sep : Char) (most : Nat) (fields : List String) :
    (split line sep most = fields ↔ Shaped sep (max most 1) fields ∧ join sep fields = line) ∧
    (split (join sep fields) sep most = fields ↔ Shaped sep (max most 1) fields) ∧
    join sep fields = (String.singleton sep).intercalate fields := by
  have hshaped : Shaped sep (max most 1) fields ↔
      Cuttable sep (most - 1) (fields.map String.toList) := by
    rw [show max most 1 = most - 1 + 1 by omega, shaped_iff]
  refine ⟨?_, ?_, join_eq_intercalate sep fields⟩
  · rw [hshaped]
    constructor
    · rintro rfl
      exact ⟨cuttable_split line sep most, join_split line sep most⟩
    · rintro ⟨hcuttable, rfl⟩
      exact split_join hcuttable
  · rw [hshaped]
    refine ⟨fun h => ?_, split_join⟩
    rw [← h]
    exact cuttable_split _ sep most

example : split "a→b→c→d" '→' 3 = ["a", "b", "c→d"] := by decide

/-! ## Texts for fields -/

/-- A text that can stand in any field. -/
structure Fits (sep : Char) (s : String) : Prop where
  separator : sep ∉ s.toList
  lineFeed : '\n' ∉ s.toList

theorem fits_empty (sep : Char) : Fits sep "" :=
  ⟨by simp, by simp⟩

theorem Fits.of_subset {sep : Char} {s t : String} (hs : Fits sep s)
    (h : ∀ c ∈ t.toList, c ∈ s.toList) : Fits sep t :=
  ⟨fun hc => hs.separator (h _ hc), fun hc => hs.lineFeed (h _ hc)⟩

theorem trim_fits {sep : Char} {s : String} (hs : Fits sep s) : Fits sep (trim s) := by
  refine hs.of_subset ?_
  intro c hc
  rw [trim, String.toList_ofList, trimChars, List.mem_reverse] at hc
  have hfront := (List.dropWhile_sublist _).subset hc
  rw [List.mem_reverse] at hfront
  exact (List.dropWhile_sublist _).subset hfront

end Text
end ScreenGraph
