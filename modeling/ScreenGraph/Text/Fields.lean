/-!
# ScreenGraph.Text.Fields

Fields of a line: cutting at a separator a bounded number of times, and joining again.

A cut line has at least one field. Only its last field may hold the separator, and only when no cut
was left for it.

* `join_split`: joining the fields of a line gives the line back.
* `cuttable_split`: the fields of a line have that shape.
* `split_join`: fields of that shape are what their joined line is cut into.
-/

namespace ScreenGraph
namespace Text

/-- Cuts at the first `n` separators. -/
def cutChars (sep : Char) : Nat → List Char → List (List Char)
  | _, [] => [[]]
  | 0, c :: cs => [c :: cs]
  | n + 1, c :: cs =>
    if c = sep then [] :: cutChars sep n cs
    else
      match cutChars sep (n + 1) cs with
      | [] => [[c]]
      | f :: fs => (c :: f) :: fs

def joinChars (sep : Char) : List (List Char) → List Char
  | [] => []
  | [f] => f
  | f :: g :: fs => f ++ sep :: joinChars sep (g :: fs)

/-- The fields of a line, at most `most` of them, and one when `most` is zero. -/
def split (line : String) (sep : Char) (most : Nat) : List String :=
  (cutChars sep (most - 1) line.toList).map String.ofList

/-- The fields of a line cut at every separator. -/
def splitAll (line : String) (sep : Char) : List String :=
  split line sep (line.toList.length + 1)

def join (sep : Char) (fields : List String) : String :=
  String.ofList (joinChars sep (fields.map String.toList))

theorem cutChars_ne_nil (sep : Char) (n : Nat) (cs : List Char) : cutChars sep n cs ≠ [] := by
  fun_induction cutChars sep n cs <;> simp

theorem joinChars_cons_cons (sep c : Char) (f : List Char) (fs : List (List Char)) :
    joinChars sep ((c :: f) :: fs) = c :: joinChars sep (f :: fs) := by
  cases fs <;> simp [joinChars]

theorem joinChars_nil_cons (sep : Char) {fs : List (List Char)} (h : fs ≠ []) :
    joinChars sep ([] :: fs) = sep :: joinChars sep fs := by
  cases fs with
  | nil => exact absurd rfl h
  | cons f fs => simp [joinChars]

theorem joinChars_cutChars (sep : Char) (n : Nat) (cs : List Char) :
    joinChars sep (cutChars sep n cs) = cs := by
  fun_induction cutChars sep n cs with
  | case1 => rfl
  | case2 => rfl
  | case3 n cs ih => rw [joinChars_nil_cons _ (cutChars_ne_nil sep _ _), ih]
  | case4 n c cs _ h => exact absurd h (cutChars_ne_nil sep _ _)
  | case5 n c cs _ f fs h ih => rw [joinChars_cons_cons, ← h, ih]

theorem cutChars_of_notMem (sep : Char) (n : Nat) {cs : List Char} (h : sep ∉ cs) :
    cutChars sep n cs = [cs] := by
  fun_induction cutChars sep n cs with
  | case1 => rfl
  | case2 => rfl
  | case3 n cs => exact absurd List.mem_cons_self h
  | case4 n c cs _ h' => exact absurd h' (cutChars_ne_nil sep _ _)
  | case5 n c cs _ f fs h' ih =>
    have := ih fun hm => h (List.mem_cons_of_mem _ hm)
    rw [h'] at this
    simp only [List.cons.injEq] at this
    rw [this.1, this.2]

theorem cutChars_append (sep : Char) (n : Nat) {f : List Char} (rest : List Char) (h : sep ∉ f) :
    cutChars sep (n + 1) (f ++ sep :: rest) = f :: cutChars sep n rest := by
  induction f with
  | nil => simp [cutChars]
  | cons c f ih =>
    have hc : c ≠ sep := fun he => h (he ▸ List.mem_cons_self)
    rw [List.cons_append, cutChars, if_neg hc, ih fun hm => h (List.mem_cons_of_mem _ hm)]

/-- Fields whose joined line is cut into them again by `n` cuts. -/
def Cuttable (sep : Char) (n : Nat) : List (List Char) → Prop
  | [] => False
  | [f] => n ≠ 0 → sep ∉ f
  | f :: g :: fs => n ≠ 0 ∧ sep ∉ f ∧ Cuttable sep (n - 1) (g :: fs)

theorem cutChars_joinChars {sep : Char} {n : Nat} {fs : List (List Char)}
    (h : Cuttable sep n fs) : cutChars sep n (joinChars sep fs) = fs := by
  induction fs generalizing n with
  | nil => exact h.elim
  | cons f fs ih =>
    cases fs with
    | nil =>
      cases n with
      | zero => cases f <;> rfl
      | succ n => exact cutChars_of_notMem sep _ (h (Nat.succ_ne_zero n))
    | cons g fs =>
      obtain ⟨hn, hf, hrest⟩ := h
      obtain ⟨n, rfl⟩ := Nat.exists_eq_succ_of_ne_zero hn
      rw [joinChars, cutChars_append sep n _ hf]
      exact congrArg _ (ih hrest)

theorem cuttable_cutChars (sep : Char) (n : Nat) (cs : List Char) :
    Cuttable sep n (cutChars sep n cs) := by
  fun_induction cutChars sep n cs with
  | case1 => simp [Cuttable]
  | case2 => simp [Cuttable]
  | case3 n cs ih =>
    cases h : cutChars sep n cs with
    | nil => exact absurd h (cutChars_ne_nil sep _ _)
    | cons g fs => exact ⟨Nat.succ_ne_zero n, by simp, by simpa [h] using ih⟩
  | case4 => simp_all [cutChars_ne_nil]
  | case5 n c cs hc f fs h ih =>
    rw [h] at ih
    cases fs with
    | nil => simpa [Cuttable, Ne.symm hc] using ih
    | cons g fs => exact ⟨ih.1, by simp [ih.2.1, Ne.symm hc], ih.2.2⟩

theorem toList_split (line : String) (sep : Char) (most : Nat) :
    (split line sep most).map String.toList = cutChars sep (most - 1) line.toList := by
  simp [split]

theorem join_split (line : String) (sep : Char) (most : Nat) :
    join sep (split line sep most) = line := by
  rw [join, toList_split, joinChars_cutChars, String.ofList_toList]

theorem cuttable_split (line : String) (sep : Char) (most : Nat) :
    Cuttable sep (most - 1) ((split line sep most).map String.toList) := by
  rw [toList_split]
  exact cuttable_cutChars sep _ _

theorem split_join {sep : Char} {most : Nat} {fields : List String}
    (h : Cuttable sep (most - 1) (fields.map String.toList)) :
    split (join sep fields) sep most = fields := by
  have : String.ofList ∘ String.toList = (id : String → String) :=
    funext fun _ => String.ofList_toList
  rw [split, join, String.toList_ofList, cutChars_joinChars h, List.map_map, this, List.map_id]

end Text
end ScreenGraph
