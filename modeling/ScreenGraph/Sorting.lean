/-!
# ScreenGraph.Sorting

Stable sorting by a comparison, ascending lists without repetition, and the order of lists by their
first difference.

* `sortBy_perm`, `sortBy_pairwise`: the result is a rearrangement of the input, in order.
* `ties_sortBy`, `sortBy_eq_of_ties`: sorting is stable, and the only order with the same ties is
  the sorted one.
* `mem_distinct`, `distinct_pairwise`: `distinct` has the members of its input, each once, in order.
* `lexLe_trans`, `lexLe_total`, `lexLe_antisymm`: lists are in a linear order.
-/

namespace ScreenGraph

variable {α : Type}

/-- Puts `a` in front of the first element that it may precede. -/
def insertBy (le : α → α → Bool) (a : α) : List α → List α
  | [] => [a]
  | b :: bs => if le a b then a :: b :: bs else b :: insertBy le a bs

/-- Elements that may precede each other keep their order. -/
def sortBy (le : α → α → Bool) : List α → List α
  | [] => []
  | a :: as => insertBy le a (sortBy le as)

/-- The elements on a par with `k`, in their order. -/
def ties (le : α → α → Bool) (k : α) (as : List α) : List α :=
  as.filter fun a => le a k && le k a

/-- `insertBy`, unless `a` is already there. -/
def insertDistinct [DecidableEq α] (le : α → α → Bool) (a : α) : List α → List α
  | [] => [a]
  | b :: bs =>
    if a = b then b :: bs
    else if le a b then a :: b :: bs
    else b :: insertDistinct le a bs

/-- The members of a list in ascending order, each once. -/
def distinct [DecidableEq α] (le : α → α → Bool) : List α → List α
  | [] => []
  | a :: as => insertDistinct le a (distinct le as)

/-- The first difference decides, by the keys of the elements; a list comes before its
continuations. -/
def lexLe (key : α → Nat) : List α → List α → Bool
  | [], _ => true
  | _ :: _, [] => false
  | a :: as, b :: bs => key a < key b || (key a = key b && lexLe key as bs)

theorem insertBy_perm (le : α → α → Bool) (a : α) (bs : List α) :
    (insertBy le a bs).Perm (a :: bs) := by
  induction bs with
  | nil => exact .refl _
  | cons b bs ih =>
    simp only [insertBy]
    split
    · exact .refl _
    · exact (ih.cons b).trans (.swap a b bs)

theorem sortBy_perm (le : α → α → Bool) (as : List α) : (sortBy le as).Perm as := by
  induction as with
  | nil => exact .refl _
  | cons a as ih => exact (insertBy_perm le a _).trans (ih.cons a)

section

variable {le : α → α → Bool}
  (trans : ∀ a b c, le a b = true → le b c = true → le a c = true)
  (total : ∀ a b, le a b = true ∨ le b a = true)

include trans total

theorem insertBy_pairwise {a : α} {bs : List α} (h : bs.Pairwise (le · · = true)) :
    (insertBy le a bs).Pairwise (le · · = true) := by
  induction bs with
  | nil => simp [insertBy]
  | cons b bs ih =>
    have hb := List.pairwise_cons.1 h
    simp only [insertBy]
    split
    · next hab =>
      refine List.pairwise_cons.2 ⟨fun c hc => ?_, h⟩
      rcases List.mem_cons.1 hc with rfl | hc
      · exact hab
      · exact trans _ _ _ hab (hb.1 c hc)
    · next hab =>
      have hba : le b a = true := (total a b).resolve_left hab
      refine List.pairwise_cons.2 ⟨fun c hc => ?_, ih hb.2⟩
      rcases List.mem_cons.1 ((insertBy_perm le a bs).mem_iff.1 hc) with rfl | hc
      · exact hba
      · exact hb.1 c hc

theorem sortBy_pairwise (as : List α) : (sortBy le as).Pairwise (le · · = true) := by
  induction as with
  | nil => exact .nil
  | cons a as ih => exact insertBy_pairwise trans total ih

omit total in
theorem ties_insertBy (k a : α) (bs : List α) :
    ties le k (insertBy le a bs) = ties le k (a :: bs) := by
  unfold ties
  induction bs with
  | nil => rfl
  | cons b bs ih =>
    simp only [insertBy]
    split
    · rfl
    · next hab =>
      rw [List.filter_cons, ih]
      -- what `a` is moved behind is not on a par with it
      by_cases ha : (le a k && le k a) = true
      · have hb : ¬ (le b k && le k b) = true := by
          simp only [Bool.and_eq_true] at ha ⊢
          exact fun hb => hab (trans _ _ _ ha.1 hb.2)
        simp [ha, hb]
      · simp [List.filter_cons, ha]

omit total in
theorem ties_sortBy (k : α) (as : List α) : ties le k (sortBy le as) = ties le k as := by
  induction as with
  | nil => rfl
  | cons a as ih =>
    rw [sortBy, ties_insertBy trans]
    simp only [ties, List.filter_cons] at ih ⊢
    rw [ih]

omit trans in
theorem mem_of_ties {as bs : List α} (h : ∀ k, ties le k as = ties le k bs) {a : α}
    (ha : a ∈ as) : a ∈ bs := by
  have hrefl : le a a = true := (total a a).elim id id
  have hmem : a ∈ ties le a as := List.mem_filter.2 ⟨ha, by rw [hrefl]; rfl⟩
  rw [h a] at hmem
  exact (List.mem_filter.1 hmem).1

omit trans in
/-- Lists in order are told apart by their ties. -/
theorem eq_of_ties {as bs : List α} (ha : as.Pairwise (le · · = true))
    (hb : bs.Pairwise (le · · = true)) (h : ∀ k, ties le k as = ties le k bs) : as = bs := by
  induction as generalizing bs with
  | nil =>
    cases bs with
    | nil => rfl
    | cons b bs => cases mem_of_ties total (fun k => (h k).symm) List.mem_cons_self
  | cons a as ih =>
    cases bs with
    | nil => cases mem_of_ties total h List.mem_cons_self
    | cons b bs =>
      have hrefl : ∀ x, le x x = true := fun x => (total x x).elim id id
      obtain ⟨hfirst, has⟩ := List.pairwise_cons.1 ha
      obtain ⟨hfirst', hbs⟩ := List.pairwise_cons.1 hb
      have hab : le a b = true := by
        rcases List.mem_cons.1 (mem_of_ties total (fun k => (h k).symm) List.mem_cons_self) with
          rfl | hmem
        · exact hrefl b
        · exact hfirst b hmem
      have hba : le b a = true := by
        rcases List.mem_cons.1 (mem_of_ties total h List.mem_cons_self) with rfl | hmem
        · exact hrefl a
        · exact hfirst' a hmem
      have hhead := h a
      simp only [ties, List.filter_cons, hrefl, hab, hba, Bool.and_self, if_true,
        List.cons.injEq] at hhead
      obtain ⟨rfl, -⟩ := hhead
      refine congrArg (a :: ·) (ih has hbs fun k => ?_)
      have hk := h k
      simp only [ties, List.filter_cons] at hk ⊢
      split at hk
      · exact (List.cons.inj hk).2
      · exact hk

theorem sortBy_eq_of_ties {as bs : List α} (hb : bs.Pairwise (le · · = true))
    (h : ∀ k, ties le k as = ties le k bs) : sortBy le as = bs :=
  eq_of_ties total (sortBy_pairwise trans total as) hb fun k => (ties_sortBy trans k as).trans (h k)

end

section

variable [DecidableEq α]

theorem mem_insertDistinct {le : α → α → Bool} {a x : α} {bs : List α} :
    x ∈ insertDistinct le a bs ↔ x = a ∨ x ∈ bs := by
  induction bs with
  | nil => simp [insertDistinct]
  | cons b bs ih =>
    simp only [insertDistinct]
    split
    · next h => subst h; simp
    · split
      · simp
      · simp only [List.mem_cons, ih]; grind

theorem mem_distinct {le : α → α → Bool} {x : α} {as : List α} :
    x ∈ distinct le as ↔ x ∈ as := by
  induction as with
  | nil => simp [distinct]
  | cons a as ih => simp [distinct, mem_insertDistinct, ih]

variable {le : α → α → Bool}
  (trans : ∀ a b c, le a b = true → le b c = true → le a c = true)
  (total : ∀ a b, le a b = true ∨ le b a = true)

include trans total

theorem insertDistinct_pairwise {a : α} {bs : List α}
    (h : bs.Pairwise fun x y => le x y = true ∧ x ≠ y)
    (antisymm : ∀ x y, le x y = true → le y x = true → x = y) :
    (insertDistinct le a bs).Pairwise fun x y => le x y = true ∧ x ≠ y := by
  induction bs with
  | nil => simp [insertDistinct]
  | cons b bs ih =>
    have hb := List.pairwise_cons.1 h
    simp only [insertDistinct]
    split
    · exact h
    · next hne =>
      split
      · next hab =>
        refine List.pairwise_cons.2 ⟨fun c hc => ?_, h⟩
        rcases List.mem_cons.1 hc with rfl | hc
        · exact ⟨hab, hne⟩
        · refine ⟨trans _ _ _ hab (hb.1 c hc).1, fun hac => ?_⟩
          subst hac
          exact hne (antisymm _ _ hab (hb.1 _ hc).1)
      · next hab =>
        have hba : le b a = true := (total a b).resolve_left hab
        refine List.pairwise_cons.2 ⟨fun c hc => ?_, ih hb.2⟩
        rcases mem_insertDistinct.1 hc with rfl | hc
        · exact ⟨hba, fun h => hne h.symm⟩
        · exact hb.1 c hc

theorem distinct_pairwise (antisymm : ∀ x y, le x y = true → le y x = true → x = y)
    (as : List α) : (distinct le as).Pairwise fun x y => le x y = true ∧ x ≠ y := by
  induction as with
  | nil => exact .nil
  | cons a as ih => exact insertDistinct_pairwise trans total ih antisymm

end

section

variable {key : α → Nat}

theorem lexLe_trans (as bs cs : List α) (h : lexLe key as bs = true)
    (h' : lexLe key bs cs = true) : lexLe key as cs = true := by
  induction as generalizing bs cs with
  | nil => rfl
  | cons a as ih =>
    cases bs with
    | nil => cases h
    | cons b bs =>
      cases cs with
      | nil => cases h'
      | cons c cs =>
        simp only [lexLe, Bool.or_eq_true, Bool.and_eq_true, decide_eq_true_eq] at h h' ⊢
        rcases h with h | ⟨h, ht⟩ <;> rcases h' with h' | ⟨h', ht'⟩
        · exact .inl (Nat.lt_trans h h')
        · exact .inl (h' ▸ h)
        · exact .inl (h ▸ h')
        · exact .inr ⟨h.trans h', ih bs cs ht ht'⟩

theorem lexLe_total (as bs : List α) : lexLe key as bs = true ∨ lexLe key bs as = true := by
  induction as generalizing bs with
  | nil => exact .inl rfl
  | cons a as ih =>
    cases bs with
    | nil => exact .inr rfl
    | cons b bs =>
      simp only [lexLe, Bool.or_eq_true, Bool.and_eq_true, decide_eq_true_eq]
      rcases Nat.lt_trichotomy (key a) (key b) with h | h | h
      · exact .inl (.inl h)
      · exact (ih bs).imp (fun ht => .inr ⟨h, ht⟩) (fun ht => .inr ⟨h.symm, ht⟩)
      · exact .inr (.inl h)

theorem lexLe_antisymm (inj : ∀ a b, key a = key b → a = b) (as bs : List α)
    (h : lexLe key as bs = true) (h' : lexLe key bs as = true) : as = bs := by
  induction as generalizing bs with
  | nil =>
    cases bs with
    | nil => rfl
    | cons b bs => cases h'
  | cons a as ih =>
    cases bs with
    | nil => cases h
    | cons b bs =>
      simp only [lexLe, Bool.or_eq_true, Bool.and_eq_true, decide_eq_true_eq] at h h'
      rcases h with h | ⟨h, ht⟩
      · omega
      · rcases h' with h' | ⟨_, ht'⟩
        · omega
        · rw [inj a b h, ih bs ht ht']

theorem lexLe_map {β : Type} (f : β → α) (as bs : List β) :
    lexLe key (as.map f) (bs.map f) = lexLe (key ∘ f) as bs := by
  induction as generalizing bs with
  | nil => rfl
  | cons a as ih =>
    cases bs with
    | nil => rfl
    | cons b bs => simp only [List.map_cons, lexLe, ih, Function.comp_apply]

end

end ScreenGraph
