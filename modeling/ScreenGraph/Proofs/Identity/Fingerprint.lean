import Mathlib.Data.List.Induction
import Mathlib.Data.List.Nodup
import Mathlib.Data.List.Perm.Lattice
import ScreenGraph.Screen.State

/-!
# ScreenGraph.Proofs.Identity.Fingerprint

What is digested of a state is the set of its widget ids, no more and no less, and
`State.ofWidgets` makes states that have the identity of everything they were made from.

* `distinct_congr`: lists with the same members have the same distinct members in order.
* `StateId.bytes_eq_iff`: ids have one length, so the set can be told from the bytes.
* `firstSightings_concat`: what one more widget does to the widgets that are kept.
* `State.ofWidgets_widgets`: a state made from widgets is made again from those it kept.
* `State.fingerprint_exact`: the bytes against the set, and what a state keeps of the widgets seen.
-/

namespace ScreenGraph

theorem distinct_congr {α : Type} [DecidableEq α] {le : α → α → Bool}
    (trans : ∀ a b c, le a b = true → le b c = true → le a c = true)
    (total : ∀ a b, le a b = true ∨ le b a = true)
    (antisymm : ∀ a b, le a b = true → le b a = true → a = b) {as bs : List α}
    (h : ∀ x, x ∈ as ↔ x ∈ bs) : distinct le as = distinct le bs := by
  have ha := distinct_pairwise trans total antisymm as
  have hb := distinct_pairwise trans total antisymm bs
  have hperm : (distinct le as).Perm (distinct le bs) := by
    rw [List.perm_ext_iff_of_nodup (ha.imp fun hab => hab.2) (hb.imp fun hab => hab.2)]
    intro x
    rw [mem_distinct, mem_distinct]
    exact h x
  exact hperm.eq_of_pairwise (fun x y _ _ hxy hyx => antisymm x y hxy.1 hyx.1) ha hb

namespace Identity

namespace Ident

variable {kind : Kind}

theorem eq_of_bytes {a b : Ident kind} (h : a.uuid.bytes = b.uuid.bytes) : a = b := by
  obtain ⟨⟨_, _⟩⟩ := a
  obtain ⟨⟨_, _⟩⟩ := b
  cases h
  rfl

theorem bytes_ne_nil (a : Ident kind) : a.uuid.bytes ≠ [] :=
  List.ne_nil_of_length_pos (by rw [a.uuid.length_eq]; decide)

end Ident

namespace StateId

/-- With sixteen bytes each, ids can be told apart in a row. -/
theorem eq_of_flatMap_bytes {as bs : List WidgetId}
    (h : as.flatMap (·.uuid.bytes) = bs.flatMap (·.uuid.bytes)) : as = bs := by
  induction as generalizing bs with
  | nil =>
    cases bs with
    | nil => rfl
    | cons b bs => simp [Ident.bytes_ne_nil] at h
  | cons a as ih =>
    cases bs with
    | nil => simp [Ident.bytes_ne_nil] at h
    | cons b bs =>
      rw [List.flatMap_cons, List.flatMap_cons] at h
      obtain ⟨hfirst, hrest⟩ :=
        List.append_inj h (a.uuid.length_eq.trans b.uuid.length_eq.symm)
      rw [Ident.eq_of_bytes hfirst, ih hrest]

theorem bytes_eq_iff {as bs : List WidgetId} :
    bytes as = bytes bs ↔ ∀ id, id ∈ as ↔ id ∈ bs := by
  constructor
  · intro h id
    have hdistinct : distinct Ident.le as = distinct Ident.le bs := eq_of_flatMap_bytes h
    calc id ∈ as ↔ id ∈ distinct Ident.le as := mem_distinct.symm
      _ ↔ id ∈ distinct Ident.le bs := by rw [hdistinct]
      _ ↔ id ∈ bs := mem_distinct
  · intro h
    rw [bytes, bytes, distinct_congr Ident.le_trans Ident.le_total Ident.le_antisymm h]

theorem ofWidgets_congr {as bs : List WidgetId} (h : ∀ id, id ∈ as ↔ id ∈ bs) :
    ofWidgets as = ofWidgets bs := by
  rw [ofWidgets, ofWidgets, bytes_eq_iff.2 h]

/-- Only a collision of the digest can give different sets one identity. -/
theorem ofWidgets_eq_iff {as bs : List WidgetId} :
    ofWidgets as = ofWidgets bs ↔ (∀ id, id ∈ as ↔ id ∈ bs) ∨
      bytes as ≠ bytes bs ∧ fingerprint (bytes as) = fingerprint (bytes bs) := by
  rw [← bytes_eq_iff]
  constructor
  · intro h
    by_cases hbytes : bytes as = bytes bs
    · exact .inl hbytes
    · exact .inr ⟨hbytes, congrArg Ident.uuid h⟩
  · rintro (hbytes | ⟨-, hdigest⟩)
    · rw [ofWidgets, ofWidgets, hbytes]
    · rw [ofWidgets, ofWidgets, hdigest]

end StateId
end Identity

namespace Screen

open Identity

theorem firstSightings_eq_self {ws : List Widget} (h : (ws.map (·.id)).Nodup) :
    firstSightings ws = ws := by
  induction ws with
  | nil => rfl
  | cons w ws ih =>
    obtain ⟨hw, hws⟩ := List.nodup_cons.1 h
    rw [firstSightings, ih hws, List.filter_eq_self.2]
    intro v hv
    have hne : v.id ≠ w.id := by
      intro he
      exact hw (List.mem_map.2 ⟨v, hv, he⟩)
    simpa using hne

theorem nodup_firstSightings (ws : List Widget) : ((firstSightings ws).map (·.id)).Nodup :=
  List.pairwise_map.2 (firstSightings_pairwise ws)

/-- Of a widget that comes last, only the ids in front of it decide whether it is kept. -/
theorem firstSightings_concat (ws : List Widget) (w : Widget) :
    firstSightings (ws ++ [w]) =
      if w.id ∈ ws.map (·.id) then firstSightings ws else firstSightings ws ++ [w] := by
  induction ws with
  | nil => rfl
  | cons a ws ih =>
    rw [List.cons_append, firstSightings, ih]
    by_cases ha : w.id = a.id
    · -- the first widget has the id, so the last one is dropped even if no other has it
      have hmem : w.id ∈ (a :: ws).map (·.id) := List.mem_map.2 ⟨a, List.mem_cons_self, ha.symm⟩
      rw [if_pos hmem, firstSightings]
      split
      · rfl
      · rw [List.filter_append]
        simp [ha]
    · have hmem : w.id ∈ (a :: ws).map (·.id) ↔ w.id ∈ ws.map (·.id) := by
        rw [List.map_cons, List.mem_cons, or_iff_right ha]
      simp only [hmem, firstSightings]
      split
      · rfl
      · rw [List.filter_append]
        simp [ha]

/-- The widgets that stand at the first place of their id. -/
theorem firstSightings_eq_filter (ws : List Widget) :
    firstSightings ws =
      (ws.zipIdx.filter fun p => p.1.id ∉ (ws.take p.2).map (·.id)).map Prod.fst := by
  induction ws using List.reverseRecOn with
  | nil => rfl
  | append_singleton ws w ih =>
    have hfront : (ws.zipIdx.filter fun p => p.1.id ∉ ((ws ++ [w]).take p.2).map (·.id)) =
        ws.zipIdx.filter fun p => p.1.id ∉ (ws.take p.2).map (·.id) := by
      refine List.filter_congr fun p hp => ?_
      have hlt : p.2 < ws.length := (List.mem_zipIdx' hp).1
      rw [List.take_append_of_le_length (Nat.le_of_lt hlt)]
    have hlast : ([w].zipIdx (0 + ws.length)).filter
          (fun p => p.1.id ∉ ((ws ++ [w]).take p.2).map (·.id)) =
        if w.id ∈ ws.map (·.id) then [] else [(w, ws.length)] := by
      rw [List.zipIdx_singleton, Nat.zero_add, List.filter_singleton, List.take_left]
      simp only [decide_not, Bool.cond_not, Bool.cond_decide]
    rw [firstSightings_concat, ih, List.zipIdx_append, List.filter_append, hfront, hlast]
    split <;> simp

namespace State

theorem ofWidgets_widgets (ws : List Widget) : ofWidgets (ofWidgets ws).widgets = ofWidgets ws := by
  simp only [ofWidgets, firstSightings_eq_self (nodup_firstSightings ws)]

theorem ofWidgets_id (ws : List Widget) :
    (ofWidgets ws).id = StateId.ofWidgets (ws.map (·.id)) :=
  StateId.ofWidgets_congr fun _ => mem_ids_firstSightings

/-- Equal sets of ids, in whatever order and however often each, are digested as equal bytes, and
different sets as different ones, so that these share an identity only if the digest collides. A
state keeps the first widget of each id, in the order in which they were seen, and its identity is
that of all that were seen. -/
theorem fingerprint_exact (ids ids' : List WidgetId) (ws : List Widget) :
    (StateId.bytes ids = StateId.bytes ids' ↔ ∀ id, id ∈ ids ↔ id ∈ ids') ∧
    (StateId.ofWidgets ids = StateId.ofWidgets ids' ↔ (∀ id, id ∈ ids ↔ id ∈ ids') ∨
      StateId.bytes ids ≠ StateId.bytes ids' ∧
        fingerprint (StateId.bytes ids) = fingerprint (StateId.bytes ids')) ∧
    (ofWidgets ws).widgets =
      (ws.zipIdx.filter fun p => p.1.id ∉ (ws.take p.2).map (·.id)).map Prod.fst ∧
    (ofWidgets ws).id = StateId.ofWidgets (ws.map (·.id)) :=
  ⟨StateId.bytes_eq_iff, StateId.ofWidgets_eq_iff, firstSightings_eq_filter ws, ofWidgets_id ws⟩

theorem ofWidgets_nil : ofWidgets [] = empty := by
  show State.mk (StateId.ofWidgets []) [] false = empty
  rw [StateId.ofWidgets_nil]
  rfl

theorem contains_iff {s : State} {id : WidgetId} :
    s.contains id = true ↔ ∃ w ∈ s.widgets, w.id = id := by
  simp [contains, widget?, List.find?_isSome]

theorem mem_of_widget? {s : State} {id : WidgetId} {w : Widget} (h : s.widget? id = some w) :
    w ∈ s.widgets ∧ w.id = id :=
  ⟨List.mem_of_find?_eq_some h, by simpa using List.find?_some h⟩

end State
end Screen
end ScreenGraph
