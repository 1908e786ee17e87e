import Mathlib.Tactic.Common
import ScreenGraph.Graph.Basic

/-!
# ScreenGraph.Proofs.Graph.Checks

What the checks of a commit accept, and what a commit does to the traces.

* `check_ok_iff`, `checkAll_ok_iff`: an accepted action follows the last one and refers to
  registered things only; in a batch every action follows the one before it.
* `append_ok_iff`, `appendAll_ok_iff`: a commit goes through exactly if the handle denotes a trace
  and the check accepts, and then it extends that trace and nothing else.
-/

namespace ScreenGraph
namespace Graph

open Identity Screen

/-- The action refers to registered states, and its target is a registered widget of its source
state. -/
def Admits (g : Graph) (a : Action) : Prop :=
  ∃ source result, g.state? a.source = some source ∧ g.state? a.result = some result ∧
    ∀ w, a.target = some w → (g.widget? w).isSome = true ∧ source.contains w = true

/-- The indices of the actions grow, from above `last` on. -/
def Follows (last : Option Nat) (as : List Action) : Prop :=
  (∀ n, last = some n → ∀ a ∈ as, n < a.index) ∧
    as.Pairwise fun a b => a.index < b.index

theorem follows_nil (last : Option Nat) : Follows last [] :=
  ⟨fun _ _ _ h => absurd h List.not_mem_nil, .nil⟩

theorem follows_cons {last : Option Nat} {a : Action} {as : List Action} :
    Follows last (a :: as) ↔
      (∀ n, last = some n → n < a.index) ∧ Follows (some a.index) as := by
  constructor
  · rintro ⟨hlast, hpair⟩
    obtain ⟨hhead, htail⟩ := List.pairwise_cons.1 hpair
    refine ⟨fun n hn => hlast n hn a List.mem_cons_self, ?_, htail⟩
    intro n hn b hb
    cases hn
    exact hhead b hb
  · rintro ⟨hlast, hnext, htail⟩
    refine ⟨?_, List.pairwise_cons.2 ⟨fun b hb => hnext _ rfl b hb, htail⟩⟩
    intro n hn b hb
    have ha := hlast n hn
    rcases List.mem_cons.1 hb with rfl | hb
    · exact ha
    · have := hnext _ rfl b hb
      omega

theorem check_ok_iff {g : Graph} (id : TraceId) {last : Option Nat} {a : Action} :
    g.check id last a = .ok () ↔ (∀ n, last = some n → n < a.index) ∧ g.Admits a := by
  unfold check Admits
  have horder : last.filter (a.index ≤ ·) = none ↔ ∀ n, last = some n → n < a.index := by
    cases last <;> simp
  rw [← horder]
  cases last.filter (a.index ≤ ·) with
  | some n => simp
  | none =>
    cases hsource : g.state? a.source with
    | none => simp
    | some source =>
      cases hresult : g.state? a.result with
      | none => simp
      | some result =>
        cases htarget : a.target with
        | none => simp
        | some w => by_cases hw : (g.widget? w).isSome ∧ source.contains w <;> simp_all

theorem check_ne_unknownTrace (g : Graph) (id : TraceId) (last : Option Nat) (a : Action)
    (id' : TraceId) : g.check id last a ≠ .error (.unknownTrace id') := by
  unfold check
  repeat' split
  all_goals intro h; cases h

theorem checkAll_ok_iff {g : Graph} (id : TraceId) {last : Option Nat} {as : List Action} :
    g.checkAll id last as = .ok () ↔ Follows last as ∧ ∀ a ∈ as, g.Admits a := by
  induction as generalizing last with
  | nil => simp [checkAll, follows_nil]
  | cons a as ih =>
    rw [checkAll, follows_cons, List.forall_mem_cons]
    cases hcheck : g.check id last a with
    | error e =>
      have hno : ¬ ((∀ n, last = some n → n < a.index) ∧ g.Admits a) := by
        rw [← check_ok_iff id, hcheck]
        intro h; cases h
      constructor
      · intro h; cases h
      · rintro ⟨⟨horder, -⟩, hadmits, -⟩
        exact absurd ⟨horder, hadmits⟩ hno
    | ok u =>
      obtain ⟨horder, hadmits⟩ := (check_ok_iff id).1 hcheck
      dsimp only
      rw [ih]
      constructor
      · rintro ⟨hrest, hall⟩
        exact ⟨⟨horder, hrest⟩, hadmits, hall⟩
      · rintro ⟨⟨-, hrest⟩, -, hall⟩
        exact ⟨hrest, hall⟩

theorem checkAll_ne_unknownTrace (g : Graph) (id : TraceId) (last : Option Nat)
    (as : List Action) (id' : TraceId) : g.checkAll id last as ≠ .error (.unknownTrace id') := by
  induction as generalizing last with
  | nil => intro h; cases h
  | cons a as ih =>
    rw [checkAll]
    cases hcheck : g.check id last a with
    | error e =>
      intro h
      cases h
      exact check_ne_unknownTrace _ _ _ _ _ hcheck
    | ok u => exact ih _

theorem traceOf?_eq_some_iff {g : Graph} {h : TraceHandle} {t : Trace} :
    g.traceOf? h = some t ↔ g.traces[h.slot]? = some t ∧ t.id = h.id := by
  simp [traceOf?, Option.filter_eq_some_iff]

theorem append_ok_iff {g g' : Graph} {h : TraceHandle} {a : Action} :
    g.append h a = .ok g' ↔ ∃ t, g.traceOf? h = some t ∧ Follows t.lastIndex? [a] ∧
      g.Admits a ∧ g' = g.extendTrace h.slot [a] := by
  unfold append
  cases ht : g.traceOf? h with
  | none => simp
  | some t =>
    have hchecked : (Follows t.lastIndex? [a] ∧ g.Admits a) ↔
        g.check t.id t.lastIndex? a = .ok () := by
      simp [check_ok_iff, follows_cons, follows_nil]
    simp only [Option.some.injEq, exists_eq_left', ← and_assoc (a := Follows _ _), hchecked]
    cases g.check t.id t.lastIndex? a with
    | error e => simp
    | ok u => simp [eq_comm]

theorem append_ne_unknownTrace {g : Graph} {h : TraceHandle} {t : Trace} (a : Action)
    (id : TraceId) (ht : g.traceOf? h = some t) : g.append h a ≠ .error (.unknownTrace id) := by
  unfold append
  rw [ht]
  dsimp only
  cases hcheck : g.check t.id t.lastIndex? a with
  | error e =>
    intro he
    cases he
    exact check_ne_unknownTrace _ _ _ _ _ hcheck
  | ok u => intro he; cases he

theorem appendAll_ok_iff {g g' : Graph} {h : TraceHandle} {as : List Action} (hne : as ≠ []) :
    g.appendAll h as = .ok g' ↔ ∃ t, g.traceOf? h = some t ∧ Follows t.lastIndex? as ∧
      (∀ a ∈ as, g.Admits a) ∧ g' = g.extendTrace h.slot as := by
  unfold appendAll
  rw [if_neg (by simpa using hne)]
  cases ht : g.traceOf? h with
  | none => simp
  | some t =>
    simp only [Option.some.injEq, exists_eq_left', ← and_assoc (a := Follows _ _)]
    rw [← checkAll_ok_iff t.id]
    cases g.checkAll t.id t.lastIndex? as with
    | error e => simp
    | ok u => simp [eq_comm]

theorem appendAll_ne_unknownTrace {g : Graph} {h : TraceHandle} {t : Trace} (as : List Action)
    (id : TraceId) (ht : g.traceOf? h = some t) :
    g.appendAll h as ≠ .error (.unknownTrace id) := by
  unfold appendAll
  rw [ht]
  dsimp only
  split
  · intro he; cases he
  · cases hcheck : g.checkAll t.id t.lastIndex? as with
    | error e =>
      intro he
      cases he
      exact checkAll_ne_unknownTrace _ _ _ _ _ hcheck
    | ok u => intro he; cases he

/-! ## What an extension leaves alone -/

@[simp] theorem extendTrace_state? (g : Graph) (slot : Nat) (as : List Action) (id : StateId) :
    (g.extendTrace slot as).state? id = g.state? id := rfl

theorem extendTrace_getElem? (g : Graph) (slot i : Nat) (as : List Action) :
    (g.extendTrace slot as).traces[i]? =
      if slot = i then g.traces[i]?.map (·.extend as) else g.traces[i]? := by
  simp only [extendTrace, List.getElem?_modify]
  split <;> simp

theorem mem_extendTrace {g : Graph} {slot : Nat} {as : List Action} {t' : Trace}
    (h : t' ∈ (g.extendTrace slot as).traces) :
    t' ∈ g.traces ∨ ∃ t, g.traces[slot]? = some t ∧ t' = t.extend as := by
  obtain ⟨i, hi⟩ := List.getElem?_of_mem h
  rw [extendTrace_getElem?] at hi
  split at hi
  · rename_i hslot
    subst hslot
    obtain ⟨t, ht, rfl⟩ := Option.map_eq_some_iff.1 hi
    exact .inr ⟨t, ht, rfl⟩
  · exact .inl (List.mem_of_getElem? hi)

theorem extendTrace_ids (g : Graph) (slot : Nat) (as : List Action) :
    (g.extendTrace slot as).traces.map (·.id) = g.traces.map (·.id) := by
  apply List.ext_getElem?
  intro i
  rw [List.getElem?_map, List.getElem?_map, extendTrace_getElem?]
  split
  · cases g.traces[i]? <;> rfl
  · rfl

theorem extend_nil (t : Trace) : t.extend [] = t := by
  simp [Trace.extend]

theorem extendTrace_nil (g : Graph) (slot : Nat) : g.extendTrace slot [] = g := by
  have hid : (fun t : Trace => t.extend []) = id := funext extend_nil
  simp only [extendTrace, hid, List.modify_id]

theorem extendTrace_append (g : Graph) (slot : Nat) (as bs : List Action) :
    (g.extendTrace slot as).extendTrace slot bs = g.extendTrace slot (as ++ bs) := by
  have hcomp : (fun t : Trace => t.extend bs) ∘ (fun t : Trace => t.extend as) =
      fun t : Trace => t.extend (as ++ bs) := by
    funext t
    simp [Trace.extend]
  simp only [extendTrace, List.modify_modify_eq, hcomp]

/-- A trace whose actions follow one another stays so when actions follow that follow its last. -/
theorem pairwise_extend {t : Trace} {as : List Action}
    (ht : t.actions.Pairwise fun a b => a.index < b.index) (h : Follows t.lastIndex? as) :
    (t.extend as).actions.Pairwise fun a b => a.index < b.index := by
  refine List.pairwise_append.2 ⟨ht, h.2, ?_⟩
  intro a ha b hb
  cases hlast : t.actions.getLast? with
  | none =>
    rw [List.getLast?_eq_none_iff] at hlast
    rw [hlast] at ha
    cases ha
  | some l =>
    have hlb : l.index < b.index := h.1 _ (by simp [Trace.lastIndex?, Trace.last?, hlast]) b hb
    obtain ⟨front, hfront⟩ := List.getLast?_eq_some_iff.1 hlast
    rw [hfront] at ht ha
    rcases List.mem_append.1 ha with ha | ha
    · have := (List.pairwise_append.1 ht).2.2 a ha l List.mem_cons_self
      omega
    · rw [List.mem_singleton.1 ha]
      exact hlb

/-! ## Results -/

theorem withResults_append (g : Graph) (as bs : List Action) :
    g.withResults (as ++ bs) = g.withResults as ++ g.withResults bs :=
  List.filterMap_append

theorem mem_withResults {g : Graph} {as : List Action} {p : Action × State}
    (h : p ∈ g.withResults as) : g.state? p.1.result = some p.2 := by
  obtain ⟨a, -, ha⟩ := List.mem_filterMap.1 h
  obtain ⟨s, hs, rfl⟩ := Option.map_eq_some_iff.1 ha
  exact hs

/-- No action is left out that the graph admits. -/
theorem withResults_fst {g : Graph} {as : List Action} (h : ∀ a ∈ as, g.Admits a) :
    (g.withResults as).map Prod.fst = as := by
  induction as with
  | nil => rfl
  | cons a as ih =>
    obtain ⟨source, result, -, hresult, -⟩ := h a List.mem_cons_self
    have hrest := ih fun b hb => h b (List.mem_cons_of_mem _ hb)
    rw [withResults, List.filterMap_cons, hresult]
    exact congrArg (a :: ·) hrest

theorem withResults_length {g : Graph} {as : List Action} (h : ∀ a ∈ as, g.Admits a) :
    (g.withResults as).length = as.length := by
  rw [← List.length_map Prod.fst, withResults_fst h]

end Graph
end ScreenGraph
