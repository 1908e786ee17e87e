import Mathlib.Data.List.Perm.Subperm
import ScreenGraph.Screen.Label

/-!
# ScreenGraph.Proofs.Screen.Label

The bound on the way down to a label hides nothing.

Each step that is taken leads to a widget of the state, and a way that comes to an end never meets
a widget twice: what is left of it gets shorter with each step, and is the same wherever it starts
at the same widget. So such a way has at most as many steps as the state has widgets. This needs
nothing of the state: ids may occur twice, parents may be missing or run in circles, and the widget
at the top may be one of another state.

* `Descends`: the way down without a bound, and its number of steps.
* `Descends.length_le`: a way that ends takes no more steps than there are widgets.
* `labelled_unbounded`: what names a widget is what is found without a bound, if anything is.
-/

namespace ScreenGraph
namespace Screen

/-- The children of a widget that have a text. -/
def State.speaking (s : State) (w : Widget) : List Widget :=
  (s.childrenOf w.id).filter (·.text ≠ "")

/-- The way down from a widget comes to its end at another one, after a number of steps. -/
inductive Descends (s : State) : Widget → Nat → Widget → Prop where
  | text {w : Widget} (htext : w.text ≠ "") : Descends s w 0 w
  | onlyText {w c : Widget} (hblank : w.text = "") (hc : s.speaking w = [c]) : Descends s w 1 c
  | onlyChild {w c v : Widget} {n : Nat} (hblank : w.text = "") (hno : ∀ d, s.speaking w ≠ [d])
    (hc : s.childrenOf w.id = [c]) (hrest : Descends s c n v) : Descends s w (n + 1) v
  | stop {w : Widget} (hblank : w.text = "") (hno : ∀ d, s.speaking w ≠ [d])
    (hnone : ∀ d, s.childrenOf w.id ≠ [d]) : Descends s w 0 w

variable {s : State} {w c u v : Widget} {m n : Nat}

/-! ## One step -/

theorem mem_speaking (h : c ∈ s.speaking w) : c ∈ s.widgets ∧ c.text ≠ "" := by
  obtain ⟨hchild, htext⟩ := List.mem_filter.1 h
  exact ⟨(List.mem_filter.1 hchild).1, by simpa using htext⟩

theorem mem_of_childrenOf (h : s.childrenOf w.id = [c]) : c ∈ s.widgets := by
  have hc : c ∈ s.childrenOf w.id := by
    rw [h]
    exact List.mem_singleton_self c
  exact (List.mem_filter.1 hc).1

theorem labelStep_text (h : w.text ≠ "") : labelStep s w = .here := by
  rw [labelStep, if_pos h]

theorem labelStep_onlyText (hblank : w.text = "") (hc : s.speaking w = [c]) :
    labelStep s w = .child c := by
  unfold State.speaking at hc
  simp only [labelStep, hblank, hc, ne_eq, not_true_eq_false, if_false]

theorem labelStep_onlyChild (hblank : w.text = "") (hno : ∀ d, s.speaking w ≠ [d])
    (hc : s.childrenOf w.id = [c]) : labelStep s w = .below c := by
  unfold State.speaking at hno
  simp only [labelStep, hblank, ne_eq, not_true_eq_false, if_false]
  split
  · rename_i d hd
    exact absurd hd (hno d)
  · rename_i d hd _
    rw [hc] at hd
    cases hd
    rfl
  · rename_i hnone
    exact absurd hc (hnone c)

theorem labelStep_stop (hblank : w.text = "") (hno : ∀ d, s.speaking w ≠ [d])
    (hnone : ∀ d, s.childrenOf w.id ≠ [d]) : labelStep s w = .here := by
  unfold State.speaking at hno
  simp only [labelStep, hblank, ne_eq, not_true_eq_false, if_false]

/-- The four ways to go on from a widget. -/
theorem step_cases (s : State) (w : Widget) :
    w.text ≠ "" ∨ w.text = "" ∧
      ((∃ c, s.speaking w = [c]) ∨ (∀ d, s.speaking w ≠ [d]) ∧
        ((∃ c, s.childrenOf w.id = [c]) ∨ ∀ d, s.childrenOf w.id ≠ [d])) := by
  by_cases htext : w.text = ""
  · refine .inr ⟨htext, ?_⟩
    by_cases hone : ∃ c, s.speaking w = [c]
    · exact .inl hone
    · refine .inr ⟨fun d hd => hone ⟨d, hd⟩, ?_⟩
      by_cases hchild : ∃ c, s.childrenOf w.id = [c]
      · exact .inl hchild
      · exact .inr fun d hd => hchild ⟨d, hd⟩
  · exact .inl htext

/-! ## Ways that come to an end -/

namespace Descends

/-- A way is determined by where it starts. -/
theorem unique (h : Descends s w m u) (h' : Descends s w n v) : m = n ∧ u = v := by
  induction h generalizing n v with
  | text htext =>
    cases h' with
    | text => exact ⟨rfl, rfl⟩
    | onlyText hblank => exact absurd hblank htext
    | onlyChild hblank => exact absurd hblank htext
    | stop => exact ⟨rfl, rfl⟩
  | onlyText hblank hc =>
    cases h' with
    | text htext => exact absurd hblank htext
    | onlyText _ hc' =>
      rw [hc] at hc'
      cases hc'
      exact ⟨rfl, rfl⟩
    | onlyChild _ hno => exact absurd hc (hno _)
    | stop _ hno => exact absurd hc (hno _)
  | onlyChild hblank hno hc _ ih =>
    cases h' with
    | text htext => exact absurd hblank htext
    | onlyText _ hc' => exact absurd hc' (hno _)
    | onlyChild _ _ hc' hrest' =>
      rw [hc] at hc'
      cases hc'
      obtain ⟨hn, hv⟩ := ih hrest'
      exact ⟨congrArg (· + 1) hn, hv⟩
    | stop _ _ hnone => exact absurd hc (hnone _)
  | stop hblank hno hnone =>
    cases h' with
    | text => exact ⟨rfl, rfl⟩
    | onlyText _ hc => exact absurd hc (hno _)
    | onlyChild _ _ hc => exact absurd hc (hnone _)
    | stop => exact ⟨rfl, rfl⟩

/-- The widgets stepped to are different ones of the state, because less and less of the way is
left at each. -/
theorem visited (h : Descends s w n v) : ∃ ws : List Widget,
    ws.length = n ∧ ws ⊆ s.widgets ∧ ws.Nodup ∧ ∀ u ∈ ws, ∃ k < n, Descends s u k v := by
  induction h with
  | text htext => exact ⟨[], rfl, List.nil_subset _, .nil, nofun⟩
  | @onlyText w c hblank hc =>
    obtain ⟨hmem, htext⟩ := mem_speaking (hc ▸ List.mem_singleton_self c)
    refine ⟨[c], rfl, by simpa using hmem, List.nodup_cons.2 ⟨List.not_mem_nil, .nil⟩,
      fun u hu => ?_⟩
    rw [List.mem_singleton.1 hu]
    exact ⟨0, by omega, .text htext⟩
  | @onlyChild w c v n hblank hno hc hrest ih =>
    obtain ⟨ws, hlength, hsub, hnodup, hleft⟩ := ih
    refine ⟨c :: ws, congrArg (· + 1) hlength, ?_, ?_, ?_⟩
    · exact List.cons_subset.2 ⟨mem_of_childrenOf hc, hsub⟩
    · refine List.nodup_cons.2 ⟨fun hmem => ?_, hnodup⟩
      obtain ⟨k, hk, hagain⟩ := hleft c hmem
      have hsame : k = n := (hagain.unique hrest).1
      omega
    · intro u hu
      rcases List.mem_cons.1 hu with rfl | hu
      · exact ⟨n, by omega, hrest⟩
      · obtain ⟨k, hk, hway⟩ := hleft u hu
        exact ⟨k, by omega, hway⟩
  | stop hblank hno hnone => exact ⟨[], rfl, List.nil_subset _, .nil, nofun⟩

theorem length_le (h : Descends s w n v) : n ≤ s.widgets.length := by
  obtain ⟨ws, rfl, hsub, hnodup, -⟩ := h.visited
  exact (List.Nodup.subperm hnodup hsub).length_le

/-- A bound that is not exceeded makes no difference. -/
theorem descend_eq (h : Descends s w n v) {budget : Nat} (hn : n ≤ budget) :
    descend s budget w = v := by
  induction h generalizing budget with
  | text htext =>
    cases budget with
    | zero => rfl
    | succ budget => rw [descend, labelStep_text htext]
  | onlyText hblank hc =>
    obtain ⟨budget, rfl⟩ := Nat.exists_eq_add_of_le' hn
    rw [descend, labelStep_onlyText hblank hc]
  | onlyChild hblank hno hc _ ih =>
    obtain ⟨budget, rfl⟩ := Nat.exists_eq_succ_of_ne_zero (n := budget) (by omega)
    rw [descend, labelStep_onlyChild hblank hno hc]
    exact ih (by omega)
  | stop hblank hno hnone =>
    cases budget with
    | zero => rfl
    | succ budget => rw [descend, labelStep_stop hblank hno hnone]

end Descends

/-! ## Any way -/

theorem descend_mem (s : State) (budget : Nat) (w : Widget) :
    descend s budget w = w ∨ descend s budget w ∈ s.widgets := by
  induction budget generalizing w with
  | zero => exact .inl rfl
  | succ budget ih =>
    rcases step_cases s w with htext | ⟨hblank, ⟨c, hc⟩ | ⟨hno, ⟨c, hc⟩ | hnone⟩⟩
    · rw [descend, labelStep_text htext]
      exact .inl rfl
    · rw [descend, labelStep_onlyText hblank hc]
      exact .inr (mem_speaking (hc ▸ List.mem_singleton_self c)).1
    · rw [descend, labelStep_onlyChild hblank hno hc]
      dsimp only
      rcases ih c with hsame | hmem
      · rw [hsame]
        exact .inr (mem_of_childrenOf hc)
      · exact .inr hmem
    · rw [descend, labelStep_stop hblank hno hnone]
      exact .inl rfl

/-- A way without an end leads past widgets without text only. -/
theorem descend_endless (hendless : ¬ ∃ n v, Descends s w n v) (budget : Nat) :
    (descend s budget w).text = "" := by
  induction budget generalizing w with
  | zero =>
    by_contra htext
    exact hendless ⟨0, w, .text htext⟩
  | succ budget ih =>
    rcases step_cases s w with htext | ⟨hblank, ⟨c, hc⟩ | ⟨hno, ⟨c, hc⟩ | hnone⟩⟩
    · exact absurd ⟨0, w, .text htext⟩ hendless
    · exact absurd ⟨1, c, .onlyText hblank hc⟩ hendless
    · rw [descend, labelStep_onlyChild hblank hno hc]
      refine ih fun ⟨n, v, hrest⟩ => ?_
      exact hendless ⟨n + 1, v, .onlyChild hblank hno hc hrest⟩
    · exact absurd ⟨0, w, .stop hblank hno hnone⟩ hendless

/-- A widget without text that is its own only child. -/
theorem endless_of_self (hblank : w.text = "") (hself : s.childrenOf w.id = [w]) :
    ¬ ∃ n v, Descends s w n v := by
  have hno : ∀ d, s.speaking w ≠ [d] := by
    intro d hd
    obtain ⟨hchild, htext⟩ := List.mem_filter.1 (hd ▸ List.mem_singleton_self d)
    rw [hself] at hchild
    rw [List.mem_singleton.1 hchild] at htext
    simp [hblank] at htext
  rintro ⟨n, v, h⟩
  cases h with
  | text htext => exact htext hblank
  | onlyText _ hc => exact hno _ hc
  | stop _ _ hnone => exact hnone _ hself
  | onlyChild _ _ hc hrest =>
    rw [hself] at hc
    cases hc
    have hlonger := (hrest.unique (.onlyChild hblank hno hself hrest)).1
    omega

/-- What names a widget is the widget itself or one of the state. It is where the way down without
a bound comes to its end, which takes no more steps than the state has widgets; and it has no text
if that way has no end. -/
theorem labelled_unbounded (s : State) (w : Widget) :
    (labelled s w = w ∨ labelled s w ∈ s.widgets) ∧
      (∀ n v, Descends s w n v → labelled s w = v ∧ n ≤ s.widgets.length) ∧
      ((¬ ∃ n v, Descends s w n v) → (labelled s w).text = "") := by
  refine ⟨descend_mem s _ w, fun n v h => ?_, fun h => descend_endless h _⟩
  exact ⟨h.descend_eq h.length_le, h.length_le⟩

/-- A list that is not in the state is named by what its only row holds. Another widget is its own
parent. -/
theorem labelled_unbounded_row :
    let id : UInt8 → Identity.WidgetId := fun n => ⟨⟨List.replicate 16 n, rfl⟩⟩
    let widget : UInt8 → String → UInt8 → Widget := fun n text parent =>
      ⟨id n, "", "", "", "", text, false, false, false, false, some (id parent), .zero⟩
    let list := widget 0 "" 9
    let ring := widget 3 "" 3
    let label := widget 2 "Inbox" 1
    let s : State := ⟨.empty, [widget 1 "" 0, label, ring], false⟩
    Descends s list 2 label ∧ (¬ ∃ n v, Descends s ring n v) ∧
      labelled s list = label ∧ (labelled s ring).text = "" := by
  intro id widget list ring label s
  have hlist : Descends s list 2 label := by
    have hrow : s.childrenOf list.id = [widget 1 "" 0] := by decide
    have hno : s.speaking list = [] := by decide
    refine .onlyChild rfl (fun d => ?_) hrow (.onlyText rfl (by decide))
    rw [hno]
    simp
  have hring : ¬ ∃ n v, Descends s ring n v := endless_of_self rfl (by decide)
  obtain ⟨-, hfound, -⟩ := labelled_unbounded s list
  obtain ⟨-, -, hnothing⟩ := labelled_unbounded s ring
  exact ⟨hlist, hring, (hfound 2 label hlist).1, hnothing hring⟩

end Screen
end ScreenGraph
