import ScreenGraph.Proofs.Export.Reload
import ScreenGraph.Proofs.Load.Sightings

/-!
# ScreenGraph.Proofs.Export.Lockstep

A load, and the load of what was exported from it, side by side.

Both register the same states in the same order. The first names them as the files do and the second
by their ids, but at every moment the second graph is the first one with flat texts.

* `Flattened.step`: one state after another.
* `attemptAll_flattened`: the result states of a trace.
* `outcomesFrom_written`: the actions of a trace, read back.
-/

namespace ScreenGraph

open Export Files Graph Identity Record Screen Text

namespace Screen

theorem State.flat_contains (s : State) (w : WidgetId) : s.flat.contains w = s.contains w := by
  refine State.contains_congr ?_ w
  rw [State.flat, List.map_map]
  rfl

end Screen

namespace Graph

/-- The graph `g'` is `g` with flat texts. Aliases do not count. -/
structure Flattened (g g' : Graph) : Prop where
  state? : ∀ id, g'.state? id = (g.state? id).map State.flat
  widget? : ∀ id, g'.widget? id = (g.widget? id).map Widget.flat
  traces : g'.traces = g.traces.map Trace.flat

/-- The action's states and target are in the second graph if they are in the first. -/
theorem Flattened.admits {g g' : Graph} (h : Flattened g g') {a : Action} (ha : g.Admits a) :
    g'.Admits a := by
  obtain ⟨source, result, hsource, hresult, htarget⟩ := ha
  refine ⟨source.flat, result.flat, ?_, ?_, ?_⟩
  · rw [h.state?, hsource]
    rfl
  · rw [h.state?, hresult]
    rfl
  · intro w hw
    obtain ⟨hsome, hcontains⟩ := htarget w hw
    refine ⟨?_, ?_⟩
    · rw [h.widget?, Option.isSome_map]
      exact hsome
    · rw [State.flat_contains]
      exact hcontains

end Graph

namespace Load

/-! ## One state -/

section

variable {g₀ g₁ g₀' g₁' : Graph} {S state : State}

/-- A widget is read back flat, since what it lies in is read back with it. -/
theorem Introduced.restored (h : Introduced g₀ g₁ S) {id : WidgetId} (hnew : g₀.widget? id = none) :
    (S.widget? id).map (restoredIn (S.widgets.map (·.id))) = (S.widget? id).map Widget.flat := by
  cases hw : S.widget? id with
  | none => rfl
  | some w =>
    obtain ⟨-, hid⟩ := State.mem_of_widget? hw
    have hparent : w.parent.filter (fun p => p ∈ S.widgets.map (·.id) ∧ p ≠ w.id) = w.parent := by
      cases hp : w.parent with
      | none => rfl
      | some p =>
        obtain ⟨hcontains, hne⟩ := h.parent id w hnew hw p hp
        obtain ⟨v, hv, hvid⟩ := State.contains_iff.1 hcontains
        have hmem : p ∈ S.widgets.map (·.id) := hvid ▸ List.mem_map_of_mem hv
        rw [hid]
        simp [Option.filter, hmem, hne]
    rw [Option.map_some, Option.map_some, restoredIn, hparent]
    rfl

theorem Flattened.widget?_step (h : Flattened g₀ g₀') (hintroduced : Introduced g₀ g₁ S)
    (hreread : Reread g₀' g₁' S state) (id : WidgetId) :
    g₁'.widget? id = (g₁.widget? id).map Widget.flat := by
  rw [hreread.widget?, h.widget?, hintroduced.widget?]
  cases hold : g₀.widget? id with
  | some w => rfl
  | none =>
    rw [hintroduced.restored hold]
    simp

/-- What was read back for a state is the state with flat texts. -/
theorem Flattened.state_eq (h : Flattened g₀ g₀') (hintroduced : Introduced g₀ g₁ S)
    (hreread : Reread g₀' g₁' S state) (hg₁ : g₁.Canonical) (hg₁' : g₁'.Canonical)
    (hids : state.widgets.map (·.id) = S.widgets.map (·.id)) : state = S.flat := by
  have hS : g₁.state? S.id = some S := by rw [hintroduced.state?, if_pos rfl]
  have hstate : g₁'.state? S.id = some state := by rw [hreread.state?, if_pos rfl]
  have hread : state.widgets.map some = (state.widgets.map (·.id)).map g₁'.widget? := by
    rw [List.map_map]
    exact List.map_congr_left fun v hv => (hg₁'.member _ _ hstate v hv).symm
  have hkept : (S.widgets.map (·.id)).map g₁'.widget? = (S.widgets.map Widget.flat).map some := by
    rw [List.map_map, List.map_map]
    refine List.map_congr_left ?_
    intro w hw
    show g₁'.widget? w.id = some w.flat
    rw [Flattened.widget?_step h hintroduced hreread, hg₁.member _ _ hS w hw]
    rfl
  have hwidgets : state.widgets = S.widgets.map Widget.flat := by
    rw [hids] at hread
    exact (List.map_injective_iff.2 fun _ _ => Option.some.inj) (hread.trans hkept)
  have hhome : state.home = S.home := by
    rw [hg₁'.home_eq hstate, hg₁.home_eq hS, hwidgets, List.any_map]
    rfl
  obtain ⟨id, widgets, home⟩ := state
  have hid : id = S.id := hreread.identity
  dsimp only at hwidgets hhome
  rw [hid, hwidgets, hhome, State.flat]

/-- Both graphs get the same state. -/
theorem Flattened.step (h : Flattened g₀ g₀') (hintroduced : Introduced g₀ g₁ S)
    (hreread : Reread g₀' g₁' S state) (hg₁ : g₁.Canonical) (hg₁' : g₁'.Canonical)
    (hids : state.widgets.map (·.id) = S.widgets.map (·.id)) (htraces : g₁.traces = g₀.traces) :
    Flattened g₁ g₁' where
  state? id := by
    rw [hreread.state?, hintroduced.state?, Flattened.state_eq h hintroduced hreread hg₁ hg₁' hids]
    split
    · rfl
    · exact h.state? id
  widget? := Flattened.widget?_step h hintroduced hreread
  traces := by rw [hreread.traces, htraces, h.traces]

end

/-! ## The result states of a trace -/

section

variable {settings moved : Settings} {files written : Tree} {g : Graph}
  {sets : List (List WidgetId)}

theorem attemptAll_flattened (h : Written moved written g) (hdistinct : Distinguished sets)
    (number : Nat) {s s' : Survey} {rs : List Record} {as : List Action} (hs : s.Recorded sets)
    (hs' : s'.Rereads g) (hflat : Flattened s.graph s'.graph)
    (hsets : ∀ r ∈ rs, ∀ rows, readAll files
      (settings.statePath (trim (r.field TraceColumn.result))) settings.widgetLayout
        settings.separator = .ok rows → rows.map identify ∈ sets)
    (hresults : List.Forall₂ (fun attempt a => ∃ S, attempt.result = .ok S ∧ S.id = a.result)
      (attemptAll settings files s rs).2 as)
    (hkept : (attemptAll settings files s rs).1.graph.KeptIn g) :
    (attemptAll settings files s rs).1.Recorded sets ∧
      Flattened (attemptAll settings files s rs).1.graph
        (attemptAll moved written s' (actionRows moved.separator number as)).1.graph := by
  induction rs generalizing s s' as number with
  | nil =>
    cases hresults
    exact ⟨hs, hflat⟩
  | cons r rs ih =>
    rw [attemptAll_cons] at hresults hkept ⊢
    dsimp only at hresults hkept ⊢
    cases hresolve : s.resolve settings files (r.field TraceColumn.result) with
    | mk s₁ result =>
      rw [hresolve] at hresults hkept
      dsimp only at hresults hkept ⊢
      obtain ⟨a, as, hfirst, hrest, rfl⟩ := List.forall₂_cons_left_iff.1 hresults
      obtain ⟨S, hS, hid⟩ := hfirst
      dsimp only at hS
      subst hS
      obtain ⟨hs₁, hintroduced⟩ := resolve_introduced hs hdistinct
        (hsets r List.mem_cons_self) hresolve
      obtain ⟨-, -, hself, htraces⟩ := Survey.resolve_spec hs.toSound hresolve
      obtain ⟨-, hlater, -⟩ := attemptAll_spec settings files rs hs₁.toSound
      have hwritten : g.state? S.id = some S := (hlater.trans hkept).state _ _ hself
      obtain ⟨s₁', state, hresolve', hs₁', hreread⟩ := resolve_written h hwritten hs'
      have hids : state.widgets.map (·.id) = S.widgets.map (·.id) := by
        obtain ⟨S', hS', hids⟩ := hs₁'.shown S.id state (by rw [hreread.state?, if_pos rfl])
        have hsame : S' = S := Option.some.inj (hS'.symm.trans hwritten)
        rw [hids, hsame]
      have hflat₁ : Flattened s₁.graph s₁'.graph :=
        Flattened.step hflat hintroduced hreread hs₁.canonical hs₁'.canonical hids htraces
      have hrows : actionRows moved.separator number (a :: as) =
        actionRow moved.separator number a :: actionRows moved.separator (number + 1) as := rfl
      have hfield : (actionRow moved.separator number a).field TraceColumn.result = S.id.text := by
        rw [hid]
        rfl
      rw [hrows, attemptAll_cons, hfield, hresolve']
      exact ih (number + 1) hs₁ hs₁' hflat₁ (fun r' hr' => hsets r' (List.mem_cons_of_mem _ hr'))
        hrest hkept

/-! ## The actions of a trace -/

theorem Survey.Rereads.settled? {s : Survey} (hs : s.Rereads g) (id : StateId) :
    s.settled? id.text = s.graph.state? id := by
  unfold Survey.settled?
  rw [id.trim_text]
  dsimp only
  cases hknown : s.known.find? id.text with
  | none => exact hs.stateNamed? id
  | some state =>
    have hid : id = state.id := Ident.text_injective (hs.named _ _ hknown)
    rw [hid]
    exact (hs.known _ _ hknown).symm

/-- Written actions are resolved to themselves, with flat texts, and there is nothing to note. -/
theorem outcomesFrom_written {sep : Char} {s : Survey} {attempts : List Attempt}
    {as : List Action} (index number : Nat) (hs : s.Rereads g) (hindices : Consecutive index as)
    (has : ∀ a ∈ as, a.Legible sep ∧ s.graph.Admits a)
    (hrecords : attempts.map (·.record) = actionRows sep number as)
    (hresults : List.Forall₂ (fun attempt a =>
      ∃ state, attempt.result = .ok state ∧ state.id = a.result) attempts as) :
    let r := outcomesFrom s index attempts
    r.2 = none ∧ actionsOf r.1 = as.map Action.flat ∧
      ∀ o ∈ r.1, ∃ line resolution, o = .resolved line resolution ∧ resolution.notes = [] := by
  induction hresults generalizing index number with
  | nil => exact ⟨rfl, rfl, fun o ho => by cases ho⟩
  | @cons attempt a attempts as hfirst hall ih =>
    obtain ⟨r, result⟩ := attempt
    obtain ⟨state, hstate, hresult⟩ := hfirst
    cases hstate
    obtain ⟨hindex, hrest⟩ := consecutive_cons.1 hindices
    obtain ⟨hrow, hrows⟩ := List.cons.inj hrecords
    obtain ⟨hlegible, source, -, hsource, -, htarget⟩ := has a List.mem_cons_self
    have hid : source.id = a.source := hs.canonical.stateKey _ _ hsource
    have hresolve : resolve s index r state = .ok ⟨a.flat, state, []⟩ := by
      have hsettled : s.settled? a.source.text = some source := by rw [hs.settled?, hsource]
      have hr : r = actionRow sep number a := hrow
      rw [hr, ← hindex]
      exact resolve_actionRow number hlegible hsettled hid hresult htarget
    have houtcome : outcomeOf s index r state = .resolved r.line ⟨a.flat, state, []⟩ := by
      rw [outcomeOf, hresolve]
    obtain ⟨hfailure, hactions, hsilent⟩ := ih (index + 1) (number + 1) hrest
      (fun b hb => has b (List.mem_cons_of_mem _ hb)) hrows
    rw [outcomesFrom_ok, houtcome]
    refine ⟨hfailure, ?_, ?_⟩
    · rw [List.map_cons, ← hactions]
      rfl
    · intro o ho
      rcases List.mem_cons.1 ho with rfl | ho
      · exact ⟨_, _, rfl, rfl⟩
      · exact hsilent o ho

end

end Load
end ScreenGraph
