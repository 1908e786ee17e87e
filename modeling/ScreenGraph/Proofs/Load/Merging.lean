import ScreenGraph.Proofs.Graph.History
import ScreenGraph.Proofs.Load.Cells
import ScreenGraph.Proofs.Load.Sightings

/-!
# ScreenGraph.Proofs.Load.Merging

Row lists that are put into a model one after another, in any order.

Which widget and which state is kept under an id depends on the order, for the first one wins. The
ids do not: each list adds the identities of its rows and the fingerprint of their set. So rows
that show the same set of widgets are answered with the same state, however they are ordered,
repeated or written otherwise.

* `Labelled`, `run_labelled`: in every reachable model a state is registered under the fingerprint
  of what it shows.
* `merged_single`, `Merged.cons`: what one list adds, and what it adds to those before it.
* `merged_all`: what all lists add.
* `merged_any_order`: the ids after all lists, and what the lists are answered with.
-/

namespace ScreenGraph

open Identity Screen Graph Record

/-! ## Reachable models -/

namespace Graph

theorem Registry.mem_values {κ ν : Type} [DecidableEq κ] {r : Registry κ ν} {k : κ} {v : ν}
    (h : r.find? k = some v) : v ∈ r.values := by
  obtain ⟨front, back, hentries, -⟩ := List.lookup_eq_some_iff.1 h
  rw [values, hentries]
  simp

/-- Every state is registered under the fingerprint of the widgets it shows. -/
structure Labelled (g : Graph) : Prop extends g.Sound where
  fingerprint : ∀ id s, g.state? id = some s → id = StateId.ofWidgets (s.widgets.map (·.id))

variable {g g' : Graph}

theorem Labelled.of_states (hg : g.Labelled) (hsound : g'.Sound) (h : g'.states = g.states) :
    g'.Labelled where
  toSound := hsound
  fingerprint id s hs := hg.fingerprint id s (by simpa only [state?, h] using hs)

theorem Labelled.addState (hg : g.Labelled) (ws : List Widget) :
    (g.addState (State.ofWidgets ws)).Labelled where
  toSound := hg.toSound.addState _
  fingerprint id s hs := by
    rcases Registry.find?_register_cases hs with hold | ⟨rfl, rfl⟩
    · exact hg.fingerprint id s hold
    · rfl

theorem labelled_initial : initial.Labelled where
  toSound := sound_initial
  fingerprint id s hs := by
    rw [initial_state?] at hs
    split at hs
    · rename_i hid
      cases hs
      exact hid.trans StateId.ofWidgets_nil.symm
    · cases hs

end Graph

namespace Model

/-- Only a registration changes the states. -/
theorem step_states (m : Model) (op : Operation) :
    (m.step op).1.graph.states = m.graph.states ∨ ∃ ws, op = .registerState ws := by
  cases op with
  | registerState ws => exact .inr ⟨ws, rfl⟩
  | registerWidget w => exact .inl rfl
  | aliasWidget name id => exact .inl rfl
  | aliasState name id => exact .inl rfl
  | beginTrace id =>
    left
    simp only [step]
    cases hb : m.beginTrace id with
    | error e => rfl
    | ok begun =>
      obtain ⟨-, hg, -⟩ := beginTrace_ok (beginTrace_graph hb)
      rw [hg]
  | append h a =>
    left
    simp only [step]
    cases happend : m.append h a with
    | error e => rfl
    | ok announced =>
      obtain ⟨t, -, -, -, hg⟩ := append_ok_iff.1 (append_graph happend)
      simp only [commitAnswer, hg]
      rfl
  | appendAll h as =>
    left
    simp only [step]
    cases happend : m.appendAll h as with
    | error e => rfl
    | ok announced =>
      have hg := appendAll_graph happend
      by_cases hne : as = []
      · subst hne
        have hsame : Except.ok m.graph = Except.ok announced.model.graph := hg
        simp only [commitAnswer, ← Except.ok.inj hsame]
      · obtain ⟨t, -, -, -, hg⟩ := (appendAll_ok_iff hne).1 hg
        simp only [commitAnswer, hg]
        rfl

theorem step_labelled {m : Model} (hm : m.graph.Labelled) (op : Operation) :
    (m.step op).1.graph.Labelled := by
  rcases m.step_states op with hsame | ⟨ws, rfl⟩
  · exact hm.of_states ((m.step_change op).sound hm.toSound) hsame
  · exact hm.addState ws

theorem run_labelled {m : Model} (ops : List Operation) (hm : m.graph.Labelled) :
    (m.run ops).graph.Labelled := by
  induction ops generalizing m with
  | nil => exact hm
  | cons op ops ih => exact ih (step_labelled hm op)

end Model

namespace Load

/-! ## One list of rows -/

/-- The fingerprint of the set of widgets that rows show. -/
def fingerprint (rows : List Record) : StateId :=
  StateId.ofWidgets (rows.map identify)

/-- The graph `g'` is `g` with the rows of some lists merged into it, and these are the states
that the lists are answered with. -/
structure Merged (g : Graph) (lists : List (List Record)) (g' : Graph) (answers : List State) :
    Prop where
  labelled : g'.Labelled
  kept : g.KeptIn g'
  states : ∀ id, (g'.state? id).isSome = true ↔
    (g.state? id).isSome = true ∨ id ∈ lists.map fingerprint
  widgets : ∀ w, (g'.widget? w).isSome = true ↔
    (g.widget? w).isSome = true ∨ ∃ rows ∈ lists, w ∈ rows.map identify
  answered : List.Forall₂ (fun rows S => g'.state? (fingerprint rows) = some S) lists answers
  /-- A new state shows what the rows of some list show. -/
  shown : ∀ id S, g'.state? id = some S → g.state? id = some S ∨
    ∃ rows ∈ lists, ∀ w, w ∈ S.widgets.map (·.id) ↔ w ∈ rows.map identify

/-- No rows need no special case. -/
theorem addStateRows_eq (g : Graph) (rows : List Record) :
    addStateRows g rows =
      let added := addRows g (siblingsOf rows) rows
      (added.1.addState (State.ofWidgets added.2), added.1.stateFor (State.ofWidgets added.2)) := by
  cases rows with
  | nil => simp only [addStateRows, addRows, State.ofWidgets_nil, List.isEmpty_nil, if_true]
  | cons r rows => simp [addStateRows]

variable {g g₁ g' : Graph} {rows : List Record} {S : State}

theorem merged_single (hg : g.Labelled) (rows : List Record) :
    Merged g [rows] (addStateRows g rows).1 [(addStateRows g rows).2] := by
  rw [addStateRows_eq]
  have hids := addRows_ids (siblingsOf rows) hg.toSound rows
  obtain ⟨hstates, -, -⟩ := addRows_frame g (siblingsOf rows) rows
  have hwidgets := addRows_widget? g (siblingsOf rows) rows
  have hkept := kept_addRows g (siblingsOf rows) rows
  have hlabelled : (addRows g (siblingsOf rows) rows).1.Labelled :=
    hg.of_states (Sound.addRows _ hg.toSound rows) hstates
  generalize addRows g (siblingsOf rows) rows = added at *
  obtain ⟨g₁, ws⟩ := added
  dsimp only at *
  have hid : (State.ofWidgets ws).id = fingerprint rows := by
    rw [State.ofWidgets_id, hids]
    rfl
  have hold : ∀ id, g₁.state? id = g.state? id := fun id => by simp only [state?, hstates]
  refine ⟨hlabelled.addState ws, hkept.trans (g₁.kept_addState _), ?_, ?_, ?_, ?_⟩
  · intro id
    rw [state?_addState, hid, hold]
    by_cases hsame : id = fingerprint rows <;> simp [hsame]
  · intro w
    have hsame : (g₁.addState (State.ofWidgets ws)).widget? w = g₁.widget? w := rfl
    rw [hsame, hwidgets, Option.isSome_or, Option.isSome_map, Bool.or_eq_true, List.find?_isSome]
    simp
  · refine .cons ?_ .nil
    rw [state?_addState, if_pos hid.symm]
  · intro id T hT
    rcases Registry.find?_register_cases hT with hfound | ⟨-, rfl⟩
    · exact .inl ((hold id).symm.trans hfound)
    · refine .inr ⟨rows, List.mem_singleton_self rows, fun w => ?_⟩
      rw [← hids]
      exact mem_ids_firstSightings

/-! ## All lists -/

theorem Merged.nil (hg : g.Labelled) : Merged g [] g [] :=
  ⟨hg, .refl g, by simp, by simp, .nil, fun _ _ hS => .inl hS⟩

/-- The answer to the first list is registered from then on. -/
theorem Merged.cons {lists : List (List Record)} {answers : List State}
    (h : Merged g [rows] g₁ [S]) (hrest : Merged g₁ lists g' answers) :
    Merged g (rows :: lists) g' (S :: answers) where
  labelled := hrest.labelled
  kept := h.kept.trans hrest.kept
  states id := by
    rw [hrest.states, h.states]
    simp [or_assoc]
  widgets w := by
    rw [hrest.widgets, h.widgets]
    simp [or_assoc]
  answered := by
    obtain ⟨hS, -⟩ := List.forall₂_cons.1 h.answered
    exact .cons (hrest.kept.state _ _ hS) hrest.answered
  shown id T hT := by
    rcases hrest.shown id T hT with hfound | ⟨others, hmem, hshows⟩
    · rcases h.shown id T hfound with hold | ⟨first, hmem, hshows⟩
      · exact .inl hold
      · exact .inr ⟨first, by simp_all, hshows⟩
    · exact .inr ⟨others, List.mem_cons_of_mem _ hmem, hshows⟩

theorem merged_all (hg : g.Labelled) (lists : List (List Record)) :
    Merged g lists (serveAll addStateRows g lists).1 (serveAll addStateRows g lists).2 := by
  induction lists generalizing g with
  | nil => exact .nil hg
  | cons rows lists ih =>
    have hfirst := merged_single hg rows
    exact hfirst.cons (ih hfirst.labelled)

/-! ## What is answered -/

/-- The sets of widgets that are met: those of registered states and those of the lists. -/
def setsMet (g : Graph) (lists : List (List Record)) : List (List WidgetId) :=
  g.states.values.map (fun S => S.widgets.map (·.id)) ++ lists.map (·.map identify)

namespace Merged

variable {lists : List (List Record)} {answers : List State}

theorem answer (h : Merged g lists g' answers) {i : Nat} (hrows : lists[i]? = some rows)
    (hS : answers[i]? = some S) : g'.state? (fingerprint rows) = some S := by
  obtain ⟨hi, rfl⟩ := List.getElem?_eq_some_iff.1 hrows
  obtain ⟨hi', rfl⟩ := List.getElem?_eq_some_iff.1 hS
  exact (List.forall₂_iff_get.1 h.answered).2 i hi hi'

/-- Every state shows one of the sets that were met. -/
theorem shown_met (h : Merged g lists g' answers) {id : StateId} (hS : g'.state? id = some S) :
    ∃ as ∈ setsMet g lists, ∀ w, w ∈ S.widgets.map (·.id) ↔ w ∈ as := by
  rcases h.shown id S hS with hold | ⟨rows, hrows, hshows⟩
  · have hvalue : S ∈ g.states.values := Registry.mem_values hold
    exact ⟨_, List.mem_append_left _ (List.mem_map_of_mem hvalue), fun w => Iff.rfl⟩
  · exact ⟨_, List.mem_append_right _ (List.mem_map_of_mem hrows), hshows⟩

/-- Unless fingerprints collide, the state of a list shows what its rows show. -/
theorem shows (h : Merged g lists g' answers) (hdistinct : Distinguished (setsMet g lists))
    (hrows : rows ∈ lists) (hS : g'.state? (fingerprint rows) = some S) (w : WidgetId) :
    S.contains w = true ↔ w ∈ rows.map identify := by
  obtain ⟨as, has, hshows⟩ := h.shown_met hS
  have hmet : rows.map identify ∈ setsMet g lists :=
    List.mem_append_right _ (List.mem_map_of_mem hrows)
  have hsame : StateId.ofWidgets (rows.map identify) = StateId.ofWidgets as :=
    (h.labelled.fingerprint _ _ hS).trans (StateId.ofWidgets_congr hshows)
  rw [State.contains_iff, ← List.mem_map, hshows]
  exact ⟨fun hw => hdistinct _ has _ hmet hsame.symm hw, fun hw => hdistinct _ hmet _ has hsame hw⟩

end Merged

/-- Lists of rows that are put into a reachable model add the fingerprints of their sets and the
identities of all their rows, in whatever order they come. Lists that show the same set are answered
with the same registered state, and unless fingerprints collide it shows just that set. -/
theorem merged_any_order (watchers : List Watch.Watcher) (ops : List Model.Operation)
    {lists order : List (List Record)} (horder : order.Perm lists) :
    let g := ((Model.new watchers).run ops).graph
    let run := serveAll addStateRows g lists
    let run' := serveAll addStateRows g order
    (∀ id, (id ∈ run'.1.states.keys ↔ id ∈ run.1.states.keys) ∧
      (id ∈ run.1.states.keys ↔ id ∈ g.states.keys ∨ ∃ rows ∈ lists, fingerprint rows = id)) ∧
    (∀ w, (w ∈ run'.1.widgets.keys ↔ w ∈ run.1.widgets.keys) ∧
      (w ∈ run.1.widgets.keys ↔
        w ∈ g.widgets.keys ∨ ∃ rows ∈ lists, ∃ r ∈ rows, identify r = w)) ∧
    run.2.length = lists.length ∧
    ∀ (i : Nat) rows S, lists[i]? = some rows → run.2[i]? = some S →
      run.1.state? (fingerprint rows) = some S ∧
      (∀ (j : Nat) rows' S', lists[j]? = some rows' → run.2[j]? = some S' →
        (∀ w, w ∈ rows.map identify ↔ w ∈ rows'.map identify) → S = S') ∧
      (Distinguished (setsMet g lists) →
        ∀ w, S.contains w = true ↔ w ∈ rows.map identify) := by
  intro g run run'
  have hg : g.Labelled := Model.run_labelled ops labelled_initial
  have h : Merged g lists run.1 run.2 := merged_all hg lists
  have h' : Merged g order run'.1 run'.2 := merged_all hg order
  refine ⟨fun id => ?_, fun w => ?_, h.answered.length_eq.symm, fun i rows S hrows hS => ?_⟩
  · have hstates := h.states id
    have hstates' := h'.states id
    rw [(horder.map fingerprint).mem_iff] at hstates'
    exact ⟨Registry.mem_keys_iff.trans
        ((hstates'.trans hstates.symm).trans Registry.mem_keys_iff.symm),
      Registry.mem_keys_iff.trans (hstates.trans
        (or_congr Registry.mem_keys_iff.symm List.mem_map))⟩
  · have hwidgets := h.widgets w
    have hwidgets' := h'.widgets w
    simp only [horder.mem_iff] at hwidgets'
    simp only [List.mem_map] at hwidgets hwidgets'
    exact ⟨Registry.mem_keys_iff.trans
        ((hwidgets'.trans hwidgets.symm).trans Registry.mem_keys_iff.symm),
      Registry.mem_keys_iff.trans (hwidgets.trans
        (or_congr Registry.mem_keys_iff.symm Iff.rfl))⟩
  · have hanswer := h.answer hrows hS
    refine ⟨hanswer, fun j rows' S' hrows' hS' hsame => ?_, fun hdistinct =>
      h.shows hdistinct (List.mem_of_getElem? hrows) hanswer⟩
    have hfingerprint : fingerprint rows = fingerprint rows' := StateId.ofWidgets_congr hsame
    have hanswer' := h.answer hrows' hS'
    rw [← hfingerprint, hanswer] at hanswer'
    exact Option.some.inj hanswer'

def saveRow : Record :=
  ⟨1, ["b", "Button", "save", "app", "/b", "Save", "true", "", "", "", "", "1:1:2:2"]⟩

def quitRow : Record :=
  ⟨2, ["c", "Button", "quit", "app", "/c", "Quit", "true", "", "", "", "b", "1:3:2:4"]⟩

/-- The widget of `saveRow` with another text, no stored id and no bounds. -/
def savedRow : Record :=
  ⟨3, ["", "Button", "save", "app", "/b", "Saved", "", "", "", "", "c", ""]⟩

def dialogLists : List (List Record) :=
  [[saveRow, quitRow], [quitRow, savedRow, quitRow]]

theorem identify_savedRow : identify savedRow = identify saveRow := by
  decide +kernel

theorem dialogLists_same (w : WidgetId) : w ∈ [saveRow, quitRow].map identify ↔
    w ∈ [quitRow, savedRow, quitRow].map identify := by
  simp only [List.map_cons, List.map_nil, identify_savedRow, List.mem_cons, List.not_mem_nil,
    or_false]
  generalize identify saveRow = save, identify quitRow = quit
  tauto

theorem merged_any_order_dialog :
    let g := ((Model.new []).run [.aliasWidget "b" (identify quitRow)]).graph
    let run := serveAll addStateRows g dialogLists
    dialogLists.reverse.Perm dialogLists ∧
      (∀ id, id ∈ (serveAll addStateRows g dialogLists.reverse).1.states.keys ↔
        id ∈ run.1.states.keys) ∧
      Distinguished (setsMet g dialogLists) ∧
      ∃ S, run.2 = [S, S] ∧
        ∀ w, S.contains w = true ↔ w ∈ [identify saveRow, identify quitRow] := by
  intro g run
  have horder : dialogLists.reverse.Perm dialogLists := List.reverse_perm _
  have hdistinct : Distinguished (setsMet g dialogLists) := by
    unfold Distinguished
    decide +kernel
  obtain ⟨hstates, -, hlength, hanswers⟩ :=
    merged_any_order [] [.aliasWidget "b" (identify quitRow)] horder
  obtain ⟨S, S', hrun⟩ : ∃ S S', run.2 = [S, S'] := List.length_eq_two.1 hlength
  obtain ⟨-, hanswer, hshows⟩ := hanswers 0 _ S rfl (by rw [hrun]; rfl)
  have hS : S = S' := hanswer 1 _ S' rfl (by rw [hrun]; rfl) dialogLists_same
  exact ⟨horder, fun id => (hstates id).1, hdistinct, S, hS ▸ hrun, hshows hdistinct⟩

end Load
end ScreenGraph
