import Mathlib.Data.List.Dedup
import ScreenGraph.Proofs.Load.Runs

/-!
# ScreenGraph.Proofs.Load.Sightings

What a look-up adds to a graph, seen from the state that it answers with.

Unless two different sets of widgets have one fingerprint, a look-up adds its state with the widgets
that are new, and each new widget lies in another one of the same state, if in any. A file that is
read for a state which is there already, under another name, adds nothing.

* `Distinguished`, `recordedSets`: no fingerprint stands for two sets.
* `StateAdded.introduced`, `resolve_introduced`: a look-up adds its state and nothing else.
-/

namespace ScreenGraph

open Files Graph Identity Record Screen

/-- No two of the sets have the same fingerprint without having the same members. -/
def Identity.Distinguished (sets : List (List WidgetId)) : Prop :=
  ∀ as ∈ sets, ∀ bs ∈ sets, StateId.ofWidgets as = StateId.ofWidgets bs → as ⊆ bs

/-- It is enough to compare the fingerprints of the sets once each is there only once. -/
theorem Identity.distinguished_of_nodup {sets : List (List WidgetId)}
    (h : (sets.dedup.map StateId.ofWidgets).Nodup) : Distinguished sets := by
  intro as has bs hbs he
  have hsame : as = bs :=
    List.inj_on_of_nodup_map h (List.mem_dedup.2 has) (List.mem_dedup.2 hbs) he
  rw [hsame]
  exact List.Subset.refl bs

namespace Load

/-- The widgets in each state file that a trace file of the directory names, and no widgets. -/
def recordedSets (settings : Settings) (files : Tree) (names : List String) :
    List (List WidgetId) :=
  [] :: ((discover settings names).1.flatMap (stateFiles settings files)).filterMap fun path =>
    (readAll files path settings.widgetLayout settings.separator).toOption.map (·.map identify)

theorem mem_stateFiles {settings : Settings} {files : Tree} {source : Source} {items : List Item}
    (hopen : openFile files source.path .trace settings.separator = .ok items) {r : Record}
    (hr : r ∈ (Intake.ofItems settings.malformed items).records) :
    settings.statePath (Text.trim (r.field TraceColumn.result)) ∈
      stateFiles settings files source := by
  unfold stateFiles
  rw [hopen]
  exact List.mem_filterMap.2 ⟨.ok r, ofItems_records hr, rfl⟩

theorem mem_recordedSets {settings : Settings} {files : Tree} {names : List String}
    {source : Source} {path : Path} {rows : List Record}
    (hsource : source ∈ (discover settings names).1)
    (hpath : path ∈ stateFiles settings files source)
    (hrows : readAll files path settings.widgetLayout settings.separator = .ok rows) :
    rows.map identify ∈ recordedSets settings files names := by
  refine List.mem_cons_of_mem _ (List.mem_filterMap.2 ⟨path, ?_, ?_⟩)
  · exact List.mem_flatMap.2 ⟨source, hsource, hpath⟩
  · rw [hrows]
    rfl

/-- The graph `g'` is `g` with the state `S` in it, whose new widgets lie in widgets of `S`. -/
structure Introduced (g g' : Graph) (S : State) : Prop where
  state? : ∀ id, g'.state? id = if id = S.id then some S else g.state? id
  widget? : ∀ id, g'.widget? id = (g.widget? id).or (S.widget? id)
  parent : ∀ id w, g.widget? id = none → S.widget? id = some w →
    ∀ p, w.parent = some p → S.contains p = true ∧ p ≠ id

/-- A survey whose states show recorded sets. -/
structure Survey.Recorded (sets : List (List WidgetId)) (s : Survey) : Prop extends s.Sound where
  recorded : ∀ id S, s.graph.state? id = some S →
    ∃ as ∈ sets, ∀ w, w ∈ as ↔ S.contains w = true

section

variable {g g' : Graph} {S : State} {rows : List Record}

/-- A state that is there already brings nothing with it. -/
theorem introduced_self (hg : g.Canonical) (hS : g.state? S.id = some S) : Introduced g g S := by
  have hwidget : ∀ id w, S.widget? id = some w → g.widget? id = some w := by
    intro id w hw
    obtain ⟨hmem, rfl⟩ := State.mem_of_widget? hw
    exact hg.member _ _ hS w hmem
  refine ⟨?_, ?_, ?_⟩
  · intro id
    split
    · rename_i hid
      rw [hid, hS]
    · rfl
  · intro id
    cases hw : S.widget? id with
    | none => simp
    | some w => rw [hwidget id w hw, Option.some_or]
  · intro id w hnone hw
    rw [hwidget id w hw] at hnone
    cases hnone

/-- Only what is registered counts. -/
theorem Introduced.of_eq {g₁ : Graph} (h : Introduced g g₁ S)
    (hwidgets : g'.widgets = g₁.widgets) (hstates : g'.states = g₁.states) :
    Introduced g g' S := by
  refine ⟨?_, ?_, h.parent⟩
  · intro id
    rw [← h.state?]
    simp only [Graph.state?, hstates]
  · intro id
    rw [← h.widget?]
    simp only [Graph.widget?, hwidgets]

theorem mem_values_of_lookup {siblings : Siblings} {name : String} {p : WidgetId}
    (h : siblings.lookup name = some p) : p ∈ siblings.map (·.2) := by
  obtain ⟨front, back, rfl, -⟩ := List.lookup_eq_some_iff.1 h
  simp

theorem parentOf_siblingsOf {r : Record} {p : WidgetId}
    (h : parentOf (siblingsOf rows) r = some p) : p ∈ rows.map identify ∧ p ≠ identify r := by
  unfold parentOf at h
  dsimp only at h
  split at h
  · cases h
  · obtain ⟨hlookup, hne⟩ := Option.filter_eq_some_iff.1 h
    have hmem := mem_values_of_lookup hlookup
    unfold siblingsOf at hmem
    rw [List.map_reverse, List.mem_reverse, List.mem_map] at hmem
    obtain ⟨pair, hpair, rfl⟩ := hmem
    obtain ⟨r', hr', rfl⟩ := List.mem_map.1 (List.mem_filter.1 hpair).1
    exact ⟨List.mem_map_of_mem hr', by simpa using hne⟩

namespace StateAdded

theorem registered (h : StateAdded g rows g' S) : g'.state? S.id = some S := by
  rw [h.state?, if_pos rfl]

/-- A new state shows the widgets of its rows. -/
theorem contains_iff (h : StateAdded g rows g' S) (hnew : g.state? S.id = none) (w : WidgetId) :
    w ∈ rows.map identify ↔ S.contains w = true := by
  have hids : w ∈ S.widgets.map (·.id) ↔
      w ∈ (rows.map (widgetOf (siblingsOf rows))).map (·.id) := by
    rw [h.shown hnew]
    exact mem_ids_firstSightings
  rw [List.map_map] at hids
  rw [State.contains_iff]
  exact hids.symm.trans (by simp only [List.mem_map])

theorem find?_eq_none (h : w ∉ rows.map identify) :
    rows.find? (identify · = w) = none := by
  rw [List.find?_eq_none]
  intro r hr
  have hne : identify r ≠ w := by
    intro he
    exact h (he ▸ List.mem_map_of_mem hr)
  simpa using hne

/-- The rows of a file add their state if it is new. -/
theorem introduced_of_new (h : StateAdded g rows g' S) (hnew : g.state? S.id = none) :
    Introduced g g' S := by
  have hwidget : ∀ id, g.widget? id = none →
      S.widget? id = (rows.find? (identify · = id)).map (widgetOf (siblingsOf rows)) := by
    intro id hnone
    have hadded := h.widget? id
    rw [hnone, Option.none_or] at hadded
    rw [← hadded]
    cases hS : S.widget? id with
    | some w =>
      obtain ⟨hmem, rfl⟩ := State.mem_of_widget? hS
      exact (h.canonical.member _ _ h.registered w hmem).symm
    | none =>
      have hcontains : S.contains id = false := by
        rw [State.contains, hS]
        rfl
      have hrows : id ∉ rows.map identify := fun hmem => by
        rw [(h.contains_iff hnew id).1 hmem] at hcontains
        cases hcontains
      rw [hadded, find?_eq_none hrows]
      rfl
  refine ⟨h.state?, ?_, ?_⟩
  · intro id
    rw [h.widget?]
    cases hold : g.widget? id with
    | some w => rfl
    | none => rw [Option.none_or, Option.none_or, hwidget id hold]
  · intro id w hnone hw p hp
    rw [hwidget id hnone] at hw
    obtain ⟨r, hr, rfl⟩ := Option.map_eq_some_iff.1 hw
    have hid : identify r = id := by simpa using List.find?_some hr
    dsimp only [widgetOf] at hp
    obtain ⟨hmem, hne⟩ := parentOf_siblingsOf hp
    exact ⟨(h.contains_iff hnew p).1 hmem, hid ▸ hne⟩

/-- Rows add nothing to a graph that has their state and all of its widgets. -/
theorem introduced_of_old (h : StateAdded g rows g' S) (hg : g.Canonical)
    (hold : g.state? S.id = some S) (hrows : ∀ w ∈ rows.map identify, S.contains w = true) :
    Introduced g g' S := by
  have hself := introduced_self hg hold
  refine ⟨h.state?, ?_, hself.parent⟩
  intro id
  rw [h.widget?]
  cases hw : g.widget? id with
  | some w => rfl
  | none =>
    have hmissing : S.contains id = false := by
      rw [Bool.eq_false_iff]
      intro hcontains
      obtain ⟨v, hv, rfl⟩ := State.contains_iff.1 hcontains
      rw [hg.member _ _ hold v hv] at hw
      cases hw
    have hnone : S.widget? id = none := by
      rw [State.contains] at hmissing
      simpa using hmissing
    have hno : id ∉ rows.map identify := fun hmem => by
      rw [hrows id hmem] at hmissing
      cases hmissing
    rw [hnone, find?_eq_none hno]
    rfl

/-- Unless fingerprints collide, the rows of a file add their state and nothing else. -/
theorem introduced {sets : List (List WidgetId)} {known : Registry String State}
    (h : StateAdded g rows g' S) (hs : Survey.Recorded sets ⟨g, known⟩)
    (hdistinct : Distinguished sets) (hrows : rows.map identify ∈ sets) :
    Introduced g g' S ∧ ∃ as ∈ sets, ∀ w, w ∈ as ↔ S.contains w = true := by
  cases hold : g.state? S.id with
  | none =>
    exact ⟨h.introduced_of_new hold, _, hrows, h.contains_iff hold⟩
  | some S₀ =>
    have hkept := h.kept.state _ _ hold
    have hsame : S₀ = S := Option.some.inj (hkept.symm.trans h.registered)
    subst hsame
    obtain ⟨as, has, hmem⟩ := hs.recorded _ _ hold
    have hfingerprint : StateId.ofWidgets (rows.map identify) = StateId.ofWidgets as := by
      rw [← h.identity, hs.canonical.state_id hold]
      refine StateId.ofWidgets_congr ?_
      intro w
      rw [hmem, State.contains_iff, List.mem_map]
    have hsubset := hdistinct _ hrows _ has hfingerprint
    exact ⟨h.introduced_of_old hs.canonical hold fun w hw => (hmem w).1 (hsubset hw), as, has, hmem⟩

end StateAdded

end

/-- A look-up adds the state that it answers with, and nothing else. -/
theorem resolve_introduced {settings : Settings} {files : Tree} {sets : List (List WidgetId)}
    {s s' : Survey} {raw : String} {S : State} (hs : s.Recorded sets)
    (hdistinct : Distinguished sets)
    (hsets : ∀ rows, readAll files (settings.statePath (Text.trim raw)) settings.widgetLayout
      settings.separator = .ok rows → rows.map identify ∈ sets)
    (h : s.resolve settings files raw = (s', .ok S)) :
    s'.Recorded sets ∧ Introduced s.graph s'.graph S := by
  obtain ⟨hsound, -, hself, -⟩ := Survey.resolve_spec hs.toSound h
  have hkeep : ∀ {g' : Graph} {known : Registry String State},
      Survey.Sound ⟨g', known⟩ → Introduced s.graph g' S →
      (∃ as ∈ sets, ∀ w, w ∈ as ↔ S.contains w = true) → Survey.Recorded sets ⟨g', known⟩ := by
    intro g' known hsound' hintroduced hshown
    refine ⟨hsound', ?_⟩
    intro id S' hS'
    dsimp only at hS'
    rw [hintroduced.state?] at hS'
    split at hS'
    · cases hS'
      exact hshown
    · exact hs.recorded _ _ hS'
  rcases Survey.resolve_cases h with ⟨rfl, hknown⟩ | ⟨g', hunknown, hlook, rfl⟩
  · exact ⟨hs, introduced_self hs.canonical (hs.known _ _ hknown)⟩
  · rcases Survey.lookUp_cases hs.canonical hlook with ⟨rfl, hnamed⟩ |
      ⟨rows, g₁, -, hread, hadded, hg'⟩
    · have hold : s.graph.state? S.id = some S := stateNamed?_registered hs.canonical.toSound hnamed
      exact ⟨⟨hsound, hs.recorded⟩, introduced_self hs.canonical hold⟩
    · obtain ⟨hintroduced, hshown⟩ := hadded.introduced hs hdistinct (hsets rows hread)
      rcases hg' with rfl | rfl
      · exact ⟨hkeep hsound hintroduced hshown, hintroduced⟩
      · have halias : Introduced s.graph (g₁.aliasState (Text.trim raw) S.id) S :=
          hintroduced.of_eq rfl rfl
        exact ⟨hkeep hsound halias hshown, halias⟩

end Load
end ScreenGraph
