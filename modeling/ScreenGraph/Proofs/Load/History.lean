import ScreenGraph.Proofs.Load.Sightings

/-!
# ScreenGraph.Proofs.Load.History

Histories of a survey: names are looked up while the files change, rows are registered, settled
names are forgotten, targets and records are resolved, in any order and with any content.

A graph is `Closed` if it is canonical and nothing in it refers to what is not registered: aliases
denote registered widgets and states, and a widget lies in another registered one, if in any. Half
way through the rows of a file this need not hold, since an alias is there before its widget and a
parent may only come with a later row. It holds again when all rows are through.

* `Closed.of_rows`: what rows keep that are registered together.
* `step_wellKept`: what one operation keeps.
* `run_canonical`: the registries after any history.
-/

namespace ScreenGraph

open Files Graph Identity Record Screen

namespace Screen

theorem occursIn_iff {word cs : List Char} : occursIn word cs = true ↔ word <:+: cs := by
  induction cs with
  | nil => simp [occursIn]
  | cons c cs ih =>
    rw [occursIn, Bool.or_eq_true, List.isPrefixOf_iff_prefix, ih, List.infix_cons_iff]

theorem holdsLauncher_iff {packageName : String} : holdsLauncher packageName = true ↔
    "launcher".toList <:+: packageName.toList.map Char.toLower :=
  occursIn_iff

end Screen

namespace Graph

structure Closed (g : Graph) : Prop extends g.Canonical where
  widgetAlias : ∀ name id, g.widgetAlias? name = some id → (g.widget? id).isSome = true
  stateAlias : ∀ name id, g.stateAliases.find? name = some id → (g.state? id).isSome = true
  parent : ∀ id w, g.widget? id = some w → ∀ p, w.parent = some p →
    p ≠ id ∧ (g.widget? p).isSome = true

theorem closed_initial : initial.Closed where
  toCanonical := canonical_initial
  widgetAlias name id h := by cases h
  stateAlias name id h := by cases h
  parent id w h := by cases h

variable {g g' : Graph}

theorem KeptIn.widget_isSome (h : g.KeptIn g') {id : WidgetId}
    (hid : (g.widget? id).isSome = true) : (g'.widget? id).isSome = true := by
  obtain ⟨w, hw⟩ := Option.isSome_iff_exists.1 hid
  rw [h.widget _ _ hw]
  rfl

theorem KeptIn.state_isSome (h : g.KeptIn g') {id : StateId}
    (hid : (g.state? id).isSome = true) : (g'.state? id).isSome = true := by
  obtain ⟨s, hs⟩ := Option.isSome_iff_exists.1 hid
  rw [h.state _ _ hs]
  rfl

theorem Closed.aliasState (hg : g.Closed) (name : String) {id : StateId}
    (hid : (g.state? id).isSome = true) : (g.aliasState name id).Closed where
  toCanonical := hg.toCanonical.aliasState name id
  widgetAlias := hg.widgetAlias
  stateAlias other id' h := by
    rcases Registry.find?_register_cases h with hold | ⟨-, rfl⟩
    · exact hg.stateAlias other id' hold
    · exact hid
  parent := hg.parent

end Graph

namespace Load

variable {g g' : Graph} {S : State} {rows : List Record}

/-- Rows that are registered together, with no parent but one of them. -/
theorem Closed.of_rows (rows : List Record) (siblings : Siblings) (hg : g.Closed)
    (hcanonical : g'.Canonical) (hkept : g.KeptIn g')
    (haliases : g'.stateAliases = g.stateAliases)
    (hwidget : ∀ id, g'.widget? id =
      (g.widget? id).or ((rows.find? (identify · = id)).map (widgetOf siblings)))
    (halias : ∀ name, g'.widgetAlias? name =
      (g.widgetAlias? name).or ((rows.find? (namedBy name)).map identify))
    (hparent : ∀ r p, parentOf siblings r = some p →
      p ∈ rows.map identify ∧ p ≠ identify r) : g'.Closed := by
  have hrow : ∀ id ∈ rows.map identify, (g'.widget? id).isSome = true := by
    intro id hid
    obtain ⟨r, hr, rfl⟩ := List.mem_map.1 hid
    have hfound : (rows.find? (identify · = identify r)).isSome = true :=
      List.find?_isSome.2 ⟨r, hr, by simp⟩
    rw [hwidget, Option.isSome_or, Option.isSome_map, hfound, Bool.or_true]
  refine ⟨hcanonical, ?_, ?_, ?_⟩
  · intro name id h
    rw [halias] at h
    rcases Option.or_eq_some_iff.1 h with hold | ⟨-, hnew⟩
    · exact hkept.widget_isSome (hg.widgetAlias name id hold)
    · obtain ⟨r, hr, rfl⟩ := Option.map_eq_some_iff.1 hnew
      exact hrow _ (List.mem_map_of_mem (List.mem_of_find?_eq_some hr))
  · intro name id h
    rw [haliases] at h
    exact hkept.state_isSome (hg.stateAlias name id h)
  · intro id w h p hp
    rw [hwidget] at h
    rcases Option.or_eq_some_iff.1 h with hold | ⟨-, hnew⟩
    · obtain ⟨hne, hregistered⟩ := hg.parent id w hold p hp
      exact ⟨hne, hkept.widget_isSome hregistered⟩
    · obtain ⟨r, hr, rfl⟩ := Option.map_eq_some_iff.1 hnew
      have hid : identify r = id := by simpa using List.find?_some hr
      dsimp only [widgetOf] at hp
      obtain ⟨hmem, hne⟩ := hparent r p hp
      exact ⟨hid ▸ hne, hrow p hmem⟩

theorem StateAdded.closed (h : StateAdded g rows g' S) (hg : g.Closed) : g'.Closed :=
  Closed.of_rows rows (siblingsOf rows) hg h.canonical h.kept h.stateAliases h.widget?
    h.widgetAlias? fun _ _ hp => parentOf_siblingsOf hp

/-- A row without a file lies in no other widget. -/
theorem parentOf_nil (r : Record) : parentOf [] r = none := by
  unfold parentOf
  dsimp only
  split <;> rfl

theorem Closed.addRow (hg : g.Closed) (r : Record) : (addRow g [] r).1.Closed := by
  obtain ⟨-, haliases, -⟩ := addRows_frame g [] [r]
  refine Closed.of_rows [r] [] hg (Canonical.addRows [] hg.toCanonical [r]) (kept_addRows g [] [r])
    haliases (addRows_widget? g [] [r]) (addRows_widgetAlias? g [] [r]) ?_
  intro r' p hp
  rw [parentOf_nil] at hp
  cases hp

namespace Survey

/-- A survey in which nothing refers to what is not registered. -/
structure WellKept (s : Survey) : Prop where
  closed : s.graph.Closed
  known : ∀ name state, s.known.find? name = some state → s.graph.state? state.id = some state

theorem WellKept.sound {s : Survey} (hs : s.WellKept) : s.Sound :=
  ⟨hs.closed.toCanonical, hs.known⟩

theorem WellKept.grow {s : Survey} (hs : s.WellKept) (hg : g.Closed) (hkept : s.graph.KeptIn g) :
    WellKept { s with graph := g } :=
  ⟨hg, fun name state h => hkept.state _ _ (hs.known name state h)⟩

theorem ofGraph_wellKept (hg : g.Closed) : (ofGraph g).WellKept := by
  refine ⟨?_, (ofGraph_sound hg.toCanonical).known⟩
  rw [ofGraph, addState_empty hg.toSound]
  exact hg

theorem lookUp_closed {settings : Settings} {files : Tree} {name : String} (hg : g.Closed)
    (h : lookUp settings files g name = .ok (g', S)) : g'.Closed := by
  rcases lookUp_cases hg.toCanonical h with ⟨rfl, -⟩ | ⟨rows, g₁, -, -, hadded, hg'⟩
  · exact hg
  · have hclosed := hadded.closed hg
    rcases hg' with rfl | rfl
    · exact hclosed
    · refine hclosed.aliasState name ?_
      rw [hadded.registered]
      rfl

theorem resolve_wellKept (settings : Settings) (files : Tree) {s : Survey} (raw : String)
    (hs : s.WellKept) : (s.resolve settings files raw).1.WellKept := by
  refine ⟨?_, (resolve_sound settings files raw hs.sound).1.known⟩
  cases hr : (s.resolve settings files raw).2 with
  | error e =>
    rw [resolve_error hr]
    exact hs.closed
  | ok state =>
    have hpair : s.resolve settings files raw = ((s.resolve settings files raw).1, .ok state) :=
      Prod.ext rfl hr
    rcases resolve_cases hpair with ⟨hsame, -⟩ | ⟨g', -, hlook, hsame⟩
    · rw [hsame]
      exact hs.closed
    · rw [hsame]
      exact lookUp_closed hs.closed hlook

/-! ## Histories -/

/-- What may be asked of a survey. The files may have changed since, and so may the settings. -/
inductive Operation where
  | resolve (settings : Settings) (files : Tree) (raw : String)
  | settled (raw : String)
  /-- Registers the widgets and the state of some rows. -/
  | addStateRows (rows : List Record)
  | clear
  /-- Registers the widget of a row that stands alone. -/
  | addRow (r : Record)
  | widgetNamed (raw : String)
  | action (index : Nat) (r : Record) (result : State)

inductive Answer where
  | done
  | state (state : Except LoadError State)
  | found (state : Option State)
  | widget (w : Widget)
  | target (id : Option WidgetId)
  | action (resolution : Except LoadError Resolution)
deriving DecidableEq

def step (s : Survey) : Operation → Survey × Answer
  | .resolve settings files raw =>
    let resolved := s.resolve settings files raw
    (resolved.1, .state resolved.2)
  | .settled raw => (s, .found (s.settled? raw))
  | .addStateRows rows =>
    let added := Load.addStateRows s.graph rows
    ({ s with graph := added.1 }, .state (.ok added.2))
  | .clear => (s.clear, .done)
  | .addRow r =>
    let added := Load.addRow s.graph [] r
    ({ s with graph := added.1 }, .widget added.2)
  | .widgetNamed raw => (s, .target (s.graph.widgetNamed? raw))
  | .action index r result => (s, .action (Load.resolve s index r result))

def run (s : Survey) (ops : List Operation) : Survey :=
  ops.foldl (fun s op => (s.step op).1) s

theorem step_wellKept {s : Survey} (op : Operation) (hs : s.WellKept) :
    (s.step op).1.WellKept := by
  cases op with
  | resolve settings files raw => exact resolve_wellKept settings files raw hs
  | settled raw => exact hs
  | addStateRows rows =>
    have hadded := addStateRows_spec hs.closed.toCanonical rows
    exact hs.grow (hadded.closed hs.closed) hadded.kept
  | clear => exact ofGraph_wellKept hs.closed
  | addRow r => exact hs.grow (Closed.addRow hs.closed r) (kept_addRow _ _ r)
  | widgetNamed raw => exact hs
  | action index r result => exact hs

theorem run_wellKept {s : Survey} (ops : List Operation) (hs : s.WellKept) :
    (s.run ops).WellKept := by
  induction ops generalizing s with
  | nil => exact hs
  | cons op ops ih => exact ih (step_wellKept op hs)

/-- Whatever a survey goes through, widgets and states are registered under their structural
identities, states show each widget once and as it is registered, and neither an alias nor a parent
leads to what is not registered. -/
theorem run_canonical (ops : List Operation) :
    let g := ((ofGraph Graph.initial).run ops).graph
    (∀ id w, g.widget? id = some w → w.id = id ∧ w.computedId = id ∧
      ∀ p, w.parent = some p → p ≠ id ∧ (g.widget? p).isSome = true) ∧
    (∀ id s, g.state? id = some s → s.id = id ∧ id = StateId.ofWidgets (s.widgets.map (·.id)) ∧
      (s.widgets.map (·.id)).Nodup ∧ (∀ w ∈ s.widgets, g.widget? w.id = some w) ∧
      (s.home = true ↔
        ∃ w ∈ s.widgets, "launcher".toList <:+: w.packageName.toList.map Char.toLower)) ∧
    (∀ name id, g.widgetAlias? name = some id → (g.widget? id).isSome = true) ∧
    ∀ name id, g.stateAliases.find? name = some id → (g.state? id).isSome = true := by
  intro g
  have hg : g.Closed := (run_wellKept ops (ofGraph_wellKept closed_initial)).closed
  refine ⟨?_, ?_, hg.widgetAlias, hg.stateAlias⟩
  · intro id w hw
    exact ⟨hg.widgetKey id w hw, hg.widgetIdentity id w hw, hg.parent id w hw⟩
  · intro id s hs
    have hid := hg.stateKey id s hs
    refine ⟨hid, hid ▸ hg.state_id hs, hg.nodup_state hs, hg.member id s hs, ?_⟩
    simp only [hg.home_eq hs, List.any_eq_true, holdsLauncher_iff]

end Survey
end Load
end ScreenGraph
