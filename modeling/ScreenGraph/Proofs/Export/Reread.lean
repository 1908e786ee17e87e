import ScreenGraph.Proofs.Export.Discovery
import ScreenGraph.Proofs.Export.Legible
import ScreenGraph.Proofs.Load.Runs

/-!
# ScreenGraph.Proofs.Export.Reread

Loading the directory that a graph was exported to.

The names of states are their ids there, so that no name is stale. Every result state of a written
action has its file, and a look-up adds what the graph has under that id, with flat texts. Nothing
else is ever looked up.

* `readAll_state`, `openFile_trace`: the files that were written.
* `resolve_written`: a look-up of a written state.
* `attemptAll_written`: the result states of a written trace.
* `runSources_written`: a run over written traces, and the states that it meets.
-/

namespace ScreenGraph

open Export Files Graph Identity Record Screen Text

namespace Screen

theorem State.contains_congr {s s' : State} (h : s.widgets.map (·.id) = s'.widgets.map (·.id))
    (id : WidgetId) : s.contains id = s'.contains id := by
  have hiff : s.contains id = true ↔ s'.contains id = true := by
    rw [State.contains_iff, State.contains_iff]
    have hmem : id ∈ s.widgets.map (·.id) ↔ id ∈ s'.widgets.map (·.id) := by rw [h]
    simpa only [List.mem_map] using hmem
  exact Bool.eq_iff_iff.2 hiff

end Screen

namespace Load

/-! ## Written files -/

/-- What has to hold of the settings, the graph and the files for the graph to be read back. -/
structure Written (settings : Settings) (files : Tree) (g : Graph) : Prop where
  separates : Separates settings.separator
  canonical : g.Canonical
  legible : g.Legible settings.separator
  exported : Exported settings g files

section

variable {settings : Settings} {files : Tree} {g : Graph} {S : State}

theorem isRow_widgetLayout {fields : List String} {sep : Char} (settings : Settings)
    (h : IsRow .widget sep fields) : IsRow settings.widgetLayout sep fields := by
  obtain ⟨front, last, hfields, hwritable⟩ := h
  refine ⟨front, last, hfields, ?_, hwritable.fits, hwritable.noLineFeed, hwritable.ending⟩
  rw [widgetLayout_fieldCount]
  exact hwritable.length

theorem proper_widgetLayout (settings : Settings) : settings.widgetLayout.Proper := by
  unfold Settings.widgetLayout
  split
  · exact Layout.proper_legacyWidget
  · exact Layout.proper_widget

theorem widgetLayout_header (settings : Settings) :
    Layout.widget.header = settings.widgetLayout.header := by
  unfold Settings.widgetLayout
  split <;> rfl

/-- The rows of a trace file that holds the actions. -/
def actionRows (sep : Char) (number : Nat) (as : List Action) : List Record :=
  numbered number (as.map (actionFields sep))

namespace Written

/-- The widgets of a registered state can be written, and are what their ids say. -/
theorem widgets (h : Written settings files g) (hS : g.state? S.id = some S) :
    ∀ w ∈ S.widgets, w.Legible settings.separator ∧ w.computedId = w.id := by
  intro w hw
  have hmember := h.canonical.member _ _ hS w hw
  exact ⟨h.legible.widget _ _ hmember, h.canonical.widgetIdentity _ _ hmember⟩

theorem readAll_state (h : Written settings files g) (hS : g.state? S.id = some S)
    (hne : S.isEmpty = false) :
    readAll files (settings.statePath S.id.text) settings.widgetLayout settings.separator =
      .ok (widgetRows settings.separator 2 S.widgets) := by
  refine readAll_fileText (h.exported.state _ _ hS hne) (widgetLayout_header settings)
    (proper_widgetLayout settings) ?_ h.separates.plain h.separates.lineFeed
  intro fields hfields
  obtain ⟨w, hw, rfl⟩ := List.mem_map.1 hfields
  exact isRow_widgetLayout settings (isRow_widgetFields h.separates (h.widgets hS w hw).1.key)

theorem openFile_trace (h : Written settings files g) {t : Trace} (ht : t ∈ g.traces) :
    openFile files (settings.tracePath t.id) .trace settings.separator =
      .ok ((actionRows settings.separator 2 t.actions).map .ok) := by
  refine openFile_fileText (h.exported.trace t ht) rfl Layout.proper_trace
    ?_ h.separates.plain h.separates.lineFeed
  intro fields hfields
  obtain ⟨a, ha, rfl⟩ := List.mem_map.1 hfields
  exact isRow_actionFields h.separates (h.legible.action t ht a ha)

end Written

theorem ofItems_ok (policy : MalformedPolicy) (rs : List Record) :
    Intake.ofItems policy (rs.map .ok) = ⟨rs, [], none⟩ := by
  induction rs with
  | nil => rfl
  | cons r rs ih => rw [List.map_cons, Intake.ofItems, ih]

/-! ## Surveys of written files -/

/-- A survey that has met states of `g` only, each under its id. -/
structure Survey.Rereads (g : Graph) (s : Survey) : Prop extends s.Sound where
  aliases : ∀ name, s.graph.stateAliases.find? name = none
  named : ∀ name state, s.known.find? name = some state → name = state.id.text
  shown : ∀ id state, s.graph.state? id = some state →
    ∃ S, g.state? id = some S ∧ state.widgets.map (·.id) = S.widgets.map (·.id)
  covered : ∀ id, (s.graph.widget? id).isSome = true →
    ∃ state, s.graph.state? state.id = some state ∧ state.contains id = true

/-- The graph `g₁` is `g₀` with what was read for `S` in it. -/
structure Reread (g₀ g₁ : Graph) (S state : State) : Prop where
  identity : state.id = S.id
  traces : g₁.traces = g₀.traces
  state? : ∀ id, g₁.state? id = if id = S.id then some state else g₀.state? id
  widget? : ∀ id, g₁.widget? id =
    (g₀.widget? id).or ((S.widget? id).map (restoredIn (S.widgets.map (·.id))))

namespace Survey.Rereads

variable {s : Survey} {state : State}

theorem stateNamed? (hs : s.Rereads g) (id : StateId) :
    s.graph.stateNamed? id.text = s.graph.state? id := by
  have hread : (Ident.read? id.text : Option StateId) = some id := id.read?_text
  unfold Graph.stateNamed?
  rw [hread, Option.bind_some, hs.aliases]
  cases s.graph.state? id <;> rfl

/-- A state that was met before adds nothing. -/
theorem reread_self (hs : s.Rereads g) (hS : g.state? S.id = some S)
    (hstate : s.graph.state? S.id = some state) : Reread s.graph s.graph S state := by
  refine ⟨hs.canonical.stateKey _ _ hstate, rfl, ?_, ?_⟩
  · intro id
    split
    · rename_i hid
      rw [hid, hstate]
    · rfl
  · intro id
    cases hw : S.widget? id with
    | none => simp
    | some w =>
      obtain ⟨S', hS', hids⟩ := hs.shown _ _ hstate
      have hsame : S' = S := Option.some.inj (hS'.symm.trans hS)
      subst hsame
      have hcontains : state.contains id = true := by
        rw [State.contains_congr hids, State.contains, hw]
        rfl
      obtain ⟨v, hv, rfl⟩ := State.contains_iff.1 hcontains
      rw [hs.canonical.member _ _ hstate v hv]
      rfl

/-- A name that becomes settled. -/
theorem register (hs : s.Rereads g) (hstate : s.graph.state? state.id = some state) :
    Rereads g ⟨s.graph, s.known.register state.id.text state⟩ where
  canonical := hs.canonical
  known name found hfound := by
    rcases Registry.find?_register_cases hfound with hold | ⟨-, rfl⟩
    · exact hs.known _ _ hold
    · exact hstate
  aliases := hs.aliases
  named name found hfound := by
    rcases Registry.find?_register_cases hfound with hold | ⟨hname, rfl⟩
    · exact hs.named _ _ hold
    · exact hname
  shown := hs.shown
  covered := hs.covered

end Survey.Rereads

/-- A survey to which a state of `g` was added, with the widgets that it has there. -/
theorem Reread.rereads {s : Survey} {g₁ : Graph} {rows : List Record} {state : State}
    (hreread : Reread s.graph g₁ S state) (hadded : StateAdded s.graph rows g₁ state)
    (hs : s.Rereads g) (hS : g.state? S.id = some S)
    (hshown : state.widgets.map (·.id) = S.widgets.map (·.id)) :
    Survey.Rereads g ⟨g₁, s.known⟩ where
  canonical := hadded.canonical
  known name found hfound := hadded.kept.state _ _ (hs.known _ _ hfound)
  aliases name := by
    rw [hadded.stateAliases]
    exact hs.aliases name
  named := hs.named
  shown id found hfound := by
    rw [hreread.state?] at hfound
    split at hfound
    · rename_i hid
      cases hfound
      exact ⟨S, hid ▸ hS, hshown⟩
    · exact hs.shown _ _ hfound
  covered id hw := by
    rw [hreread.widget?] at hw
    cases hold : s.graph.widget? id with
    | some w =>
      obtain ⟨found, hfound, hcontains⟩ := hs.covered id (by rw [hold]; rfl)
      exact ⟨found, hadded.kept.state _ _ hfound, hcontains⟩
    | none =>
      rw [hold, Option.none_or, Option.isSome_map] at hw
      refine ⟨state, by rw [hreread.state?, hreread.identity, if_pos rfl], ?_⟩
      rw [State.contains_congr hshown]
      exact hw

/-- What the rows of a written state add. -/
theorem addStateRows_written (h : Written settings files g) (hS : g.state? S.id = some S)
    {s : Survey} (hs : s.Rereads g) (hnew : s.graph.state? S.id = none) :
    let added := addStateRows s.graph (widgetRows settings.separator 2 S.widgets)
    Reread s.graph added.1 S added.2 ∧ Survey.Rereads g ⟨added.1, s.known⟩ := by
  intro added
  have hws := h.widgets hS
  have hids : (widgetRows settings.separator 2 S.widgets).map identify = S.widgets.map (·.id) :=
    widgetRows_identify 2 fun w hw => (hws w hw).2
  have hadded : StateAdded s.graph (widgetRows settings.separator 2 S.widgets) added.1 added.2 :=
    addStateRows_spec hs.canonical _
  have hid : added.2.id = S.id := by
    rw [hadded.identity, hids, h.canonical.state_id hS]
  have hreread : Reread s.graph added.1 S added.2 := by
    refine ⟨hid, hadded.traces, fun id => by rw [hadded.state?, hid], ?_⟩
    intro id
    rw [hadded.widget?, find?_widgetRows 2 hws
      (siblingsOf_widgetRows 2 fun w hw => (hws w hw).2) id]
    rfl
  have hshown : added.2.widgets.map (·.id) = S.widgets.map (·.id) := by
    have hsame : ((widgetRows settings.separator 2 S.widgets).map
        (widgetOf (siblingsOf (widgetRows settings.separator 2 S.widgets)))).map (·.id) =
          S.widgets.map (·.id) := by
      rw [List.map_map, ← hids]
      rfl
    rw [hadded.shown (by rw [hid]; exact hnew), firstSightings_ids_congr hsame,
      firstSightings_eq_self (h.canonical.nodup_state hS)]
  exact ⟨hreread, hreread.rereads hadded hs hS hshown⟩

/-- A look-up of a written state. -/
theorem resolve_written (h : Written settings files g) (hS : g.state? S.id = some S) {s : Survey}
    (hs : s.Rereads g) :
    ∃ s' state, s.resolve settings files S.id.text = (s', .ok state) ∧ s'.Rereads g ∧
      Reread s.graph s'.graph S state := by
  unfold Survey.resolve
  rw [S.id.trim_text]
  dsimp only
  cases hknown : s.known.find? S.id.text with
  | some state =>
    have hid : S.id = state.id := Ident.text_injective (hs.named _ _ hknown)
    have hstate : s.graph.state? S.id = some state := hid ▸ hs.known _ _ hknown
    exact ⟨s, state, rfl, hs, hs.reread_self hS hstate⟩
  | none =>
    unfold Survey.lookUp
    rw [hs.stateNamed?]
    dsimp only
    cases hstate : s.graph.state? S.id with
    | some state =>
      have hid : state.id = S.id := hs.canonical.stateKey _ _ hstate
      have hself : s.graph.state? state.id = some state := by rw [hid, hstate]
      have hregister := hs.register hself
      rw [hid] at hregister
      exact ⟨_, state, rfl, hregister, hs.reread_self hS hstate⟩
    | none =>
      have hne : S.isEmpty = false := by
        rw [State.isEmpty, decide_eq_false_iff_not]
        intro hempty
        rw [hempty, hs.canonical.empty] at hstate
        cases hstate
      have hexists : files.exists? (settings.statePath S.id.text) = true := by
        rw [Tree.exists?, h.exported.state _ _ hS hne]
        rfl
      obtain ⟨hreread, hrereads⟩ := addStateRows_written h hS hs hstate
      dsimp only
      rw [hexists, if_pos rfl, h.readAll_state hS hne]
      dsimp only
      generalize addStateRows s.graph (widgetRows settings.separator 2 S.widgets) = added at *
      have hself : added.1.state? added.2.id = some added.2 := by
        rw [hreread.state?, hreread.identity, if_pos rfl]
      have hregister := hrereads.register hself
      rw [hreread.identity] at hregister
      rw [hreread.identity, if_neg (by simp)]
      exact ⟨_, added.2, rfl, hregister, hreread⟩

/-! ## Written traces -/

/-- Only what is registered counts, and which names are settled. -/
theorem Survey.Rereads.of_eq {s s' : Survey} (hs : s.Rereads g) (hsound : s'.Sound)
    (hwidgets : s'.graph.widgets = s.graph.widgets) (hstates : s'.graph.states = s.graph.states)
    (haliases : s'.graph.stateAliases = s.graph.stateAliases) (hknown : s'.known = s.known) :
    s'.Rereads g where
  toSound := hsound
  aliases name := by
    rw [haliases]
    exact hs.aliases name
  named name state h := hs.named name state (by rwa [hknown] at h)
  shown id state h := hs.shown id state (by simpa only [Graph.state?, hstates] using h)
  covered id h := by
    simpa only [Graph.state?, hstates] using
      hs.covered id (by simpa only [Graph.widget?, hwidgets] using h)

/-- The result states of a written trace are all met. -/
theorem attemptAll_written (h : Written settings files g) (number : Nat) {as : List Action}
    {s : Survey} (hs : s.Rereads g) (has : ∀ a ∈ as, (g.state? a.result).isSome = true) :
    let r := attemptAll settings files s (actionRows settings.separator number as)
    r.1.Rereads g ∧
      (∀ id, (r.1.graph.state? id).isSome = true ↔
        (s.graph.state? id).isSome = true ∨ ∃ a ∈ as, a.result = id) ∧
      List.Forall₂ (fun attempt a => ∃ state, attempt.result = .ok state ∧ state.id = a.result)
        r.2 as := by
  induction as generalizing s number with
  | nil => exact ⟨hs, fun id => by simp [actionRows, numbered, attemptAll], .nil⟩
  | cons a as ih =>
    obtain ⟨S, hS⟩ := Option.isSome_iff_exists.1 (has a List.mem_cons_self)
    have hid : S.id = a.result := h.canonical.stateKey _ _ hS
    obtain ⟨s', state, hresolve, hs', hreread⟩ := resolve_written h (hid ▸ hS) hs
    have hfield : (actionRow settings.separator number a).field TraceColumn.result = S.id.text := by
      rw [hid]
      rfl
    obtain ⟨hrereads, hstates, hall⟩ := ih (number + 1) hs'
      fun b hb => has b (List.mem_cons_of_mem _ hb)
    have hcons : actionRows settings.separator number (a :: as) =
      actionRow settings.separator number a :: actionRows settings.separator (number + 1) as := rfl
    rw [hcons, attemptAll_cons, hfield, hresolve]
    refine ⟨hrereads, ?_, .cons ⟨state, rfl, hreread.identity.trans hid⟩ hall⟩
    intro id
    dsimp only
    rw [hstates, hreread.state?, hid]
    by_cases hfirst : id = a.result
    · simp [hfirst]
    · have hne : a.result ≠ id := by
        intro he
        exact hfirst he.symm
      simp [hfirst, hne]

theorem outcomesFrom_failure {s : Survey} {index : Nat} {attempts : List Attempt}
    {as : List Action} (h : List.Forall₂ (fun attempt a =>
      ∃ state, attempt.result = .ok state ∧ state.id = a.result) attempts as) :
    (outcomesFrom s index attempts).2 = none := by
  induction h generalizing index with
  | nil => rfl
  | @cons attempt a attempts as hfirst _ ih =>
    obtain ⟨r, result⟩ := attempt
    obtain ⟨state, hstate, -⟩ := hfirst
    cases hstate
    rw [outcomesFrom_ok]
    exact ih

/-- What becomes of a file that a trace was written to. -/
theorem processTrace_written (h : Written settings files g) {t : Trace} (ht : t ∈ g.traces)
    {s : Session} (hs : s.Quiet) (hnew : ∀ u ∈ s.model.graph.traces, u.id ≠ t.id) :
    let rows := actionRows settings.separator 2 t.actions
    let c := consider settings files (s.begin t.id).survey rows
    processTrace settings files s (sourceOf settings t) =
      ((s.begin t.id).commit ⟨s.model.graph.traces.length, t.id⟩ c,
        c.report (TraceReport.new (settings.tracePath t.id) t.id) ⟨rows, [], none⟩) := by
  have hno : ¬ s.model.graph.traces.any (·.id = (sourceOf settings t).trace) = true := by
    intro hany
    obtain ⟨u, hu, hid⟩ := List.any_eq_true.1 hany
    exact hnew u hu (of_decide_eq_true hid)
  have hopen : openFile files (sourceOf settings t).path .trace settings.separator =
      .ok ((actionRows settings.separator 2 t.actions).map .ok) := h.openFile_trace ht
  rw [processTrace_eq settings files _ hs]
  dsimp only
  rw [if_neg hno, hopen]
  dsimp only
  rw [ofItems_ok]
  rfl

theorem begun_rereads {s : Session} {id : TraceId} (hquiet : (s.begin id).Quiet)
    (hs : s.survey.Rereads g) : (s.begin id).survey.Rereads g :=
  hs.of_eq hquiet.sound rfl rfl rfl rfl

theorem committed_rereads {s : Session} {h : TraceHandle} {c : Considered}
    (hquiet : (s.commit h c).Quiet) (hc : c.survey.Rereads g) :
    (s.commit h c).survey.Rereads g :=
  hc.of_eq hquiet.sound rfl rfl rfl rfl

theorem new_rereads (hg : g.Sound) {watchers : List Watch.Watcher} :
    (Session.new watchers).survey.Rereads g := by
  have hgraph : (Session.new watchers).survey.graph = Graph.initial := addState_empty sound_initial
  refine ⟨Survey.ofGraph_sound canonical_initial, ?_, ?_, ?_, ?_⟩
  · intro name
    rw [hgraph]
    rfl
  · intro name state h
    rcases Registry.find?_register_cases h with hold | ⟨hname, rfl⟩
    · cases hold
    · have hempty : (Model.new watchers).graph.stateFor State.empty = State.empty :=
        stateFor_empty sound_initial
      rw [hempty]
      exact hname
  · intro id state h
    rw [hgraph, initial_state?] at h
    split at h
    · rename_i hid
      cases h
      exact ⟨State.empty, hid ▸ hg.empty, rfl⟩
    · cases h
  · intro id h
    rw [hgraph] at h
    cases h

/-- A written trace is begun, and its result states are registered. -/
theorem processTrace_registers (h : Written settings files g) {t : Trace} (ht : t ∈ g.traces)
    {s : Session} (hs : s.Quiet) (hrereads : s.survey.Rereads g)
    (hnew : ∀ u ∈ s.model.graph.traces, u.id ≠ t.id) :
    let r := processTrace settings files s (sourceOf settings t)
    r.1.Quiet ∧ r.1.survey.Rereads g ∧ r.2.isFatal = false ∧
      r.1.model.graph.traces.map (·.id) = s.model.graph.traces.map (·.id) ++ [t.id] ∧
      ∀ id, (r.1.model.graph.state? id).isSome = true ↔
        (s.model.graph.state? id).isSome = true ∨ ∃ a ∈ t.actions, a.result = id := by
  have hquiet : (s.begin t.id).Quiet := hs.begin hnew
  have htraces := begin_commit_traces settings files
    (actionRows settings.separator 2 t.actions) hquiet
  have hcommit := hquiet.commit settings files (actionRows settings.separator 2 t.actions)
    (begin_traceOf? s t.id)
  obtain ⟨hsurvey, hstates, hall⟩ := attemptAll_written h 2 (begun_rereads hquiet hrereads)
    fun a ha => by
      obtain ⟨-, result, -, hresult, -⟩ := h.canonical.committed t ht a ha
      rw [hresult]
      rfl
  rw [processTrace_written h ht hs hnew]
  refine ⟨hcommit, committed_rereads hcommit hsurvey, ?_, ?_, hstates⟩
  · rw [TraceReport.isFatal, Considered.report_error]
    dsimp only [consider]
    rw [outcomesFrom_failure hall]
    rfl
  · rw [htraces, List.map_append]
    rfl

/-- A run over written traces begins all of them, and registers their result states. -/
theorem runSources_written (h : Written settings files g) {ts : List Trace}
    (hts : ∀ t ∈ ts, t ∈ g.traces) {s : Session} (hs : s.Quiet) (hrereads : s.survey.Rereads g)
    (hnodup : (s.model.graph.traces.map (·.id) ++ ts.map (·.id)).Nodup) :
    let r := runSources settings files false s (ts.map (sourceOf settings))
    r.1.survey.Rereads g ∧ r.2.2 = [] ∧
      ∀ id, (r.1.model.graph.state? id).isSome = true ↔
        (s.model.graph.state? id).isSome = true ∨ ∃ t ∈ ts, ∃ a ∈ t.actions, a.result = id := by
  induction ts generalizing s with
  | nil => exact ⟨hrereads, rfl, fun id => by simp [runSources]⟩
  | cons t ts ih =>
    have hnew : ∀ u ∈ s.model.graph.traces, u.id ≠ t.id := by
      intro u hu he
      exact (List.nodup_append.1 hnodup).2.2 _ (List.mem_map_of_mem hu) t.id (by simp) he
    obtain ⟨hquiet, hsurvey, hfatal, htraces, hstates⟩ :=
      processTrace_registers h (hts t List.mem_cons_self) hs hrereads hnew
    rw [List.map_cons, runSources_cons]
    dsimp only
    generalize processTrace settings files s (sourceOf settings t) = first at *
    rw [hfatal]
    obtain ⟨hrest, hleft, hmet⟩ := ih (fun u hu => hts u (List.mem_cons_of_mem _ hu)) hquiet
      hsurvey (by
        rw [htraces, List.append_assoc]
        exact hnodup)
    refine ⟨hrest, hleft, ?_⟩
    intro id
    rw [hmet, hstates, or_assoc]
    simp only [List.mem_cons, exists_eq_or_imp]

end

end Load
end ScreenGraph
