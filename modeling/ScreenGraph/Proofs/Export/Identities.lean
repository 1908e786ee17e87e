import ScreenGraph.Proofs.Export.Reload

/-!
# ScreenGraph.Proofs.Export.Identities

Which identities an export and a load of it leave.

Every state that is not empty has its file, but a file is read only when an action leads to its
state. So the states that are left are the results of the committed actions, whatever else was
registered, and the widgets that are left are those of these states.

* `runSources_reached`: the states that a load of an export meets.
* `reload_identities`: the states and the widgets after an export and a load.
-/

namespace ScreenGraph

open Export Files Graph Identity Screen

namespace Graph

/-- A state to which an action leads, or from which every trace starts. -/
def Reached (g : Graph) (id : StateId) : Prop :=
  id = StateId.empty ∨ ∃ t ∈ g.traces, ∃ a ∈ t.actions, a.result = id

/-- A widget of a state that was reached. -/
def ReachedWidget (g : Graph) (w : WidgetId) : Prop :=
  ∃ s, g.state? s.id = some s ∧ g.Reached s.id ∧ s.contains w = true

/-- The same states and the same widgets, by their ids. -/
structure SameIds (g g' : Graph) : Prop where
  states : ∀ id, id ∈ g'.states.keys ↔ id ∈ g.states.keys
  widgets : ∀ w, w ∈ g'.widgets.keys ↔ w ∈ g.widgets.keys

/-- Nothing is reached that is not registered. -/
theorem Sound.state_of_reached {g : Graph} (hg : g.Sound) {id : StateId} (h : g.Reached id) :
    ∃ s, g.state? id = some s := by
  rcases h with rfl | ⟨t, ht, a, ha, rfl⟩
  · exact ⟨_, hg.empty⟩
  · obtain ⟨-, result, -, hresult, -⟩ := hg.committed t ht a ha
    exact ⟨result, hresult⟩

/-- A graph that has what was reached has the same ids exactly if everything was reached. -/
theorem Canonical.sameIds_iff {g g' : Graph} (hg : g.Canonical)
    (hstates : ∀ id, id ∈ g'.states.keys ↔ g.Reached id)
    (hwidgets : ∀ w, w ∈ g'.widgets.keys ↔ g.ReachedWidget w) :
    g.SameIds g' ↔
      (∀ id ∈ g.states.keys, g.Reached id) ∧ ∀ w ∈ g.widgets.keys, g.ReachedWidget w := by
  have hreached : ∀ id, g.Reached id → id ∈ g.states.keys := by
    intro id hid
    obtain ⟨s, hs⟩ := hg.toSound.state_of_reached hid
    exact Registry.mem_keys_iff.2 (Option.isSome_iff_exists.2 ⟨s, hs⟩)
  have hcovered : ∀ w, g.ReachedWidget w → w ∈ g.widgets.keys := by
    rintro w ⟨s, hs, -, hcontains⟩
    obtain ⟨v, hv, rfl⟩ := State.contains_iff.1 hcontains
    exact Registry.mem_keys_iff.2 (Option.isSome_iff_exists.2 ⟨v, hg.member _ _ hs v hv⟩)
  constructor
  · intro h
    exact ⟨fun id hid => (hstates id).1 ((h.states id).2 hid),
      fun w hw => (hwidgets w).1 ((h.widgets w).2 hw)⟩
  · rintro ⟨hall, hallWidgets⟩
    exact ⟨fun id => (hstates id).trans ⟨hreached id, hall id⟩,
      fun w => (hwidgets w).trans ⟨hcovered w, hallWidgets w⟩⟩

end Graph

namespace Load

variable {settings : Settings} {files : Tree}

/-- The states that are left after a load of an exported graph are those that were reached. -/
theorem runSources_reached {g : Graph} {ts : List Trace} (h : Written settings files g)
    (hts : ts.Perm g.traces) :
    let r := runSources settings files false (Session.new []) (ts.map (sourceOf settings))
    r.1.survey.Rereads g ∧
      ∀ id, (r.1.model.graph.state? id).isSome = true ↔ g.Reached id := by
  have hgraph : (Session.new []).model.graph = Graph.initial := addState_empty sound_initial
  have hnodup : ((Session.new []).model.graph.traces.map (·.id) ++ ts.map (·.id)).Nodup := by
    rw [hgraph]
    exact ((hts.map (·.id)).nodup_iff).2 h.canonical.traceIds
  obtain ⟨hrereads, -, hstates⟩ := runSources_written h (fun t ht => hts.mem_iff.1 ht)
    (.new fun w hw => by cases hw) (new_rereads h.canonical.toSound) hnodup
  refine ⟨hrereads, ?_⟩
  intro id
  have hinitial : ((Session.new []).model.graph.state? id).isSome = true ↔
      id = StateId.empty := by
    rw [hgraph, initial_state?]
    split <;> simp_all
  rw [hstates, hinitial, Reached]
  simp only [hts.mem_iff]

/-- The widgets of a survey of written files are those of the states that it has met. -/
theorem Survey.Rereads.widget_isSome {g : Graph} {s : Survey} (hg : g.Sound) (hs : s.Rereads g)
    (w : WidgetId) : (s.graph.widget? w).isSome = true ↔ ∃ S, g.state? S.id = some S ∧
      (s.graph.state? S.id).isSome = true ∧ S.contains w = true := by
  constructor
  · intro hw
    obtain ⟨state, hstate, hcontains⟩ := hs.covered w hw
    obtain ⟨S, hS, hids⟩ := hs.shown _ _ hstate
    have hid : S.id = state.id := hg.stateKey _ _ hS
    refine ⟨S, hid ▸ hS, ?_, ?_⟩
    · rw [hid, hstate]
      rfl
    · rw [← State.contains_congr hids]
      exact hcontains
  · rintro ⟨S, hS, hsome, hcontains⟩
    obtain ⟨state, hstate⟩ := Option.isSome_iff_exists.1 hsome
    obtain ⟨S', hS', hids⟩ := hs.shown _ _ hstate
    have hsame : S' = S := Option.some.inj (hS'.symm.trans hS)
    subst hsame
    rw [← State.contains_congr hids] at hcontains
    obtain ⟨v, hv, rfl⟩ := State.contains_iff.1 hcontains
    rw [hs.canonical.member _ _ hstate v hv]
    rfl

/-- After an export and a load of it, the states are those that were reached, and the widgets are
theirs. -/
theorem reload_reached {target : Tree} {out : Path} {pos : Position} {l : Loaded}
    (hload : load settings files [] false = .ok l) (hstandard : Standard settings)
    (hsep : Separates settings.separator) (hempty : target.EmptyAt out pos) :
    let g := l.model.graph
    (∃ l', reload settings files target out = .ok (l, l') ∧ g.Canonical ∧
      (∀ id, id ∈ l'.model.graph.states.keys ↔ g.Reached id) ∧
      ∀ w, w ∈ l'.model.graph.widgets.keys ↔ g.ReachedWidget w) ∨
      ∃ e, reload settings files target out = .error e ∧ TooDeep out e := by
  intro g
  let nameOf : Trace → String := fun t => traceName t.id
  let ts := sortBy (fun t u => nameLe (nameOf t) (nameOf u)) g.traces
  have hts : ts.Perm g.traces := sortBy_perm _ _
  have hsorted : (ts.map nameOf).Pairwise (nameLe · · = true) := by
    rw [List.pairwise_map]
    exact sortBy_pairwise (fun _ _ _ => lexLe_trans _ _ _) (fun _ _ => lexLe_total _ _) _
  rcases reload_eq hload hstandard hsep hempty hts hsorted with
    ⟨written, hwritten, hreload⟩ | htooDeep
  swap
  · exact .inr htooDeep
  obtain ⟨hrereads, hstates⟩ := runSources_reached hwritten hts
  dsimp only at hreload hrereads hstates
  generalize runSources _ written false (Session.new []) (ts.map (sourceOf _)) = run at *
  refine .inl ⟨_, hreload, hwritten.canonical, ?_, ?_⟩
  · intro id
    exact Registry.mem_keys_iff.trans (hstates id)
  · intro w
    refine Registry.mem_keys_iff.trans
      ((hrereads.widget_isSome hwritten.canonical.toSound w).trans ?_)
    simp only [Session.survey, hstates]
    exact Iff.rfl

/-- After an export and a load of it, the ids are the same exactly if all states were reached and
all widgets belong to reached states. Only a directory that lies too deep cannot be exported
to. -/
theorem reload_identities {target : Tree} {out : Path} {pos : Position} {l : Loaded}
    (hload : load settings files [] false = .ok l) (hstandard : Standard settings)
    (hsep : Separates settings.separator) (hempty : target.EmptyAt out pos) :
    let g := l.model.graph
    (∃ l', reload settings files target out = .ok (l, l') ∧
      (∀ id, id ∈ l'.model.graph.states.keys ↔ g.Reached id) ∧
      (∀ w, w ∈ l'.model.graph.widgets.keys ↔ g.ReachedWidget w) ∧
      (g.SameIds l'.model.graph ↔
        (∀ id ∈ g.states.keys, g.Reached id) ∧ ∀ w ∈ g.widgets.keys, g.ReachedWidget w)) ∨
      ∃ e, reload settings files target out = .error e ∧ TooDeep out e := by
  intro g
  rcases reload_reached hload hstandard hsep hempty with
    ⟨l', hreload, hcanonical, hstates, hwidgets⟩ | htooDeep
  · exact .inl ⟨l', hreload, hstates, hwidgets, hcanonical.sameIds_iff hstates hwidgets⟩
  · exact .inr htooDeep

/-! ## A state that is lost -/

def straySettings : Settings :=
  (Settings.ofBase ⟨"m"⟩).sequential

/-- The only record leads to the state `s1`, from a state that nobody knows. -/
def strayFiles : Tree where
  cwd := ["work"]
  nodes := [
    (["work"], .directory),
    (["work", "m"], .directory),
    (["work", "m", "states"], .directory),
    (["work", "m", "states", "s1.csv"],
      .file (Text.utf8 "a;Button;id;app;/b;OK;true;false;false;false;;0:0:1:1\n")),
    (["work", "m", "trace00000000-0000-0000-0000-000000000001.csv"],
      .file (Text.utf8 "Click;nowhere;s1;;\n")),
    (["work", "out"], .directory)]

theorem strayFiles_emptyAt : strayFiles.EmptyAt ⟨"out"⟩ ["work", "out"] := by
  refine ⟨by decide +kernel, by decide +kernel, ?_⟩
  intro name rest
  simp [strayFiles, Tree.node?, List.lookup_cons]

theorem separates_semicolon : Separates ';' :=
  ⟨by decide, by decide, by decide⟩

/-- The record is dropped, as its source state is unknown. Its result state stays. -/
theorem load_strayFiles : ∃ l, load straySettings strayFiles [] false = .ok l ∧
    (∀ t ∈ l.model.graph.traces, t.actions = []) ∧
      ∃ id ∈ l.model.graph.states.keys, id ≠ StateId.empty := by
  have hloaded : (load straySettings strayFiles [] false).toOption.any (fun l =>
      l.model.graph.traces.all (·.actions.isEmpty) &&
        l.model.graph.states.keys.any (· ≠ StateId.empty)) = true := by
    decide +kernel
  obtain ⟨l, hload, hfound⟩ := loads_of_any hloaded
  rw [Bool.and_eq_true, List.all_eq_true, List.any_eq_true] at hfound
  obtain ⟨hactions, id, hid, hne⟩ := hfound
  refine ⟨l, hload, ?_, id, hid, of_decide_eq_true hne⟩
  intro t ht
  exact List.isEmpty_iff.1 (hactions t ht)

theorem reload_identities_stray : ∃ l, load straySettings strayFiles [] false = .ok l ∧
    Standard straySettings ∧ Separates straySettings.separator ∧
    strayFiles.EmptyAt ⟨"out"⟩ ["work", "out"] ∧
    let g := l.model.graph
    ∃ l', reload straySettings strayFiles strayFiles ⟨"out"⟩ = .ok (l, l') ∧
      (∀ id, id ∈ l'.model.graph.states.keys ↔ g.Reached id) ∧
      (∀ w, w ∈ l'.model.graph.widgets.keys ↔ g.ReachedWidget w) ∧
      (g.SameIds l'.model.graph ↔
        (∀ id ∈ g.states.keys, g.Reached id) ∧ ∀ w ∈ g.widgets.keys, g.ReachedWidget w) := by
  obtain ⟨l, hload, -⟩ := load_strayFiles
  refine ⟨l, hload, ⟨rfl, rfl⟩, separates_semicolon, strayFiles_emptyAt, ?_⟩
  rcases reload_identities hload ⟨rfl, rfl⟩ separates_semicolon strayFiles_emptyAt with
    hreload | ⟨e, -, htooDeep⟩
  · exact hreload
  · exact absurd htooDeep (not_tooDeep (by decide +kernel))

/-- The file of `s1` is written, but nothing leads to it. -/
theorem reload_loses_identities : straySettings.isSequential = true ∧ Standard straySettings ∧
    straySettings.separator = ';' ∧ strayFiles.EmptyAt ⟨"out"⟩ ["work", "out"] ∧
    (∃ names, strayFiles.list straySettings.baseDir = .ok names ∧
      ∀ name ∈ names, straySettings.Spells name) ∧
    ∃ l l', reload straySettings strayFiles strayFiles ⟨"out"⟩ = .ok (l, l') ∧
      ¬ l.model.graph.SameIds l'.model.graph := by
  have hspells : ∀ name ∈ ["states", "trace00000000-0000-0000-0000-000000000001.csv"],
      straySettings.Spells name := by
    unfold Settings.Spells
    decide +kernel
  refine ⟨rfl, ⟨rfl, rfl⟩, rfl, strayFiles_emptyAt, ⟨_, by decide +kernel, hspells⟩, ?_⟩
  obtain ⟨l, hload, hactions, id, hid, hne⟩ := load_strayFiles
  rcases reload_reached hload ⟨rfl, rfl⟩ separates_semicolon strayFiles_emptyAt with
    ⟨l', hreload, -, hstates, -⟩ | ⟨e, -, htooDeep⟩
  · refine ⟨l, l', hreload, ?_⟩
    intro hsame
    rcases (hstates id).1 ((hsame.states id).2 hid) with hempty | ⟨t, ht, a, ha, -⟩
    · exact hne hempty
    · rw [hactions t ht] at ha
      cases ha
  · exact absurd htooDeep (not_tooDeep (by decide +kernel))

end Load
end ScreenGraph
