import ScreenGraph.Proofs.Load.Acceptance
import ScreenGraph.Proofs.Load.History
import ScreenGraph.Proofs.Load.Told

/-!
# ScreenGraph.Proofs.Load.Parents

Where the parent of a widget comes from.

A widget is registered once, as the rows of one state file have it, and shared by every state that
shows it. So its parent is shown by the file of its first sighting. A state from another file need
not show it, and `load_parent_astray` is a directory where one does not. It does if all recorded
files that show the widget show its parent too.

* `Survey.Seen`: every widget and every state of a survey goes back to a recorded file.
* `resolve_seen`, `processTrace_seen`, `runSources_seen`: what look-ups, trace files and runs keep.
* `load_parents`: parents after any load, also one that failed or that a watcher broke off.
-/

namespace ScreenGraph

open Files Graph Identity Record Screen Watch

namespace Load

/-! ## Commits touch traces only -/

theorem append_retraced {m : Model} {h : TraceHandle} {a : Action} {announced : Model.Announced}
    (known : Registry String State) (happend : m.append h a = .ok announced) :
    Survey.Retraced ⟨m.graph, known⟩ ⟨announced.model.graph, known⟩ := by
  obtain ⟨t, -, -, -, hg⟩ := append_ok_iff.1 (Model.append_graph happend)
  rw [hg]
  exact ⟨rfl, rfl, rfl, rfl, rfl⟩

theorem appendAll_retraced {m : Model} {h : TraceHandle} {as : List Action}
    {announced : Model.Announced} (known : Registry String State)
    (happend : m.appendAll h as = .ok announced) :
    Survey.Retraced ⟨m.graph, known⟩ ⟨announced.model.graph, known⟩ := by
  have hg := Model.appendAll_graph happend
  by_cases hne : as = []
  · subst hne
    cases happend
    exact .refl _
  · obtain ⟨t, -, -, -, hg⟩ := (appendAll_ok_iff hne).1 hg
    rw [hg]
    exact ⟨rfl, rfl, rfl, rfl, rfl⟩

theorem commitEach_retraced (known : Registry String State) {h : TraceHandle} {m : Model}
    {report : TraceReport} {outcomes : List Outcome} (hm : m.graph.Sound) :
    let m' := (commitEach h m report outcomes).model
    m'.graph.Sound ∧ Survey.Retraced ⟨m.graph, known⟩ ⟨m'.graph, known⟩ := by
  induction outcomes generalizing m report with
  | nil => exact ⟨hm, .refl _⟩
  | cons outcome outcomes ih =>
    simp only [commitEach]
    cases haction : outcome.action? with
    | none => exact ih hm
    | some a =>
      cases happend : m.append h a with
      | error e =>
        simp only [happend]
        exact ⟨hm, .refl _⟩
      | ok announced =>
        obtain ⟨m', count, broken⟩ := announced
        have hsound : m'.graph.Sound := hm.append (Model.append_graph happend)
        have hsame := append_retraced known happend
        simp only [happend]
        cases broken with
        | true => exact ⟨hsound, hsame⟩
        | false =>
          obtain ⟨hsound', hsame'⟩ := ih hsound
          exact ⟨hsound', hsame.trans hsame'⟩

theorem commitBatch_retraced (known : Registry String State) {h : TraceHandle} {m : Model}
    {report : TraceReport} {outcomes : List Outcome} (hm : m.graph.Sound) :
    let m' := (commitBatch h m report outcomes).model
    m'.graph.Sound ∧ Survey.Retraced ⟨m.graph, known⟩ ⟨m'.graph, known⟩ := by
  simp only [commitBatch]
  cases happend : m.appendAll h (outcomes.filterMap (·.action?)) with
  | error e => exact ⟨hm, .refl _⟩
  | ok announced =>
    exact ⟨hm.appendAll (Model.appendAll_graph happend), appendAll_retraced known happend⟩

section

variable {settings : Settings} {files : Tree} {R : List Record → Prop}

/-- What is read of a trace file reaches the registries by its look-ups only. -/
theorem settle_retraced {s : Session} (h : TraceHandle) (report : TraceReport) (intake : Intake)
    (hs : s.survey.Sound) :
    let s' := (settle settings files s h report intake).1.survey
    s'.graph.Sound ∧ (attemptAll settings files s.survey intake.records).1.Retraced s' := by
  have hsound : (attemptAll settings files s.survey intake.records).1.graph.Sound :=
    (attemptAll_spec settings files intake.records hs).1.canonical.toSound
  simp only [settle]
  generalize attemptAll settings files s.survey intake.records = attempted at *
  obtain ⟨survey, attempts⟩ := attempted
  split
  · exact commitEach_retraced survey.known hsound
  · exact commitBatch_retraced survey.known hsound

/-! ## First sightings -/

/-- Every state of a survey is empty or shows what one recorded file shows, and every widget is as
one recorded file has it. -/
structure Survey.Seen (R : List Record → Prop) (s : Survey) : Prop extends s.WellKept where
  state : ∀ id S, s.graph.state? id = some S →
    ∃ own, (own = [] ∨ R own) ∧ ∀ w, w ∈ own.map identify ↔ S.contains w = true
  widget : ∀ id w, s.graph.widget? id = some w →
    ∃ first, R first ∧ ∃ r ∈ first, w = widgetOf (siblingsOf first) r

namespace Survey

theorem Sound.retraced {s s' : Survey} (hs : s.Sound) (hsame : s.Retraced s')
    (hsound : s'.graph.Sound) : s'.Sound where
  canonical := hs.canonical.of_eq hsound hsame.widgets hsame.states
  known name state hknown := by
    rw [hsame.known] at hknown
    rw [hsame.state?]
    exact hs.known name state hknown

theorem WellKept.retraced {s s' : Survey} (hs : s.WellKept) (hsame : s.Retraced s')
    (hsound : s'.graph.Sound) : s'.WellKept where
  closed := {
    toCanonical := (hs.sound.retraced hsame hsound).canonical
    widgetAlias := fun name id hid => by
      rw [hsame.widgetAlias?] at hid
      rw [hsame.widget?]
      exact hs.closed.widgetAlias name id hid
    stateAlias := fun name id hid => by
      rw [hsame.stateAliases] at hid
      rw [hsame.state?]
      exact hs.closed.stateAlias name id hid
    parent := fun id w hw p hp => by
      rw [hsame.widget?] at hw ⊢
      exact hs.closed.parent id w hw p hp }
  known := (hs.sound.retraced hsame hsound).known

theorem started_graph (watchers : List Watcher) :
    (Session.new watchers).survey.graph = Graph.initial :=
  addState_empty sound_initial

namespace Seen

variable {s s' : Survey}

theorem retraced (hs : s.Seen R) (hsame : s.Retraced s') (hsound : s'.graph.Sound) :
    s'.Seen R where
  toWellKept := hs.toWellKept.retraced hsame hsound
  state id S hS := hs.state id S (hsame.state? id ▸ hS)
  widget id w hw := hs.widget id w (hsame.widget? id ▸ hw)

theorem new (watchers : List Watcher) : (Session.new watchers).survey.Seen R where
  toWellKept := ofGraph_wellKept closed_initial
  state id S hS := by
    rw [started_graph, initial_state?] at hS
    split at hS
    · cases hS
      exact ⟨[], .inl rfl, by simp [State.contains_iff, State.empty]⟩
    · cases hS
  widget id w hw := by
    rw [started_graph] at hw
    cases hw

end Seen

/-- The survey when the rows of a file have been registered under a name. -/
def readIn (s : Survey) (name : String) (rows : List Record) : Survey :=
  let added := addStateRows s.graph rows
  ⟨if added.2.id.text ≠ name then added.1.aliasState name added.2.id else added.1,
    s.known.register name added.2⟩

theorem resolve_readIn {s : Survey} {raw : String} {rows : List Record}
    (hnew : s.settled? raw = none)
    (hread : readAll files (settings.statePath (Text.trim raw)) settings.widgetLayout
      settings.separator = .ok rows) :
    s.resolve settings files raw =
      (s.readIn (Text.trim raw) rows, .ok (addStateRows s.graph rows).2) := by
  unfold settled? at hnew
  dsimp only at hnew
  split at hnew
  · cases hnew
  · rename_i hknown
    simp only [resolve, hknown, lookUp, hnew, hread, exists_of_readAll hread, if_true]
    rfl

/-- A look-up that reads a file registers what that file shows. -/
theorem lookUp_seen {g g' : Graph} {known : Registry String State} {name : String} {S : State}
    (hs : Seen R ⟨g, known⟩)
    (hread : ∀ rows, readAll files (settings.statePath name) settings.widgetLayout
      settings.separator = .ok rows → R rows)
    (hlook : lookUp settings files g name = .ok (g', S)) :
    (∀ id S', g'.state? id = some S' →
      ∃ own, (own = [] ∨ R own) ∧ ∀ w, w ∈ own.map identify ↔ S'.contains w = true) ∧
    ∀ id w, g'.widget? id = some w →
      ∃ first, R first ∧ ∃ r ∈ first, w = widgetOf (siblingsOf first) r := by
  rcases lookUp_cases hs.closed.toCanonical hlook with ⟨rfl, -⟩ | ⟨rows, g₁, -, hrows, hadded, hg'⟩
  · exact ⟨hs.state, hs.widget⟩
  · have hR := hread rows hrows
    have hstate : ∀ id, g'.state? id = if id = S.id then some S else g.state? id := by
      rcases hg' with rfl | rfl <;> exact hadded.state?
    have hwidget : ∀ id, g'.widget? id = (g.widget? id).or
        ((rows.find? (identify · = id)).map (widgetOf (siblingsOf rows))) := by
      rcases hg' with rfl | rfl <;> exact hadded.widget?
    refine ⟨fun id S' hS' => ?_, fun id w hw => ?_⟩
    · rw [hstate] at hS'
      split at hS'
      · cases hS'
        cases hold : g.state? S.id with
        | none => exact ⟨rows, .inr hR, hadded.contains_iff hold⟩
        | some S₀ =>
          -- a state with this fingerprint is there already, and keeps what it shows
          have hsame : S₀ = S :=
            Option.some.inj ((hadded.kept.state _ _ hold).symm.trans hadded.registered)
          exact hsame ▸ hs.state _ _ hold
      · exact hs.state id S' hS'
    · rw [hwidget] at hw
      rcases Option.or_eq_some_iff.1 hw with hold | ⟨-, hnew⟩
      · exact hs.widget id w hold
      · obtain ⟨r, hr, rfl⟩ := Option.map_eq_some_iff.1 hnew
        exact ⟨rows, hR, r, List.mem_of_find?_eq_some hr, rfl⟩

theorem resolve_seen {s : Survey} {raw : String} (hs : s.Seen R)
    (hread : ∀ rows, readAll files (settings.statePath (Text.trim raw)) settings.widgetLayout
      settings.separator = .ok rows → R rows) : (s.resolve settings files raw).1.Seen R := by
  have hkept := resolve_wellKept settings files raw hs.toWellKept
  cases hr : (s.resolve settings files raw).2 with
  | error e =>
    rw [resolve_error hr]
    exact hs
  | ok state =>
    have hpair : s.resolve settings files raw = ((s.resolve settings files raw).1, .ok state) :=
      Prod.ext rfl hr
    rcases resolve_cases hpair with ⟨hsame, -⟩ | ⟨g', -, hlook, hsame⟩
    · rw [hsame]
      exact hs
    · obtain ⟨hstate, hwidget⟩ := lookUp_seen hs hread hlook
      rw [hsame] at hkept ⊢
      exact ⟨hkept, hstate, hwidget⟩

end Survey

/-- The survey after some records is a matter of the names of their result states. -/
theorem attemptAll_survey {s : Survey} (records : List Record) :
    (attemptAll settings files s records).1 =
      (records.map (·.field TraceColumn.result)).foldl
        (fun s raw => (s.resolve settings files raw).1) s := by
  induction records generalizing s with
  | nil => rfl
  | cons r records ih =>
    rw [attemptAll_cons, List.map_cons, List.foldl_cons]
    exact ih

theorem attemptAll_seen {s : Survey} (records : List Record) (hs : s.Seen R)
    (hread : ∀ r ∈ records, ∀ rows,
      readAll files (settings.statePath (Text.trim (r.field TraceColumn.result)))
        settings.widgetLayout settings.separator = .ok rows → R rows) :
    (attemptAll settings files s records).1.Seen R := by
  induction records generalizing s with
  | nil => exact hs
  | cons r records ih =>
    rw [attemptAll_cons]
    exact ih (Survey.resolve_seen hs (hread r List.mem_cons_self))
      fun r' hr' => hread r' (List.mem_cons_of_mem _ hr')

/-! ## Runs -/

theorem begun_sound {s : Session} {id : TraceId} (hs : s.survey.graph.Sound)
    (hnew : ∀ t ∈ s.model.graph.traces, t.id ≠ id) : (s.begin id).survey.graph.Sound :=
  hs.beginTrace (Model.beginTrace_graph (beginTrace_new hnew))

/-- A trace file whose trace is new. -/
theorem processTrace_retraced {s : Session} {source : Source} {items : List Item}
    (hs : s.survey.WellKept) (hnew : ∀ t ∈ s.model.graph.traces, t.id ≠ source.trace)
    (hopen : openFile files source.path .trace settings.separator = .ok items) :
    let s' := (processTrace settings files s source).1.survey
    s'.graph.Sound ∧ (attemptAll settings files (s.begin source.trace).survey
      (Intake.ofItems settings.malformed items).records).1.Retraced s' := by
  have hbegun := hs.retraced (begin_retraced s source.trace) (begun_sound hs.closed.toSound hnew)
  simp only [processTrace, beginTrace_new hnew, hopen]
  exact settle_retraced ⟨s.model.graph.traces.length, source.trace⟩ _ _ hbegun.sound

theorem processTrace_seen {s : Session} {source : Source} (hs : s.survey.Seen R)
    (hread : ∀ path ∈ stateFiles settings files source, ∀ rows,
      readAll files path settings.widgetLayout settings.separator = .ok rows → R rows) :
    (processTrace settings files s source).1.survey.Seen R := by
  cases hbegin : s.model.beginTrace source.trace with
  | error e =>
    simp only [processTrace, hbegin]
    exact hs
  | ok begun =>
    obtain ⟨hnew, -, -⟩ := beginTrace_model hbegin
    have hbegun := hs.retraced (begin_retraced s source.trace) (begun_sound hs.closed.toSound hnew)
    cases hopen : openFile files source.path .trace settings.separator with
    | error e =>
      simp only [processTrace, beginTrace_new hnew, hopen]
      exact hbegun
    | ok items =>
      obtain ⟨hsound, hsame⟩ := processTrace_retraced hs.toWellKept hnew hopen
      have hrecords := attemptAll_seen (Intake.ofItems settings.malformed items).records hbegun
        fun r hr => hread _ (mem_stateFiles hopen hr)
      exact hrecords.retraced hsame hsound

theorem runSources_single (s : Session) (source : Source) :
    (runSources settings files false s [source]).1 = (processTrace settings files s source).1 := by
  rw [runSources_cons]
  dsimp only
  cases (processTrace settings files s source).2.isFatal <;> rfl

theorem runSources_seen {stopped : Bool} {s : Session} {sources : List Source}
    (hs : s.survey.Seen R)
    (hread : ∀ source ∈ sources, ∀ path ∈ stateFiles settings files source, ∀ rows,
      readAll files path settings.widgetLayout settings.separator = .ok rows → R rows) :
    (runSources settings files stopped s sources).1.survey.Seen R := by
  induction sources generalizing s stopped with
  | nil => cases stopped <;> exact hs
  | cons source sources ih =>
    cases stopped with
    | true => exact hs
    | false =>
      rw [runSources_cons]
      exact ih (processTrace_seen hs (hread source List.mem_cons_self))
        fun source' hsource' => hread source' (List.mem_cons_of_mem _ hsource')

/-! ## Loads -/

/-- Rows of a state file that a trace file of the directory names as a result. -/
def Recorded (settings : Settings) (files : Tree) (names : List String) (rows : List Record) :
    Prop :=
  ∃ source ∈ traceFiles settings names, ∃ path ∈ stateFiles settings files source,
    readAll files path settings.widgetLayout settings.separator = .ok rows

theorem load_graph {watchers : List Watcher} {names : List String} {cancelled : Bool} {l : Loaded}
    (hlist : files.list settings.baseDir = .ok names)
    (hload : load settings files watchers cancelled = .ok l) :
    l.model.graph = (runSources settings files cancelled (Session.new watchers)
      (traceFiles settings names)).1.survey.graph := by
  have hrun : (runSources settings files cancelled (Session.new watchers)
      (traceFiles settings names)).1.survey.Seen fun _ => True :=
    runSources_seen (.new watchers) fun _ _ _ _ _ _ => trivial
  simp only [load, hlist, discover_eq] at hload
  cases hload
  exact addState_empty hrun.closed.toSound

theorem load_seen {watchers : List Watcher} {names : List String} {cancelled : Bool} {l : Loaded}
    (hlist : files.list settings.baseDir = .ok names)
    (hload : load settings files watchers cancelled = .ok l) :
    ∃ known, Survey.Seen (Recorded settings files names) ⟨l.model.graph, known⟩ := by
  rw [load_graph hlist hload]
  exact ⟨_, runSources_seen (.new watchers)
    fun source hsource path hpath rows hrows => ⟨source, hsource, path, hpath, hrows⟩⟩

/-- What is known of the parent `p` of a widget `w` that the state `S` shows. -/
structure ParentSeen (settings : Settings) (files : Tree) (names : List String) (g : Graph)
    (S : State) (w : Widget) (p : WidgetId) : Prop where
  other : p ≠ w.id
  registered : (g.widget? p).isSome = true
  /-- The file that the widget was registered from shows both. -/
  first : ∃ rows, Recorded settings files names rows ∧
    (∃ r ∈ rows, w = widgetOf (siblingsOf rows) r) ∧ p ∈ rows.map identify
  inside : (∀ rows, Recorded settings files names rows → w.id ∈ rows.map identify →
    p ∈ rows.map identify) → S.contains p = true

/-- The parent of a widget is another registered widget, and one recorded file shows both, with the
widget just as it is registered. A state that shows the widget shows the parent exactly if its own
file does, which is so if every recorded file that shows the widget shows the parent. -/
theorem load_parents {watchers : List Watcher} {names : List String} {cancelled : Bool} {l : Loaded}
    (hlist : files.list settings.baseDir = .ok names)
    (hload : load settings files watchers cancelled = .ok l) :
    ∀ id S, l.model.graph.state? id = some S → ∃ own,
      (own = [] ∨ Recorded settings files names own) ∧
      (∀ w, S.contains w = true ↔ w ∈ own.map identify) ∧
      ∀ w ∈ S.widgets, ∀ p, w.parent = some p →
        ParentSeen settings files names l.model.graph S w p := by
  intro id S hS
  obtain ⟨known, hseen⟩ := load_seen hlist hload
  obtain ⟨own, hown, hshown⟩ := hseen.state id S hS
  refine ⟨own, hown, fun w => (hshown w).symm, fun w hw p hp => ?_⟩
  have hregistered : l.model.graph.widget? w.id = some w := hseen.closed.member id S hS w hw
  obtain ⟨hother, hparent⟩ := hseen.closed.parent w.id w hregistered p hp
  obtain ⟨first, hfirst, r, hr, hrow⟩ := hseen.widget w.id w hregistered
  refine ⟨hother, hparent, ⟨first, hfirst, ⟨r, hr, hrow⟩, ?_⟩, fun hall => ?_⟩
  · rw [hrow] at hp
    dsimp only [widgetOf] at hp
    exact (parentOf_siblingsOf hp).1
  · have hmem : w.id ∈ own.map identify := (hshown w.id).2 (State.contains_iff.2 ⟨w, hw, rfl⟩)
    rcases hown with rfl | hrecorded
    · cases hmem
    · exact (hshown p).1 (hall own hrecorded hmem)

end

/-! ## A parent that is not there -/

def astraySettings : Settings :=
  (Settings.ofBase ⟨"m"⟩).sequential

def astraySource : Source :=
  ⟨astraySettings.baseDir.join "trace00000000-0000-0000-0000-000000000001.csv",
    ⟨List.replicate 15 0 ++ [1], Uuid.length_bytes_one⟩⟩

/-- The list of `s1` has an item in it, and `s2` shows the item alone. -/
def astrayFiles : Tree where
  cwd := ["work"]
  nodes := [
    (["work"], .directory),
    (["work", "m"], .directory),
    (["work", "m", "states"], .directory),
    (["work", "m", "states", "s1.csv"], .file (Text.utf8 <|
      "l;List;list;app;/0;;true;;;;;0:0:9:9\n" ++
      "i;Item;item;app;/0/0;OK;true;;;;l;0:0:1:1\n")),
    (["work", "m", "states", "s2.csv"], .file (Text.utf8
      "i;Item;item;app;/0/0;OK;true;;;;;0:0:1:1\n")),
    (["work", "m", "trace00000000-0000-0000-0000-000000000001.csv"], .file (Text.utf8 <|
      "LaunchApp;da39a3ee-5e6b-4b0d-3255-bfef95601890;s1;;\n" ++
      "Click;s1;s2;;\n"))]

def astrayNames : List String :=
  ["states", "trace00000000-0000-0000-0000-000000000001.csv"]

def astrayRecords : List Record :=
  [⟨1, ["LaunchApp", "da39a3ee-5e6b-4b0d-3255-bfef95601890", "s1", "", ""]⟩,
    ⟨2, ["Click", "s1", "s2", "", ""]⟩]

def astrayList : Record :=
  ⟨1, ["l", "List", "list", "app", "/0", "", "true", "", "", "", "", "0:0:9:9"]⟩

def astrayItem (line : Nat) (parent : String) : Record :=
  ⟨line, ["i", "Item", "item", "app", "/0/0", "OK", "true", "", "", "", parent, "0:0:1:1"]⟩

theorem astray_list : astrayFiles.list astraySettings.baseDir = .ok astrayNames := by
  decide +kernel

theorem astray_sources : traceFiles astraySettings astrayNames = [astraySource] := by
  decide +kernel

theorem astray_records : openFile astrayFiles astraySource.path .trace astraySettings.separator =
    .ok (astrayRecords.map .ok) := by
  decide +kernel

theorem astray_first : readAll astrayFiles (astraySettings.statePath (Text.trim "s1"))
    astraySettings.widgetLayout astraySettings.separator =
      .ok [astrayList, astrayItem 2 "l"] := by
  decide +kernel

theorem astray_second : readAll astrayFiles (astraySettings.statePath (Text.trim "s2"))
    astraySettings.widgetLayout astraySettings.separator = .ok [astrayItem 1 ""] := by
  decide +kernel

def astrayStart : Survey :=
  ((Session.new []).begin astraySource.trace).survey

def astrayHalfway : Survey :=
  astrayStart.readIn "s1" [astrayList, astrayItem 2 "l"]

/-- Both files have been read. -/
def astraySurvey : Survey :=
  astrayHalfway.readIn "s2" [astrayItem 1 ""]

theorem astray_attempts :
    (attemptAll astraySettings astrayFiles astrayStart astrayRecords).1 = astraySurvey := by
  have hhalfway : (astrayStart.resolve astraySettings astrayFiles "s1").1 = astrayHalfway := by
    have htrim : Text.trim "s1" = "s1" := by decide +kernel
    rw [Survey.resolve_readIn (by decide +kernel) astray_first, htrim, astrayHalfway]
  have hdone : (astrayHalfway.resolve astraySettings astrayFiles "s2").1 = astraySurvey := by
    have htrim : Text.trim "s2" = "s2" := by decide +kernel
    rw [Survey.resolve_readIn (by decide +kernel) astray_second, htrim, astraySurvey]
  have hnames : astrayRecords.map (·.field TraceColumn.result) = ["s1", "s2"] := by decide
  rw [attemptAll_survey, hnames, List.foldl_cons, List.foldl_cons, List.foldl_nil, hhalfway, hdone]

theorem astray_shown : ∃ id S, astraySurvey.graph.state? id = some S ∧
    ∃ w ∈ S.widgets, ∃ p, w.parent = some p ∧ S.contains p = false := by
  have hshown : (astraySurvey.graph.states.keys.any fun id =>
      (astraySurvey.graph.state? id).any fun S =>
        S.widgets.any fun w => w.parent.any fun p => !S.contains p) = true := by
    decide +kernel
  obtain ⟨id, -, hid⟩ := List.any_eq_true.1 hshown
  obtain ⟨S, hS, hwidgets⟩ := (Option.any_eq_true _ _).1 hid
  obtain ⟨w, hw, hparent⟩ := List.any_eq_true.1 hwidgets
  obtain ⟨p, hp, hmissing⟩ := (Option.any_eq_true _ _).1 hparent
  rw [Bool.not_eq_true'] at hmissing
  exact ⟨id, S, hS, w, hw, p, hp, hmissing⟩

/-- The item of `s2` is the one of `s1`, and has kept the parent that it has there. -/
theorem load_astrayFiles : ∃ l, load astraySettings astrayFiles [] false = .ok l ∧
    ∃ id S, l.model.graph.state? id = some S ∧
      ∃ w ∈ S.widgets, ∃ p, w.parent = some p ∧ S.contains p = false := by
  obtain ⟨l, hload⟩ : ∃ l, load astraySettings astrayFiles [] false = .ok l :=
    ⟨_, load_eq false astray_list nofun⟩
  have hrecords : (Intake.ofItems astraySettings.malformed (astrayRecords.map .ok)).records =
      astrayRecords := rfl
  obtain ⟨-, hsame⟩ := processTrace_retraced (s := Session.new [])
    (Survey.ofGraph_wellKept closed_initial) nofun astray_records
  rw [hrecords, ← astrayStart, astray_attempts] at hsame
  have hgraph := load_graph astray_list hload
  rw [astray_sources, runSources_single] at hgraph
  obtain ⟨id, S, hS, hshown⟩ := astray_shown
  refine ⟨l, hload, id, S, ?_, hshown⟩
  rw [hgraph, hsame.state?]
  exact hS

theorem load_parents_item : ∃ l, astrayFiles.list astraySettings.baseDir = .ok astrayNames ∧
    load astraySettings astrayFiles [] false = .ok l ∧
      ∃ id S, l.model.graph.state? id = some S ∧ ∃ w ∈ S.widgets, ∃ p, w.parent = some p ∧
        ParentSeen astraySettings astrayFiles astrayNames l.model.graph S w p := by
  obtain ⟨l, hload, id, S, hS, w, hw, p, hp, -⟩ := load_astrayFiles
  obtain ⟨own, -, -, hparents⟩ := load_parents astray_list hload id S hS
  exact ⟨l, astray_list, hload, id, S, hS, w, hw, p, hp, hparents w hw p hp⟩

/-- A parent need not be in every state that shows the widget. -/
theorem load_parent_astray : astraySettings.isSequential = true ∧
    ∃ l, load astraySettings astrayFiles [] false = .ok l ∧
      ¬ ∀ id S, l.model.graph.state? id = some S → ∀ w ∈ S.widgets, ∀ p, w.parent = some p →
        S.contains p = true ∧ p ≠ w.id := by
  obtain ⟨l, hload, id, S, hS, w, hw, p, hp, hmissing⟩ := load_astrayFiles
  refine ⟨rfl, l, hload, fun hall => ?_⟩
  rw [(hall id S hS w hw p hp).1] at hmissing
  cases hmissing

end Load
end ScreenGraph
