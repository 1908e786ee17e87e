import ScreenGraph.Proofs.Export.Lockstep

/-!
# ScreenGraph.Proofs.Export.RoundTrip

What a load without failures gives is read back.

In a load that did not fail every record became an action, and every state that was registered is
the result of one. The second load meets the written traces in the order of the first, and so goes
in step with it: no state, no widget and no action is lost, and nothing has to be repaired.

* `commit_inStep`: the records of one trace.
* `processTrace_inStep`: one trace file.
* `runSources_inStep`: all of them.
* `reload_round_trip`: the whole load.
-/

namespace ScreenGraph

open Export Files Graph Identity Record Screen Text

namespace Load

variable {settings moved : Settings} {files written : Tree} {g : Graph}
  {sets : List (List WidgetId)}

/-- A load that does not fail and the load of the graph `g` that it ends with, at the same trace. -/
structure InStep (sets : List (List WidgetId)) (g : Graph) (s s' : Session) : Prop where
  quiet : s.Quiet
  recorded : s.survey.Recorded sets
  quiet' : s'.Quiet
  rereads : s'.survey.Rereads g
  flattened : Flattened s.model.graph s'.model.graph

namespace InStep

variable {s s' : Session}

theorem new_trace (h : InStep sets g s s') {id : TraceId}
    (hnew : ∀ t ∈ s.model.graph.traces, t.id ≠ id) : ∀ t ∈ s'.model.graph.traces, t.id ≠ id := by
  rw [h.flattened.traces]
  intro t ht
  obtain ⟨u, hu, rfl⟩ := List.mem_map.1 ht
  exact hnew u hu

theorem begin (h : InStep sets g s s') {id : TraceId}
    (hnew : ∀ t ∈ s.model.graph.traces, t.id ≠ id) : InStep sets g (s.begin id) (s'.begin id) where
  quiet := h.quiet.begin hnew
  recorded := ⟨(h.quiet.begin hnew).sound, h.recorded.recorded⟩
  quiet' := h.quiet'.begin (h.new_trace hnew)
  rereads := begun_rereads (h.quiet'.begin (h.new_trace hnew)) h.rereads
  flattened := by
    refine ⟨h.flattened.state?, h.flattened.widget?, ?_⟩
    show s'.model.graph.traces ++ [Trace.new id] =
      (s.model.graph.traces ++ [Trace.new id]).map Trace.flat
    rw [h.flattened.traces, List.map_append]
    rfl

end InStep

/-- The second load reads the records of a trace as the first one did. -/
theorem consider_written (h : Written moved written g) (hdistinct : Distinguished sets)
    {s s' : Survey} {rs : List Record} (hs : s.Recorded sets) (hs' : s'.Rereads g)
    (hflat : Flattened s.graph s'.graph)
    (hsets : ∀ r ∈ rs, ∀ rows, readAll files
      (settings.statePath (trim (r.field TraceColumn.result))) settings.widgetLayout
        settings.separator = .ok rows → rows.map identify ∈ sets)
    (hclean : (consider settings files s rs).Clean)
    (hkept : (consider settings files s rs).survey.graph.KeptIn g)
    (hlegible : ∀ a ∈ (consider settings files s rs).actions, a.Legible moved.separator) :
    let c := consider settings files s rs
    let c' := consider moved written s' (actionRows moved.separator 2 c.actions)
    c.survey.Recorded sets ∧ c'.survey.Rereads g ∧ Flattened c.survey.graph c'.survey.graph ∧
      c'.failure = none ∧ c'.actions = c.actions.map Action.flat ∧
      ∀ o ∈ c'.outcomes, ∃ line resolution, o = .resolved line resolution ∧
        resolution.notes = [] := by
  intro c c'
  obtain ⟨-, -, -, hadmits, -⟩ := consider_spec settings files rs hs.toSound
  obtain ⟨hindices, hresults⟩ := outcomesFrom_clean 0 hclean.failure hclean.resolved
  obtain ⟨hrecorded, hflattened⟩ :=
    attemptAll_flattened h hdistinct 2 hs hs' hflat hsets hresults hkept
  have hregistered : ∀ a ∈ c.actions, (g.state? a.result).isSome = true := by
    intro a ha
    obtain ⟨-, result, -, hresult, -⟩ := (hadmits a ha).mono hkept
    rw [hresult]
    rfl
  obtain ⟨hrereads, -, hresults'⟩ := attemptAll_written h 2 hs' hregistered
  obtain ⟨hfailure, hactions, hsilent⟩ := outcomesFrom_written 0 2 hrereads hindices
    (fun a ha => ⟨hlegible a ha, hflattened.admits (hadmits a ha)⟩)
    (attemptAll_records moved written s' (actionRows moved.separator 2 c.actions)) hresults'
  exact ⟨hrecorded, hrereads, hflattened, hfailure, hactions, hsilent⟩

/-- Both loads stay in step over the records of a trace and their commit. -/
theorem commit_inStep (h : Written moved written g) (hdistinct : Distinguished sets)
    {s s' : Session} {id : TraceId} {rs : List Record} (hstep : InStep sets g s s')
    (hnew : ∀ t ∈ s.model.graph.traces, t.id ≠ id)
    (hsets : ∀ r ∈ rs, ∀ rows, readAll files
      (settings.statePath (trim (r.field TraceColumn.result))) settings.widgetLayout
        settings.separator = .ok rows → rows.map identify ∈ sets)
    (hclean : (consider settings files (s.begin id).survey rs).Clean)
    (hkept : (consider settings files (s.begin id).survey rs).survey.graph.KeptIn g)
    (ht : ⟨id, (consider settings files (s.begin id).survey rs).actions⟩ ∈ g.traces) :
    let c := consider settings files (s.begin id).survey rs
    let c' := consider moved written (s'.begin id).survey (actionRows moved.separator 2 c.actions)
    InStep sets g ((s.begin id).commit ⟨s.model.graph.traces.length, id⟩ c)
        ((s'.begin id).commit ⟨s'.model.graph.traces.length, id⟩ c') ∧
      c'.failure = none ∧ ∀ o ∈ c'.outcomes, ∃ line resolution, o = .resolved line resolution ∧
        resolution.notes = [] := by
  have hbegun := hstep.begin hnew
  obtain ⟨hrecorded, hrereads, hflattened, hfailure, hactions, hsilent⟩ :=
    consider_written h hdistinct hbegun.recorded hbegun.rereads hbegun.flattened hsets hclean
      hkept fun a ha => h.legible.action _ ht a ha
  have htraces := begin_commit_traces settings files rs hbegun.quiet
  have hquiet := hbegun.quiet.commit settings files rs (begin_traceOf? s id)
  generalize consider settings files (s.begin id).survey rs = c at *
  dsimp only at htraces hrecorded hrereads hflattened hfailure hactions hsilent ⊢
  have htraces' := begin_commit_traces moved written (actionRows moved.separator 2 c.actions)
    hbegun.quiet'
  have hquiet' := hbegun.quiet'.commit moved written (actionRows moved.separator 2 c.actions)
    (begin_traceOf? s' id)
  generalize consider moved written (s'.begin id).survey
    (actionRows moved.separator 2 c.actions) = c' at *
  refine ⟨⟨hquiet, ⟨hquiet.sound, hrecorded.recorded⟩, hquiet',
    committed_rereads hquiet' hrereads, ⟨hflattened.state?, hflattened.widget?, ?_⟩⟩,
    hfailure, hsilent⟩
  rw [htraces, htraces', hstep.flattened.traces, List.map_append, hactions]
  rfl

/-- Both loads stay in step over a trace file, and the second one has nothing to report. -/
theorem processTrace_inStep (h : Written moved written g) (hdistinct : Distinguished sets)
    {s s' : Session} {source : Source} (hstep : InStep sets g s s')
    (hsets : ∀ path ∈ stateFiles settings files source, ∀ rows,
      readAll files path settings.widgetLayout settings.separator = .ok rows →
        rows.map identify ∈ sets)
    (hok : (processTrace settings files s source).2.failsRun = false)
    (hkept : (processTrace settings files s source).1.model.graph.KeptIn g)
    (hbegins : (processTrace settings files s source).1.model.graph.traces <+: g.traces) :
    let second := processTrace moved written s' ⟨moved.tracePath source.trace, source.trace⟩
    InStep sets g (processTrace settings files s source).1 second.1 ∧
      second.2.error = none ∧ second.2.issues = [] := by
  obtain ⟨hnew, items, hopen, hclean, hfirst⟩ := processTrace_clean hstep.quiet hok
  have htraces := begin_commit_traces settings files
    (Intake.ofItems settings.malformed items).records (hstep.begin hnew).quiet
  rw [hfirst] at hkept hbegins ⊢
  rw [htraces] at hbegins
  have ht := hbegins.subset (List.mem_append_right _ List.mem_cons_self)
  obtain ⟨hcommitted, hfailure, hsilent⟩ := commit_inStep h hdistinct hstep hnew
    (fun r hr => hsets _ (mem_stateFiles hopen hr)) hclean ((kept_extendTrace _ _ _).trans hkept) ht
  have hsecond := processTrace_written h ht hstep.quiet' (hstep.new_trace hnew)
  dsimp only [sourceOf] at hsecond ⊢
  rw [hsecond]
  refine ⟨hcommitted, ?_, ?_⟩
  · rw [Considered.report_error, hfailure]
    rfl
  · exact Considered.report_issues _ rfl hsilent

/-- Both loads stay in step over all trace files. -/
theorem runSources_inStep (h : Written moved written g) (hdistinct : Distinguished sets)
    {sources : List Source} {s s' : Session} (hstep : InStep sets g s s')
    (hsets : ∀ source ∈ sources, ∀ path ∈ stateFiles settings files source, ∀ rows,
      readAll files path settings.widgetLayout settings.separator = .ok rows →
        rows.map identify ∈ sets)
    (hok : ∀ r ∈ (runSources settings files false s sources).2.1, r.failsRun = false)
    (hend : (runSources settings files false s sources).1.model.graph = g) :
    let second := runSources moved written false s'
      (sources.map fun source => ⟨moved.tracePath source.trace, source.trace⟩)
    Flattened g second.1.model.graph ∧ second.2.2 = [] ∧
      ∀ r ∈ second.2.1, r.error = none ∧ r.issues = [] := by
  induction sources generalizing s s' with
  | nil => exact ⟨hend ▸ hstep.flattened, rfl, fun r hr => by cases hr⟩
  | cons source sources ih =>
    rw [runSources_cons] at hok hend
    have hfirst := hok _ List.mem_cons_self
    have hfatal := not_fatal (error_of_not_failed hfirst)
    have hquiet := hstep.quiet.processTrace settings files source
    dsimp only at hok hend
    rw [hfatal] at hok hend
    have hkept : (processTrace settings files s source).1.model.graph.KeptIn g :=
      hend ▸ runSources_kept settings files sources hquiet
    have hbegins : (processTrace settings files s source).1.model.graph.traces <+: g.traces :=
      hend ▸ runSources_traces settings files sources hquiet
    obtain ⟨hnext, herror, hissues⟩ := processTrace_inStep h hdistinct hstep
      (hsets source List.mem_cons_self) hfirst hkept hbegins
    obtain ⟨hflattened, hleft, hreports⟩ := ih hnext
      (fun source' hmem => hsets source' (List.mem_cons_of_mem _ hmem))
      (fun r hr => hok r (List.mem_cons_of_mem _ hr)) hend
    rw [List.map_cons, runSources_cons]
    dsimp only
    rw [not_fatal herror]
    refine ⟨hflattened, hleft, ?_⟩
    intro r hr
    rcases List.mem_cons.1 hr with rfl | hr
    · exact ⟨herror, hissues⟩
    · exact hreports r hr

theorem new_inStep (hg : g.Sound) (hempty : [] ∈ sets) :
    InStep sets g (Session.new []) (Session.new []) := by
  have hgraph : (Session.new []).model.graph = Graph.initial := addState_empty sound_initial
  have hquiet : (Session.new []).Quiet := .new fun w hw => by cases hw
  refine ⟨hquiet, ⟨hquiet.sound, ?_⟩, hquiet, new_rereads hg, ?_⟩
  · intro id S hS
    have hS' : Graph.initial.state? id = some S := by rw [← hgraph]; exact hS
    rw [initial_state?] at hS'
    split at hS'
    · cases hS'
      exact ⟨[], hempty, fun w => by simp [State.contains, State.widget?, State.empty]⟩
    · cases hS'
  · rw [hgraph]
    refine ⟨?_, fun id => rfl, rfl⟩
    intro id
    rw [initial_state?]
    split <;> rfl

/-- A load that did not fail is a run without failures. -/
theorem clean_of_load {names : List String} {l : Loaded}
    (hlist : files.list settings.baseDir = .ok names)
    (hload : load settings files [] false = .ok l) (hok : l.report.failed = false) :
    let run := runSources settings files false (Session.new []) (discover settings names).1
    run.1.model.graph = l.model.graph ∧ ∀ r ∈ run.2.1, r.failsRun = false := by
  rw [load_eq false hlist fun w hw => by cases hw] at hload
  cases hload
  dsimp only at hok
  rw [Bool.or_eq_false_iff, List.any_eq_false] at hok
  exact ⟨rfl, fun r hr => by simpa using hok.1 r hr⟩

/-- The traces of a load that did not fail are those of the trace files. -/
theorem loaded_ids {names : List String} {l : Loaded}
    (hlist : files.list settings.baseDir = .ok names)
    (hload : load settings files [] false = .ok l) (hok : l.report.failed = false) :
    l.model.graph.traces.map (·.id) = (discover settings names).1.map (·.trace) := by
  obtain ⟨hgraph, hreports⟩ := clean_of_load hlist hload hok
  have hbegan := runSources_ids (.new fun w hw => by cases hw) hreports
  rw [hgraph] at hbegan
  exact hbegan

/-- They are in the order in which they are written. -/
theorem loaded_sorted {names : List String} {l : Loaded}
    (hlist : files.list settings.baseDir = .ok names)
    (hload : load settings files [] false = .ok l) (hok : l.report.failed = false)
    (hstandard : Standard settings) (hspells : ∀ name ∈ names, settings.Spells name) :
    (l.model.graph.traces.map fun t => traceName t.id).Pairwise (nameLe · · = true) := by
  have hordered := discover_ordered hstandard (Tree.list_ordered hlist) hspells
  have hnames := congrArg (List.map traceName) (loaded_ids hlist hload hok)
  rw [List.map_map, List.map_map] at hnames
  exact hnames ▸ hordered

/-- A load that did not fail can be exported to an empty directory and loaded from there, without a
failure or any other issue. All states, widgets, traces and actions are as they were, but for a
blank in place of every carriage return in their texts. Only a directory that lies too deep cannot
be exported to. -/
theorem reload_round_trip {target : Tree} {out : Path} {pos : Position} {names : List String}
    {l : Loaded} (hlist : files.list settings.baseDir = .ok names)
    (hload : load settings files [] false = .ok l) (hok : l.report.failed = false)
    (hstandard : Standard settings) (hsep : Separates settings.separator)
    (hspells : ∀ name ∈ names, settings.Spells name)
    (hdistinct : Distinguished (recordedSets settings files names))
    (hempty : target.EmptyAt out pos) :
    (∃ l', reload settings files target out = .ok (l, l') ∧ l'.report.failed = false ∧
      l'.report.allIssues = [] ∧ Flattened l.model.graph l'.model.graph) ∨
      ∃ e, reload settings files target out = .error e ∧ TooDeep out e := by
  obtain ⟨hgraph, hreports⟩ := clean_of_load hlist hload hok
  have hids := loaded_ids hlist hload hok
  have hsorted := loaded_sorted hlist hload hok hstandard hspells
  rcases reload_eq hload hstandard hsep hempty (List.Perm.refl _) hsorted with
    ⟨written, hwritten, hreload⟩ | htooDeep
  swap
  · exact .inr htooDeep
  have hfiles : ∀ moved : Settings, l.model.graph.traces.map (sourceOf moved) =
      (discover settings names).1.map fun source =>
        ⟨moved.tracePath source.trace, source.trace⟩ := by
    intro moved
    have hmap := congrArg (List.map fun id => (⟨moved.tracePath id, id⟩ : Source)) hids
    rwa [List.map_map, List.map_map] at hmap
  have hstart : InStep (recordedSets settings files names) l.model.graph (Session.new [])
      (Session.new []) := new_inStep hwritten.canonical.toSound List.mem_cons_self
  obtain ⟨hflattened, hleft, hclean⟩ := runSources_inStep hwritten hdistinct hstart
    (fun source hsource path hpath rows => mem_recordedSets hsource hpath) hreports hgraph
  rw [hfiles] at hreload
  refine .inl ⟨_, hreload, ?_, ?_, hflattened⟩
  · rw [hleft]
    simp only [List.isEmpty_nil, Bool.not_true, Bool.or_false, List.any_eq_false]
    intro r hr
    simp [TraceReport.failsRun, TraceReport.isFailed, (hclean r hr).1, (hclean r hr).2]
  · rw [LoadReport.allIssues, hleft, List.map_nil, List.nil_append, List.flatMap_eq_nil_iff]
    intro r hr
    exact (hclean r hr).2

/-! ## A short tour -/

def tourSettings : Settings :=
  (Settings.ofBase ⟨"m"⟩).sequential

/-- The app is launched and its button clicked. The label of the button has a carriage return. -/
def tourFiles : Tree where
  cwd := ["work"]
  nodes := [
    (["work"], .directory),
    (["work", "m"], .directory),
    (["work", "m", "states"], .directory),
    (["work", "m", "states", "s1.csv"],
      .file (utf8 "b;Button;ok;app;/b;O\rK;true;;;;;1:1:2:2\n")),
    (["work", "m", "trace00000000-0000-0000-0000-000000000001.csv"], .file (utf8 <|
      "LaunchApp;da39a3ee-5e6b-4b0d-3255-bfef95601890;s1;;\n" ++
      "Click;s1;s1;b;\n")),
    (["work", "out"], .directory)]

def tourNames : List String :=
  ["states", "trace00000000-0000-0000-0000-000000000001.csv"]

theorem reload_round_trip_tour : ∃ l, tourFiles.list tourSettings.baseDir = .ok tourNames ∧
    load tourSettings tourFiles [] false = .ok l ∧ l.report.failed = false ∧
    Standard tourSettings ∧ Separates tourSettings.separator ∧
    (∀ name ∈ tourNames, tourSettings.Spells name) ∧
    Distinguished (recordedSets tourSettings tourFiles tourNames) ∧
    tourFiles.EmptyAt ⟨"out"⟩ ["work", "out"] ∧
    ∃ l', reload tourSettings tourFiles tourFiles ⟨"out"⟩ = .ok (l, l') ∧
      l'.report.failed = false ∧ l'.report.allIssues = [] ∧
      Flattened l.model.graph l'.model.graph := by
  have hlist : tourFiles.list tourSettings.baseDir = .ok tourNames := by decide +kernel
  have hspells : ∀ name ∈ tourNames, tourSettings.Spells name := by
    unfold Settings.Spells
    decide +kernel
  have hdistinct : Distinguished (recordedSets tourSettings tourFiles tourNames) :=
    distinguished_of_nodup (by decide +kernel)
  have hsep : Separates tourSettings.separator := ⟨by decide, by decide, by decide⟩
  have hempty : tourFiles.EmptyAt ⟨"out"⟩ ["work", "out"] := by
    refine ⟨by decide +kernel, by decide +kernel, ?_⟩
    intro name rest
    simp [tourFiles, Tree.node?, List.lookup_cons]
  have hloads : (load tourSettings tourFiles [] false).toOption.map (·.report.failed) =
      some false := by decide +kernel
  cases hload : load tourSettings tourFiles [] false with
  | error e =>
    rw [hload] at hloads
    cases hloads
  | ok l =>
    have hok : l.report.failed = false := by
      rw [hload] at hloads
      exact Option.some.inj hloads
    refine ⟨l, hlist, rfl, hok, ⟨rfl, rfl⟩, hsep, hspells, hdistinct, hempty, ?_⟩
    rcases reload_round_trip hlist hload hok ⟨rfl, rfl⟩ hsep hspells hdistinct hempty with
      hreload | ⟨e, -, htooDeep⟩
    · exact hreload
    · exact absurd htooDeep (not_tooDeep (by decide +kernel))

end Load
end ScreenGraph
