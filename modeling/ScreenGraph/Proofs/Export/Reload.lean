import ScreenGraph.Proofs.Export.Reread

/-!
# ScreenGraph.Proofs.Export.Reload

A load, an export of what was loaded, and a load of that.

Every load can be exported to an empty directory, unless that lies too deep, and every export can be
loaded. What the second load makes of the first one is a question about its run over the written
traces.

* `loaded_graph`: what every load gives is canonical and can be written.
* `reload_eq`: both loads, with the run of the second.
-/

namespace ScreenGraph

open Export Files Graph Identity Record Screen Watch

namespace Load

/-- What is loaded, and what is loaded after it was exported to the directory `out` of a tree. -/
def reload (settings : Settings) (files target : Tree) (out : Path) :
    Except LoadError (Loaded × Loaded) :=
  let moved := { settings with baseDir := out }
  match load settings files [] false with
  | .error e => .error e
  | .ok l =>
    match exportGraph moved l.model.graph target with
    | (_, .error e) => .error e
    | (written, .ok _) =>
      match load moved written [] false with
      | .error e => .error e
      | .ok l' => .ok (l, l')

variable {settings : Settings} {files : Tree}

/-- A loaded graph is canonical, and can be written. -/
theorem loaded_graph {watchers : List Watcher} {cancelled : Bool} {l : Loaded}
    (hload : load settings files watchers cancelled = .ok l)
    (hsteady : ∀ w ∈ watchers, w.isSteady = true) (hsep : Separates settings.separator) :
    l.model.graph.Canonical ∧ l.model.graph.Legible settings.separator := by
  obtain ⟨names, hlist⟩ := list_of_load hload
  rw [load_eq cancelled hlist hsteady] at hload
  cases hload
  have hnew : (Session.new watchers).Quiet := .new hsteady
  have hlegible : (Session.new watchers).model.graph.Legible settings.separator := by
    have hgraph : (Session.new watchers).model.graph = Graph.initial := addState_empty sound_initial
    rw [hgraph]
    exact legible_initial _
  let P : Session → Prop := fun s => s.Quiet ∧ s.model.graph.Legible settings.separator
  have hboth : P (runSources settings files cancelled (Session.new watchers)
      (discover settings names).1).1 :=
    runSources_induction settings files _ ⟨hnew, hlegible⟩ fun s source h =>
      ⟨h.1.processTrace settings files source, processTrace_legible source hsep h.1 h.2⟩
  exact ⟨hboth.1.sound.canonical, hboth.2⟩

/-- A loaded graph can be exported to an empty directory, and read back from there. -/
theorem loaded_written {target : Tree} {out : Path} {pos : Position} {l : Loaded}
    (hload : load settings files [] false = .ok l) (hstandard : Standard settings)
    (hsep : Separates settings.separator) (hempty : target.EmptyAt out pos) :
    let moved := { settings with baseDir := out }
    (∃ written, exportGraph moved l.model.graph target =
        (written, .ok ⟨(recordedStates l.model.graph).length, l.model.graph.traces.length⟩) ∧
      Written moved written l.model.graph) ∨
      ∃ written e, exportGraph moved l.model.graph target = (written, .error e) ∧
        TooDeep out e := by
  intro moved
  obtain ⟨hcanonical, hlegible⟩ := loaded_graph hload (fun w hw => by cases hw) hsep
  have hmoved : Standard moved := ⟨hstandard.tracePrefix, hstandard.statesDir⟩
  rcases exportGraph_spec hcanonical.toSound hmoved hempty with
    ⟨written, hexport, hexported⟩ | htooDeep
  · exact .inl ⟨written, hexport, hsep, hcanonical, hlegible, hexported⟩
  · exact .inr htooDeep

/-- The load of a directory that a graph was exported to. -/
theorem load_written {g : Graph} {ts : List Trace} (h : Written settings files g)
    (hstandard : Standard settings) (hts : ts.Perm g.traces)
    (hsorted : (ts.map fun t => traceName t.id).Pairwise (nameLe · · = true)) :
    let run := runSources settings files false (Session.new []) (ts.map (sourceOf settings))
    load settings files [] false = .ok {
      model := run.1.model.finish
      report := {
        failed := run.2.1.any (·.failsRun) || !run.2.2.isEmpty
        cancelled := !run.2.2.isEmpty
        traces := run.2.1
        issues := run.2.2.map notDispatched } } := by
  obtain ⟨names, hlist, hperm, hnames⟩ := h.exported.names
  have hnames' : names.Perm ("states" :: ts.map fun t => traceName t.id) :=
    hperm.trans ((hts.symm.map _).cons _)
  rw [load_eq false hlist fun w hw => by cases hw]
  simp only [discover_written hstandard hnames' hnames hsorted, List.map_nil, List.nil_append]

/-- A load can be exported unless the directory lies too deep, and the export can be loaded. -/
theorem reload_eq {target : Tree} {out : Path} {pos : Position} {l : Loaded} {ts : List Trace}
    (hload : load settings files [] false = .ok l) (hstandard : Standard settings)
    (hsep : Separates settings.separator) (hempty : target.EmptyAt out pos)
    (hts : ts.Perm l.model.graph.traces)
    (hsorted : (ts.map fun t => traceName t.id).Pairwise (nameLe · · = true)) :
    let moved := { settings with baseDir := out }
    (∃ written, Written moved written l.model.graph ∧
      let run := runSources moved written false (Session.new []) (ts.map (sourceOf moved))
      reload settings files target out = .ok (l, {
        model := run.1.model.finish
        report := {
          failed := run.2.1.any (·.failsRun) || !run.2.2.isEmpty
          cancelled := !run.2.2.isEmpty
          traces := run.2.1
          issues := run.2.2.map notDispatched } })) ∨
      ∃ e, reload settings files target out = .error e ∧ TooDeep out e := by
  intro moved
  unfold reload
  dsimp only
  rw [hload]
  dsimp only
  rcases loaded_written hload hstandard hsep hempty with
    ⟨written, hexport, hwritten⟩ | ⟨written, e, hexport, htooDeep⟩
  · have hreload := load_written hwritten ⟨hstandard.tracePrefix, hstandard.statesDir⟩ hts hsorted
    refine .inl ⟨written, hwritten, ?_⟩
    rw [hexport]
    dsimp only
    rw [hreload]
  · refine .inr ⟨e, ?_, htooDeep⟩
    rw [hexport]

end Load
end ScreenGraph
