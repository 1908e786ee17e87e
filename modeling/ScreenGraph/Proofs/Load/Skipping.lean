import ScreenGraph.Proofs.Load.Truncation

/-!
# ScreenGraph.Proofs.Load.Skipping

A load that skips malformed lines is one in which they are not there.

The directory is compared with the one in which every malformed line of every trace file is an empty
line, loaded under the policy to abort at a malformed line. Lines keep their numbers and records
their positions, so the two loads give the same model, and the reports on the trace files that were
read differ in an issue for each malformed line. As for a file that is cut, no recorded state may
have one of these trace files as its state file.

* `reading_blanked`: what is read of a trace file without its malformed lines.
* `load_skip`: loads of the two directories.
-/

namespace ScreenGraph

open Files Graph Identity Record Screen Watch

namespace Load

/-- The directory in which the malformed lines of some trace files are empty. -/
def blankAt (settings : Settings) (files : Tree) (sources : List Source) : Tree :=
  files.reviseAt (sources.map (·.path)) (blankLines (lacksFields .trace settings.separator))

/-- An issue for each malformed line of a trace file, in the order of the lines. -/
def malformedIssues (settings : Settings) (files : Tree) (source : Source) : List Issue :=
  match files.find source.path with
  | .ok (.file content) =>
    ((traceRows settings content).filter (!Layout.trace.accepts ·)).map fun r =>
      malformedIssue source (Layout.trace.rejection source.path r)
  | _ => []

variable (settings : Settings) {files : Tree}

/-- The rows of a trace file without its malformed lines. -/
theorem traceRows_blankLines {content : List UInt8} (h : (texts (lines content)).2 = none) :
    let left := blankLines (lacksFields .trace settings.separator) content
    (texts (lines left)).2 = none ∧
      traceRows settings left = (traceRows settings content).filter Layout.trace.accepts := by
  simp only [traceRows, lines_blankLines]
  exact rowsFrom_blanked .trace settings.separator 1 h

theorem reading_blanked {sources : List Source} {source : Source} (hsource : source ∈ sources)
    (hutf8 : ∀ content, files.find source.path = .ok (.file content) →
      ∃ text, content = Text.utf8 text) :
    ∃ malformed, malformed.map (malformedIssue source) = malformedIssues settings files source ∧
      reading (settings.under .skip) files source =
        (reading (settings.under .abortTrace) (blankAt settings files sources)
          source).ahead malformed none := by
  have hfind : (blankAt settings files sources).find source.path = (files.find source.path).map
      (·.revise (blankLines (lacksFields .trace settings.separator))) :=
    Tree.find_reviseAt_of_leads (List.mem_map_of_mem hsource) rfl
  unfold malformedIssues reading
  rw [hfind]
  cases hnode : files.find source.path with
  | error e => exact ⟨[], rfl, rfl⟩
  | ok node =>
    cases node with
    | directory => exact ⟨[], rfl, rfl⟩
    | file content =>
      obtain ⟨text, rfl⟩ := hutf8 content hnode
      have hdecoded := texts_utf8 text
      obtain ⟨hleft, hrows⟩ := traceRows_blankLines settings hdecoded
      refine ⟨((traceRows settings (Text.utf8 text)).filter (!Layout.trace.accepts ·)).map
        (Layout.trace.rejection source.path), List.map_map, ?_⟩
      have haccepted := Intake.ofRows_accepted .abortTrace source.path none
        fun r (hr : r ∈ (traceRows settings (Text.utf8 text)).filter Layout.trace.accepts) =>
          (List.mem_filter.1 hr).2
      rw [← hrows] at haccepted
      have hblanked : Intake.ofRows (settings.under .abortTrace).malformed source.path
          (traceRows (settings.under .abortTrace)
            (blankLines (lacksFields .trace settings.separator) (Text.utf8 text))) none =
          ⟨(traceRows settings (Text.utf8 text)).filter Layout.trace.accepts, [], none⟩ :=
        haccepted.trans (by rw [hrows])
      simp only [Except.map, Node.revise, hdecoded, hleft, Option.map_none, hblanked]
      simp only [Intake.ahead, List.append_nil]
      rfl

/-- The reports on a trace file in a load without its malformed lines, and in one that skips them:
with an issue for each of them in front, if the file was read. -/
def Skipped (settings : Settings) (files : Tree) (r r' : TraceReport) : Prop :=
  Prefaced (malformedIssues settings files r.origin) none r r'

theorem alike_blanked {sources : List Source} {source : Source} (hsource : source ∈ sources)
    (hutf8 : ∀ content, files.find source.path = .ok (.file content) →
      ∃ text, content = Text.utf8 text)
    (hstates : ∀ r ∈ (reading (settings.under .skip) files source).records,
      (blankAt settings files sources).find (settings.statePath (resultName r)) =
        files.find (settings.statePath (resultName r))) :
    Alike (settings.under .abortTrace) (blankAt settings files sources) (settings.under .skip) files
      (Skipped settings files) source := by
  intro s
  obtain ⟨malformed, hissues, hreading⟩ := reading_blanked settings hsource hutf8
  have hrecords := congrArg Intake.records hreading
  obtain ⟨hsession, hreport⟩ := processTrace_ahead (settings.under .abortTrace) .skip
    hreading (fun r hr => (hstates r (hrecords ▸ hr)).symm) s
  have horigin : (processTrace (settings.under .abortTrace)
      (blankAt settings files sources) s source).2.origin = source :=
    (processTrace_about _ _ s source).origin
  have hfatal := hreport.isFatal fun e he => by cases he
  rw [hissues] at hreport
  refine ⟨hsession, hfatal, ?_⟩
  rw [Skipped, horigin]
  exact hreport

/-- A directory of trace files that are UTF-8, and the same directory with empty lines in place of
the malformed ones. If every state file that a record names is the same in both, loading the one
with malformed lines skipped and loading the other without any give the same model and the same
flags, and the reports differ in an issue for each malformed line. -/
theorem load_skip {names : List String} (hlist : files.list settings.baseDir = .ok names)
    (hutf8 : ∀ source ∈ traceFiles settings names, ∀ content,
      files.find source.path = .ok (.file content) → ∃ text, content = Text.utf8 text)
    (hstates : ∀ name ∈ namesRead (settings.under .skip) files (traceFiles settings names),
      (blankAt settings files (traceFiles settings names)).find (settings.statePath name) =
        files.find (settings.statePath name))
    (watchers : List Watcher) (cancelled : Bool) :
    ∃ l l', load (settings.under .abortTrace)
          (blankAt settings files (traceFiles settings names)) watchers cancelled = .ok l ∧
      load (settings.under .skip) files watchers cancelled = .ok l' ∧
        SameLoads (Skipped settings files) l l' ∧ l'.report.failed = l.report.failed := by
  have hblanked : (blankAt settings files (traceFiles settings names)).list
      (settings.under .abortTrace).baseDir = .ok names :=
    (files.list_reviseAt _ _ settings.baseDir).trans hlist
  have halike : ∀ source ∈ traceFiles settings names,
      Alike (settings.under .abortTrace) (blankAt settings files (traceFiles settings names))
        (settings.under .skip) files (Skipped settings files) source := by
    intro source hsource
    exact alike_blanked settings hsource (hutf8 source hsource) fun r hr =>
      hstates _ (mem_namesRead hsource hr)
  obtain ⟨l, l', hl, hl', hsame, hfailed⟩ :=
    load_alike .skip hblanked hlist halike watchers cancelled
  refine ⟨l, l', hl, hl', hsame, hfailed fun r r' hr => hr.failsRun fun i hi => ?_⟩
  unfold malformedIssues at hi
  split at hi
  · obtain ⟨row, -, rfl⟩ := List.mem_map.1 hi
    rfl
  · cases hi

theorem load_skip_stopped :
    (traceFiles stoppedSettings stoppedNames).map (fun source =>
        (malformedIssues stoppedSettings (stoppedFiles stoppedContent) source).length) = [1] ∧
      ∃ l l', load (stoppedSettings.under .abortTrace) (blankAt stoppedSettings
            (stoppedFiles stoppedContent) (traceFiles stoppedSettings stoppedNames)) [] false =
          .ok l ∧
        load (stoppedSettings.under .skip) (stoppedFiles stoppedContent) [] false = .ok l' ∧
          SameLoads (Skipped stoppedSettings (stoppedFiles stoppedContent)) l l' ∧
            l'.report.failed = l.report.failed := by
  have hnames : namesRead (stoppedSettings.under .skip) (stoppedFiles stoppedContent)
      (traceFiles stoppedSettings stoppedNames) = ["s1", "s1"] := by decide +kernel
  refine ⟨by decide +kernel, load_skip stoppedSettings (stoppedFiles_list _) ?_ ?_ [] false⟩
  · intro source hsource content hcontent
    have hpath : source.path = stoppedPath :=
      List.mem_singleton.1 (stoppedNames_paths ▸ List.mem_map_of_mem hsource)
    rw [hpath, stoppedFiles_find] at hcontent
    cases hcontent
    exact ⟨_, rfl⟩
  · rw [hnames]
    decide +kernel

/-- What skipping a line is when the trace file is a state file as well: the line is still part of
that one, and the state cannot be read. -/
theorem load_skip_escaping :
    (stoppedFiles escapingContent).list stoppedSettings.baseDir = .ok stoppedNames ∧
      (traceFiles stoppedSettings stoppedNames).map (·.path) = [stoppedPath] ∧
      (∃ text, (stoppedFiles escapingContent).find stoppedPath = .ok (.file (Text.utf8 text))) ∧
      ∃ l l', load (stoppedSettings.under .abortTrace) (blankAt stoppedSettings
            (stoppedFiles escapingContent) (traceFiles stoppedSettings stoppedNames)) [] false =
          .ok l ∧
        load (stoppedSettings.under .skip) (stoppedFiles escapingContent) [] false = .ok l' ∧
          l.model.graph.actionCount = 1 ∧ l'.model.graph.actionCount = 0 ∧
            ¬ SameLoads (Skipped stoppedSettings (stoppedFiles escapingContent)) l l' := by
  have hblanked : (load (stoppedSettings.under .abortTrace) (blankAt stoppedSettings
      (stoppedFiles escapingContent) (traceFiles stoppedSettings stoppedNames)) []
      false).toOption.any (·.model.graph.actionCount = 1) = true := by decide +kernel
  have hskipped : (load (stoppedSettings.under .skip) (stoppedFiles escapingContent) []
      false).toOption.any (·.model.graph.actionCount = 0) = true := by decide +kernel
  exact ⟨stoppedFiles_list _, stoppedNames_paths, ⟨_, stoppedFiles_find _⟩,
    load_apart hblanked hskipped (by decide)⟩

end Load
end ScreenGraph
