import ScreenGraph.Proofs.Load.Accounts
import ScreenGraph.Proofs.Load.Names
import ScreenGraph.Proofs.Load.Unwatched
import ScreenGraph.Proofs.Record.Lines

/-!
# ScreenGraph.Proofs.Load.Completeness

A load that is not reported as failed has lost nothing.

Records can be lost where a file is read, where a state is looked up and where an action is
resolved. Each of these is an error of the trace or an issue that fails the run. So if the run has
not failed, then every trace file became a trace, with an action for each row that has enough
fields.

* `ofItems_rows`: the rows that a policy takes in.
* `report_malformed`: the malformed lines in a report.
* `processTrace_complete`, `runSources_complete`: trace files and runs.
* `load_complete`: all trace files of a directory.
-/

namespace ScreenGraph

open Files Graph Identity Record Screen Watch

namespace Load

/-! ## Reading -/

theorem stop_of_error {policy : MalformedPolicy} {items : List Item} {e : ReadError}
    (hmem : .error e ∈ items) (he : e.isMalformed = false) :
    (Intake.ofItems policy items).stop ≠ none := by
  induction items with
  | nil => cases hmem
  | cons item items ih =>
    cases item with
    | ok r =>
      rcases List.mem_cons.1 hmem with h | h
      · cases h
      · exact ih h
    | error e' =>
      unfold Intake.ofItems
      cases hmalformed : e'.isMalformed with
      | false => simp
      | true =>
        cases policy with
        | abortTrace => simp
        | skip =>
          rcases List.mem_cons.1 hmem with h | h
          · cases h
            rw [he] at hmalformed
            cases hmalformed
          · exact ih h

/-- Rows that were all read: those with enough fields are taken in, and there are no others unless
they are to be skipped. -/
theorem ofItems_rows {policy : MalformedPolicy} {path : Path} {layout : Layout}
    {rows : List Record}
    (hstop : (Intake.ofItems policy (rows.map (layout.item path))).stop = none) :
    let intake := Intake.ofItems policy (rows.map (layout.item path))
    intake.records = rows.filter layout.accepts ∧
      intake.malformed = (rows.filter (!layout.accepts ·)).map (layout.rejection path) ∧
      (policy = .abortTrace → ∀ r ∈ rows, layout.accepts r = true) := by
  induction rows with
  | nil => exact ⟨rfl, rfl, fun _ r hr => by cases hr⟩
  | cons r rows ih =>
    cases haccepts : layout.accepts r with
    | true =>
      have hitem : layout.item path r = .ok r := by simp [Layout.item, haccepts]
      rw [List.map_cons, hitem] at hstop ⊢
      obtain ⟨hrecords, hmalformed, hall⟩ := ih hstop
      simp only [Intake.ofItems, haccepts, List.filter_cons, hrecords, hmalformed]
      refine ⟨rfl, rfl, ?_⟩
      intro hpolicy r' hr'
      rcases List.mem_cons.1 hr' with rfl | hr'
      · exact haccepts
      · exact hall hpolicy r' hr'
    | false =>
      have hitem : layout.item path r = .error (layout.rejection path r) := by
        simp [Layout.item, haccepts]
      have hkind : (layout.rejection path r).isMalformed = true := rfl
      rw [List.map_cons, hitem] at hstop ⊢
      cases policy with
      | abortTrace => simp [Intake.ofItems, hkind] at hstop
      | skip =>
        simp only [Intake.ofItems, hkind, if_true] at hstop ⊢
        obtain ⟨hrecords, hmalformed, -⟩ := ih hstop
        simp only [haccepts, List.filter_cons, hrecords, hmalformed]
        exact ⟨rfl, rfl, fun h => by cases h⟩

/-! ## Issues on malformed lines -/

/-- The issue on a malformed line of a trace file. -/
def malformedIssue (source : Source) (e : ReadError) : Issue :=
  ⟨.malformedRecord, source.path, some source.trace, none, e.message⟩

namespace TraceReport

/-- The issues on malformed lines. -/
def malformedIssues (r : TraceReport) : List Issue :=
  r.issues.filter (·.kind = .malformedRecord)

theorem malformedIssues_addIssue (r : TraceReport) {kind : IssueKind} (line : Option Nat)
    (message : String) (hkind : kind ≠ .malformedRecord) :
    (r.addIssue kind line message).malformedIssues = r.malformedIssues := by
  simp [malformedIssues, addIssue, hkind]

theorem malformedIssues_addOutcome (r : TraceReport) (outcome : Outcome) :
    (r.addOutcome outcome).malformedIssues = r.malformedIssues := by
  cases outcome with
  | dropped line error => exact r.malformedIssues_addIssue _ _ (by simp)
  | resolved line resolution =>
    simp only [addOutcome]
    induction resolution.notes generalizing r with
    | nil => rfl
    | cons note notes ih =>
      rw [List.foldl_cons, ih]
      cases note <;> exact r.malformedIssues_addIssue _ _ (by simp)

theorem malformedIssues_foldl (r : TraceReport) (outcomes : List Outcome) :
    (outcomes.foldl addOutcome r).malformedIssues = r.malformedIssues := by
  induction outcomes generalizing r with
  | nil => rfl
  | cons outcome outcomes ih => rw [List.foldl_cons, ih, malformedIssues_addOutcome]

theorem malformedIssues_malformed (r : TraceReport) (errors : List ReadError) :
    (errors.foldl (fun r e => r.addIssue .malformedRecord none e.message) r).malformedIssues =
      r.malformedIssues ++ errors.map (malformedIssue r.origin) := by
  induction errors generalizing r with
  | nil => simp
  | cons e errors ih =>
    rw [List.foldl_cons, ih]
    simp [malformedIssues, addIssue, malformedIssue, origin]

end TraceReport

/-- Each malformed line that was met has an issue of its own. -/
theorem report_malformed (c : Considered) (source : Source) (intake : Intake) :
    (c.report (TraceReport.new source.path source.trace) intake).malformedIssues =
      intake.malformed.map (malformedIssue source) := by
  have hread := TraceReport.malformedIssues_malformed
    (TraceReport.new source.path source.trace) intake.malformed
  exact (TraceReport.malformedIssues_foldl _ c.outcomes).trans hread

/-! ## Trace files -/

/-- An action stands for a record, with names of states as they are settled in a survey. -/
structure Records (settings : Settings) (files : Tree) (s : Survey) (r : Record) (a : Action) :
    Prop where
  kind : a.kind = ActionKind.read (r.field TraceColumn.action)
  source : (s.settled? (r.field TraceColumn.source)).map (·.id) = some a.source
  result : (s.settled? (r.field TraceColumn.result)).map (·.id) = some a.result
  /-- The names denote the states by their ids or by their files. -/
  sourceId : Denotes settings files (Text.trim (r.field TraceColumn.source)) a.source
  resultId : Denotes settings files (Text.trim (r.field TraceColumn.result)) a.result

/-- The rows of a trace file with its content. -/
def traceRows (settings : Settings) (content : List UInt8) : List Record :=
  rowsFrom .trace settings.separator 1 (texts (lines content)).1

/-- A trace file is in a graph as a whole, with a report that says what was skipped. -/
structure Complete (settings : Settings) (files : Tree) (s : Survey) (source : Source)
    (t : Trace) (report : TraceReport) (content : List UInt8) : Prop where
  found : files.find source.path = .ok (.file content)
  decoded : (texts (lines content)).2 = none
  id : t.id = source.trace
  actions : List.Forall₂ (Records settings files s)
    ((traceRows settings content).filter Layout.trace.accepts) t.actions
  indices : Consecutive 0 t.actions
  reported : report.trace = source.trace
  skipped : report.malformedIssues =
    ((traceRows settings content).filter (!Layout.trace.accepts ·)).map fun r =>
      malformedIssue source (Layout.trace.rejection source.path r)
  aborted : settings.malformed = .abortTrace →
    ∀ r ∈ traceRows settings content, Layout.trace.accepts r = true

variable {settings : Settings} {files : Tree} {s s' : Survey}

theorem settled?_map_mono (hin : s.SettledIn s') {raw : String} {id : StateId}
    (h : (s.settled? raw).map (·.id) = some id) : (s'.settled? raw).map (·.id) = some id := by
  obtain ⟨state, hstate, hid⟩ := Option.map_eq_some_iff.1 h
  exact Option.map_eq_some_iff.2 ⟨state, hin raw state hstate, hid⟩

theorem Records.mono {r : Record} {a : Action} (h : Records settings files s r a)
    (hin : s.SettledIn s') : Records settings files s' r a :=
  { h with
    source := settled?_map_mono hin h.source
    result := settled?_map_mono hin h.result }

theorem Complete.mono {source : Source} {t : Trace} {report : TraceReport} {content : List UInt8}
    (h : Complete settings files s source t report content) (hin : s.SettledIn s') :
    Complete settings files s' source t report content :=
  { h with actions := h.actions.imp fun _ _ hrecords => hrecords.mono hin }

/-- The actions of records that all became actions. -/
theorem consider_records {records : List Record} (hs : s.Grounded settings files)
    (hclean : (consider settings files s records).Clean) :
    let c := consider settings files s records
    Consecutive 0 c.actions ∧
      List.Forall₂ (Records settings files c.survey) records c.actions := by
  intro c
  obtain ⟨hgrounded, -, hsettled⟩ := attemptAll_settledIn settings files records hs
  have hrecords := attemptAll_records settings files s records
  obtain ⟨hindices, hall⟩ := outcomesFrom_resolved 0 hclean.failure hclean.resolved
  refine ⟨hindices, ?_⟩
  have hattempts : List.Forall₂ (fun attempt a => Records settings files c.survey attempt.record a)
      (attemptAll settings files s records).2 c.actions := by
    refine ((List.forall₂_and_left _ _).2 ⟨fun _ h => h, hall⟩).imp ?_
    rintro attempt a ⟨hmem, result, hok, hfrom⟩
    obtain ⟨source, hsource, hid⟩ := hfrom.source
    rw [Survey.settled?_trim] at hsource
    have hresult := hsettled attempt hmem result hok
    have hsourceId := Survey.settled?_denotes hgrounded hsource
    have hresultId := Survey.settled?_denotes hgrounded hresult
    refine ⟨hfrom.kind, ?_, ?_, hid ▸ hsourceId, hfrom.result ▸ hresultId⟩
    · exact Option.map_eq_some_iff.2 ⟨source, hsource, hid⟩
    · exact Option.map_eq_some_iff.2 ⟨result, hresult, hfrom.result.symm⟩
  have hmap := List.forall₂_map_left_iff.2 hattempts
  rw [hrecords] at hmap
  exact hmap

/-- A trace file whose report has no failure is in the graph as a whole. -/
theorem processTrace_complete {s : Session} {source : Source} (hquiet : s.Quiet)
    (hs : s.survey.Grounded settings files)
    (hok : (processTrace settings files s source).2.failsRun = false) :
    let after := processTrace settings files s source
    ∃ content, ∃ t ∈ after.1.model.graph.traces,
      Complete settings files after.1.survey source t after.2 content := by
  have htrace := congrArg Source.trace (processTrace_about settings files s source).origin
  obtain ⟨hnew, items, hopen, hstop, hclean, hprocess⟩ := processTrace_read hquiet hok
  obtain ⟨content, hfound, hdecoded, rfl⟩ := openFile_rows hopen
    fun failure hmem => stop_of_error hmem rfl hstop
  obtain ⟨hrecords, hmalformed, haborted⟩ := ofItems_rows hstop
  have hbegun := (begin_retraced s source.trace).grounded (hquiet.begin hnew).sound hs
  generalize Intake.ofItems settings.malformed _ = intake at *
  have htraces := begin_commit_traces settings files intake.records (hquiet.begin hnew)
  obtain ⟨hindices, hactions⟩ := consider_records hbegun hclean
  rw [hprocess] at htrace ⊢
  dsimp only at hactions htraces htrace ⊢
  generalize consider settings files (s.begin source.trace).survey intake.records = c at *
  rw [hrecords] at hactions
  refine ⟨content, ⟨source.trace, c.actions⟩, ?_, hfound, hdecoded, rfl, ?_, hindices, htrace, ?_,
    haborted⟩
  · rw [htraces]
    exact List.mem_append_right _ List.mem_cons_self
  · refine hactions.imp fun _ _ h => h.mono ?_
    exact (commit_retraced _ _ c).settledIn
  · rw [report_malformed, hmalformed, List.map_map]
    rfl

/-- In a run without failures all trace files become traces of the graph that it ends with. -/
theorem runSources_complete {s : Session} {sources : List Source} (hquiet : s.Quiet)
    (hs : s.survey.Grounded settings files)
    (hok : ∀ r ∈ (runSources settings files false s sources).2.1, r.failsRun = false) :
    let run := runSources settings files false s sources
    ∀ source ∈ sources, ∃ content, ∃ t ∈ run.1.model.graph.traces, ∃ r ∈ run.2.1,
      Complete settings files run.1.survey source t r content := by
  induction sources generalizing s with
  | nil => exact fun source h => by cases h
  | cons first sources ih =>
    rw [runSources_cons] at hok ⊢
    have hfirst := hok _ List.mem_cons_self
    have hfatal := not_fatal (error_of_not_failed hfirst)
    have hquiet' := hquiet.processTrace settings files first
    obtain ⟨hgrounded, -⟩ := processTrace_settledIn settings files first hquiet hs
    obtain ⟨content, t, ht, hcomplete⟩ := processTrace_complete hquiet hs hfirst
    dsimp only at hok hgrounded ht hcomplete ⊢
    rw [hfatal] at hok ⊢
    generalize processTrace settings files s first = answer at *
    have hrest := ih hquiet' hgrounded fun r hr => hok r (List.mem_cons_of_mem _ hr)
    obtain ⟨-, hin⟩ := runSources_settledIn settings files false sources hquiet' hgrounded
    have hkept : answer.1.model.graph.traces <+:
        (runSources settings files false answer.1 sources).1.model.graph.traces :=
      runSources_traces settings files sources hquiet'
    intro source hsource
    rcases List.mem_cons.1 hsource with rfl | hsource
    · exact ⟨content, t, hkept.subset ht, answer.2, List.mem_cons_self, hcomplete.mono hin⟩
    · obtain ⟨content', t', ht', r, hr, hcomplete'⟩ := hrest source hsource
      exact ⟨content', t', ht', r, List.mem_cons_of_mem _ hr, hcomplete'⟩

/-! ## Loads -/

/-- The survey with which a run over the trace files of a directory ends. -/
def lastSurvey (settings : Settings) (files : Tree) (watchers : List Watcher)
    (names : List String) : Survey :=
  (runSources settings files false (Session.new watchers) (traceFiles settings names)).1.survey

theorem lastSurvey_unwatched {watchers : List Watcher} (names : List String)
    (hlasting : ∀ w ∈ watchers, w.lasts = true) :
    lastSurvey settings files [] names = lastSurvey settings files watchers names := by
  obtain ⟨hsession, -⟩ :=
    runSources_new settings files false (traceFiles settings names) hlasting
  rw [lastSurvey, ← hsession]
  rfl

/-- With watchers that never break off, a load that has not failed has every trace file as a whole,
and has reported each malformed line. -/
theorem load_complete {watchers : List Watcher} {names : List String} {cancelled : Bool}
    {l : Loaded} (hlasting : ∀ w ∈ watchers, w.lasts = true)
    (hlist : files.list settings.baseDir = .ok names)
    (hload : load settings files watchers cancelled = .ok l) (hok : l.report.failed = false) :
    ∀ name ∈ names, ∀ id, settings.traceIdOfName? name = some id → ∃ t, ∃ r ∈ l.report.traces,
      l.model.graph.trace? id = some t ∧ ∃ content,
        Complete settings files (lastSurvey settings files watchers names)
          ⟨settings.baseDir.join name, id⟩ t r content := by
  intro name hname id hid
  have hsource : ⟨settings.baseDir.join name, id⟩ ∈ traceFiles settings names :=
    List.mem_filterMap.2 ⟨name, hname, by rw [hid]; rfl⟩
  obtain ⟨l', hload', hreport, hgraph⟩ := load_unwatched settings files hlasting hload
  have hnone : ∀ w ∈ ([] : List Watcher), w.isSteady = true := fun w hw => by cases hw
  rw [← hreport] at hok ⊢
  rw [← hgraph, ← lastSurvey_unwatched names hlasting]
  rw [load_eq cancelled hlist hnone, discover_eq] at hload'
  cases hload'
  simp only [Bool.or_eq_false_iff, List.any_eq_false, Bool.not_eq_false', List.isEmpty_iff] at hok ⊢
  obtain ⟨hreports, hleft⟩ := hok
  cases cancelled with
  | true =>
    -- what is left is empty, so there is no trace file at all
    have hall := (runSources_accounts settings files true (Session.new [])
      (traceFiles settings names)).all
    rw [hleft, (runSources_accounts settings files true _ _).none rfl] at hall
    rw [← hall] at hsource
    cases hsource
  | false =>
    have hquiet := Session.Quiet.new hnone
    obtain ⟨content, t, ht, r, hr, hcomplete⟩ := runSources_complete hquiet
      (Survey.grounded_new settings files []) (fun r hr => by simpa using hreports r hr) _ hsource
    have hend : (runSources settings files false (Session.new [])
      (traceFiles settings names)).1.Quiet := hquiet.runSources settings files _
    have hsound := hend.sound.canonical.toSound
    refine ⟨t, r, hr, ?_, content, hcomplete⟩
    have htrace := Model.trace?_of_mem hsound ht
    rw [hcomplete.id] at htrace
    exact htrace

def tornSettings : Settings :=
  { (Settings.ofBase ⟨"m"⟩).sequential with malformed := .skip }

/-- A trace with a blank line and a line that breaks off. -/
def tornFiles : Tree where
  cwd := ["work"]
  nodes := [
    (["work"], .directory),
    (["work", "m"], .directory),
    (["work", "m", "states"], .directory),
    (["work", "m", "states", "s1.csv"],
      .file (Text.utf8 "b;Button;ok;app;/b;OK;true;;;;;1:1:2:2\n")),
    (["work", "m", "trace00000000-0000-0000-0000-000000000001.csv"], .file (Text.utf8 <|
      "LaunchApp;da39a3ee-5e6b-4b0d-3255-bfef95601890;s1;;\n" ++
      "\n" ++
      "Click;s1\n" ++
      "Click;s1;s1;b;\n"))]

def tornNames : List String :=
  ["states", "trace00000000-0000-0000-0000-000000000001.csv"]

theorem load_complete_torn : ∃ l, (∀ w ∈ [Watcher.tally .empty], w.lasts = true) ∧
    tornFiles.list tornSettings.baseDir = .ok tornNames ∧
    load tornSettings tornFiles [.tally .empty] false = .ok l ∧ l.report.failed = false ∧
    ∀ name ∈ tornNames, ∀ id, tornSettings.traceIdOfName? name = some id →
      ∃ t, ∃ r ∈ l.report.traces, l.model.graph.trace? id = some t ∧ ∃ content,
        Complete tornSettings tornFiles
          (lastSurvey tornSettings tornFiles [.tally .empty] tornNames)
          ⟨tornSettings.baseDir.join name, id⟩ t r content := by
  have hlist : tornFiles.list tornSettings.baseDir = .ok tornNames := by decide +kernel
  have hloads : (load tornSettings tornFiles [.tally .empty] false).toOption.map
      (·.report.failed) = some false := by decide +kernel
  cases hload : load tornSettings tornFiles [.tally .empty] false with
  | error e =>
    rw [hload] at hloads
    cases hloads
  | ok l =>
    have hok : l.report.failed = false := by
      rw [hload] at hloads
      exact Option.some.inj hloads
    exact ⟨l, by decide, hlist, rfl, hok, load_complete (by decide) hlist hload hok⟩

/-- Two actions, and an issue on the third line. -/
example : (load tornSettings tornFiles [] false).toOption.map (fun l =>
    l.report.traces.map fun r => (r.committed, r.malformedIssues.length)) = some [(2, 1)] := by
  decide +kernel

end Load
end ScreenGraph
