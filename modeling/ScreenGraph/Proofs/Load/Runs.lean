import Mathlib.Data.List.Forall2
import ScreenGraph.Proofs.Load.Commits

/-!
# ScreenGraph.Proofs.Load.Runs

Whole loads, and what it means that one did not fail.

A load that can list its directory gives a model, and each trace file adds to what was there. A
report without failures says that every record of the file became an action, so that the actions
are counted on from zero.

* `runSources_induction`: what every trace file keeps is kept by a run.
* `outcomesFrom_clean`: records that all became actions.
* `processTrace_clean`: what a file did whose report has no failure.
* `load_eq`: the model and the report of a load.
-/

namespace ScreenGraph

open Files Graph Identity Record Screen Watch

/-- The indices of the actions count on from a number. -/
def Graph.Consecutive (index : Nat) (as : List Action) : Prop :=
  as.map (·.index) = List.range' index as.length

theorem Graph.consecutive_cons {index : Nat} {a : Action} {as : List Action} :
    Consecutive index (a :: as) ↔ a.index = index ∧ Consecutive (index + 1) as := by
  simp [Consecutive, List.range'_succ]

namespace Load

/-! ## Runs -/

section

variable (settings : Settings) (files : Tree)

theorem runSources_induction {P : Session → Prop} {stopped : Bool} {s : Session}
    (sources : List Source) (hs : P s)
    (hstep : ∀ s source, P s → P (processTrace settings files s source).1) :
    P (runSources settings files stopped s sources).1 := by
  induction sources generalizing s stopped with
  | nil => cases stopped <;> exact hs
  | cons source sources ih =>
    cases stopped with
    | true => exact hs
    | false => exact ih (hstep s source hs)

theorem runSources_cons (s : Session) (source : Source) (sources : List Source) :
    runSources settings files false s (source :: sources) =
      let first := processTrace settings files s source
      let rest := runSources settings files first.2.isFatal first.1 sources
      (rest.1, first.2 :: rest.2.1, rest.2.2) := rfl

theorem Session.Quiet.runSources {s : Session} {stopped : Bool} (sources : List Source)
    (hs : s.Quiet) : (runSources settings files stopped s sources).1.Quiet :=
  runSources_induction settings files sources hs fun _ source h =>
    h.processTrace settings files source

/-- Forgetting the settled names does not touch the model. -/
theorem clear_model {s : Session} (hs : s.Quiet) :
    (s.withSurvey s.survey.clear).model = s.model := by
  have hgraph : s.survey.clear.graph = s.model.graph := addState_empty hs.sound.canonical.toSound
  rw [Session.withSurvey, hgraph]

/-! ## Traces -/

theorem begin_commit_traces {s : Session} {id : TraceId} (records : List Record)
    (hs : (s.begin id).Quiet) :
    let c := consider settings files (s.begin id).survey records
    ((s.begin id).commit ⟨s.model.graph.traces.length, id⟩ c).model.graph.traces =
      s.model.graph.traces ++ [⟨id, c.actions⟩] := by
  obtain ⟨-, -, htraces, -, -⟩ := consider_spec settings files records hs.sound
  dsimp only at htraces ⊢
  generalize consider settings files (s.begin id).survey records = c at *
  have hbegun : c.survey.graph.traces = s.model.graph.traces ++ [Trace.new id] := htraces
  show c.survey.graph.traces.modify s.model.graph.traces.length (·.extend c.actions) = _
  rw [hbegun]
  exact List.modifyTailIdx_add _ 0 _ _

theorem processTrace_kept {s : Session} (source : Source) (hs : s.Quiet) :
    s.model.graph.KeptIn (processTrace settings files s source).1.model.graph := by
  rw [processTrace_eq settings files source hs]
  dsimp only
  split
  · exact .refl _
  · rename_i hnew
    have hquiet : (s.begin source.trace).Quiet := hs.begin (by simpa using hnew)
    have hbegun : s.model.graph.KeptIn (s.begin source.trace).model.graph :=
      kept_beginTrace (Model.beginTrace_graph (beginTrace_new (by simpa using hnew)))
    split
    · exact hbegun
    · obtain ⟨-, hkept, -⟩ := consider_spec settings files _ hquiet.sound
      exact (hbegun.trans hkept).trans (kept_extendTrace _ _ _)

theorem runSources_kept {s : Session} {stopped : Bool} (sources : List Source) (hs : s.Quiet) :
    s.model.graph.KeptIn (runSources settings files stopped s sources).1.model.graph := by
  have hboth : s.model.graph.KeptIn (runSources settings files stopped s sources).1.model.graph ∧
      (runSources settings files stopped s sources).1.Quiet :=
    runSources_induction settings files
      (P := fun s' => s.model.graph.KeptIn s'.model.graph ∧ s'.Quiet) sources
      ⟨.refl _, hs⟩ fun s' source h => ⟨h.1.trans (processTrace_kept settings files source h.2),
        h.2.processTrace settings files source⟩
  exact hboth.1

/-- Traces are only added, behind those that are there. -/
theorem processTrace_traces {s : Session} (source : Source) (hs : s.Quiet) :
    s.model.graph.traces <+: (processTrace settings files s source).1.model.graph.traces := by
  rw [processTrace_eq settings files source hs]
  dsimp only
  split
  · exact List.prefix_refl _
  · rename_i hnew
    split
    · exact List.prefix_append _ _
    · rw [begin_commit_traces settings files _ (hs.begin (by simpa using hnew))]
      exact List.prefix_append _ _

theorem runSources_traces {s : Session} {stopped : Bool} (sources : List Source) (hs : s.Quiet) :
    s.model.graph.traces <+:
      (runSources settings files stopped s sources).1.model.graph.traces := by
  have hboth : s.model.graph.traces <+:
      (runSources settings files stopped s sources).1.model.graph.traces ∧
        (runSources settings files stopped s sources).1.Quiet :=
    runSources_induction settings files
      (P := fun s' => s.model.graph.traces <+: s'.model.graph.traces ∧ s'.Quiet) sources
      ⟨List.prefix_refl _, hs⟩ fun s' source h =>
        ⟨h.1.trans (processTrace_traces settings files source h.2),
          h.2.processTrace settings files source⟩
  exact hboth.1

end

variable {settings : Settings} {files : Tree}

/-! ## Loads -/

/-- Every load of a directory that can be listed gives a model. -/
theorem load_eq {names : List String} {watchers : List Watcher} (cancelled : Bool)
    (hlist : files.list settings.baseDir = .ok names)
    (hsteady : ∀ w ∈ watchers, w.isSteady = true) :
    load settings files watchers cancelled =
      let found := discover settings names
      let run := runSources settings files cancelled (Session.new watchers) found.1
      .ok {
        model := run.1.model.finish
        report := {
          failed := run.2.1.any (·.failsRun) || !run.2.2.isEmpty
          cancelled := !run.2.2.isEmpty
          traces := run.2.1
          issues := (found.2.map fun (path, name) => invalidName path name)
            ++ run.2.2.map notDispatched } } := by
  have hquiet : (runSources settings files cancelled (Session.new watchers)
      (discover settings names).1).1.Quiet := .runSources settings files _ (.new hsteady)
  simp only [load, hlist]
  rw [clear_model hquiet]

theorem list_of_load {watchers : List Watcher} {cancelled : Bool} {l : Loaded}
    (h : load settings files watchers cancelled = .ok l) :
    ∃ names, files.list settings.baseDir = .ok names := by
  unfold load at h
  cases hlist : files.list settings.baseDir with
  | error e => rw [hlist] at h; cases h
  | ok names => exact ⟨names, rfl⟩

/-- What a load is found to give when it is run. -/
theorem loads_of_any {watchers : List Watcher} {cancelled : Bool} {p : Loaded → Bool}
    (h : (load settings files watchers cancelled).toOption.any p = true) :
    ∃ l, load settings files watchers cancelled = .ok l ∧ p l = true := by
  cases hload : load settings files watchers cancelled with
  | error e =>
    rw [hload] at h
    cases h
  | ok l =>
    rw [hload] at h
    exact ⟨l, rfl, h⟩

/-! ## Reports without failures -/

namespace TraceReport

theorem addNote_error (r : TraceReport) (line : Nat) (note : Note) :
    (r.addNote line note).error = r.error := by
  cases note <;> rfl

theorem addNote_issues (r : TraceReport) (line : Nat) (note : Note) :
    r.issues ⊆ (r.addNote line note).issues := by
  cases note <;> exact List.subset_append_left _ _

theorem addOutcome_keeps (r : TraceReport) (outcome : Outcome) :
    (r.addOutcome outcome).error = r.error ∧ r.issues ⊆ (r.addOutcome outcome).issues := by
  cases outcome with
  | dropped line error => exact ⟨rfl, List.subset_append_left _ _⟩
  | resolved line resolution =>
    simp only [addOutcome]
    induction resolution.notes generalizing r with
    | nil => exact ⟨rfl, fun _ h => h⟩
    | cons note notes ih =>
      obtain ⟨herror, hissues⟩ := ih (r.addNote line note)
      rw [List.foldl_cons]
      exact ⟨herror.trans (r.addNote_error line note),
        List.Subset.trans (r.addNote_issues line note) hissues⟩

theorem foldl_keeps (r : TraceReport) (outcomes : List Outcome) :
    (outcomes.foldl addOutcome r).error = r.error ∧
      r.issues ⊆ (outcomes.foldl addOutcome r).issues := by
  induction outcomes generalizing r with
  | nil => exact ⟨rfl, fun _ h => h⟩
  | cons outcome outcomes ih =>
    obtain ⟨herror, hissues⟩ := r.addOutcome_keeps outcome
    obtain ⟨herror', hissues'⟩ := ih (r.addOutcome outcome)
    exact ⟨herror'.trans herror, List.Subset.trans hissues hissues'⟩

/-- A dropped record is an issue that fails the run. -/
theorem isSome_of_issues {r : TraceReport} {outcomes : List Outcome}
    (h : ∀ issue ∈ (outcomes.foldl addOutcome r).issues, issue.kind.isFailure = false) :
    ∀ outcome ∈ outcomes, outcome.action?.isSome = true := by
  induction outcomes generalizing r with
  | nil => exact fun _ hmem => by cases hmem
  | cons outcome outcomes ih =>
    intro o ho
    rcases List.mem_cons.1 ho with rfl | ho
    · cases o with
      | dropped line error =>
        have hissue :
            (⟨.unresolvedState, r.source, some r.trace, some line, error.message⟩ : Issue) ∈
              (r.addOutcome (.dropped line error)).issues := by
          simp [addOutcome, addIssue]
        have hfail := h _ ((foldl_keeps _ outcomes).2 hissue)
        cases hfail
      | resolved line resolution => rfl
    · exact ih h o ho

theorem foldl_addOutcome_of_silent (r : TraceReport) {outcomes : List Outcome}
    (h : ∀ o ∈ outcomes, ∃ line resolution, o = .resolved line resolution ∧
      resolution.notes = []) :
    outcomes.foldl addOutcome r = r := by
  induction outcomes with
  | nil => rfl
  | cons outcome outcomes ih =>
    obtain ⟨line, resolution, rfl, hnotes⟩ := h outcome List.mem_cons_self
    have hfirst : r.addOutcome (.resolved line resolution) = r := by
      simp only [addOutcome, hnotes, List.foldl_nil]
    rw [List.foldl_cons, hfirst, ih fun o ho => h o (List.mem_cons_of_mem _ ho)]

end TraceReport

/-- Every record became an action. -/
structure Considered.Clean (c : Considered) : Prop where
  failure : c.failure = none
  resolved : ∀ outcome ∈ c.outcomes, outcome.action?.isSome = true

theorem Considered.report_error (c : Considered) (report : TraceReport) (intake : Intake) :
    (c.report report intake).error = c.failure.or (intake.stop.map .read) :=
  (TraceReport.foldl_keeps _ _).1

/-- A report of which nothing has to be said. -/
theorem Considered.report_issues {c : Considered} (report : TraceReport) {intake : Intake}
    (hmalformed : intake.malformed = []) (h : ∀ o ∈ c.outcomes, ∃ line resolution,
      o = .resolved line resolution ∧ resolution.notes = []) :
    (c.report report intake).issues = report.issues := by
  unfold Considered.report
  dsimp only
  rw [hmalformed, TraceReport.foldl_addOutcome_of_silent _ h]
  rfl

theorem Considered.clean_of_report {c : Considered} {report : TraceReport} {intake : Intake}
    (h : (c.report report intake).failsRun = false) : c.Clean := by
  simp only [TraceReport.failsRun, TraceReport.isFailed, Bool.or_eq_false_iff,
    List.any_eq_false, Option.isSome_eq_false_iff, Option.isNone_iff_eq_none] at h
  obtain ⟨herror, hissues⟩ := h
  rw [c.report_error] at herror
  exact ⟨(Option.or_eq_none_iff.1 herror).1,
    TraceReport.isSome_of_issues fun issue hissue => by simpa using hissues issue hissue⟩

theorem Considered.stop_of_report {c : Considered} {report : TraceReport} {intake : Intake}
    (h : (c.report report intake).failsRun = false) : intake.stop = none := by
  simp only [TraceReport.failsRun, TraceReport.isFailed, Bool.or_eq_false_iff,
    Option.isSome_eq_false_iff, Option.isNone_iff_eq_none, c.report_error] at h
  exact Option.map_eq_none_iff.1 (Option.or_eq_none_iff.1 h.1).2

/-- A trace file whose report has no failure was read to its end, and all of its records became
actions. -/
theorem processTrace_read {s : Session} {source : Source} (hs : s.Quiet)
    (h : (processTrace settings files s source).2.failsRun = false) :
    (∀ t ∈ s.model.graph.traces, t.id ≠ source.trace) ∧
      ∃ items, openFile files source.path .trace settings.separator = .ok items ∧
        let intake := Intake.ofItems settings.malformed items
        let c := consider settings files (s.begin source.trace).survey intake.records
        intake.stop = none ∧ c.Clean ∧ processTrace settings files s source =
          ((s.begin source.trace).commit ⟨s.model.graph.traces.length, source.trace⟩ c,
            c.report (TraceReport.new source.path source.trace) intake) := by
  rw [processTrace_eq settings files source hs] at h ⊢
  dsimp only at h ⊢
  split at h
  · cases h
  · rename_i hnew
    rw [if_neg hnew]
    refine ⟨by simpa using hnew, ?_⟩
    split at h
    · cases h
    · rename_i items hopen
      rw [hopen]
      exact ⟨items, rfl, Considered.stop_of_report h, Considered.clean_of_report h, rfl⟩

/-- What a trace file did whose report has no failure. -/
theorem processTrace_clean {s : Session} {source : Source} (hs : s.Quiet)
    (h : (processTrace settings files s source).2.failsRun = false) :
    (∀ t ∈ s.model.graph.traces, t.id ≠ source.trace) ∧
      ∃ items, openFile files source.path .trace settings.separator = .ok items ∧
        let c := consider settings files (s.begin source.trace).survey
          (Intake.ofItems settings.malformed items).records
        c.Clean ∧ (processTrace settings files s source).1 =
          (s.begin source.trace).commit ⟨s.model.graph.traces.length, source.trace⟩ c := by
  obtain ⟨hnew, items, hopen, -, hclean, hprocess⟩ := processTrace_read hs h
  exact ⟨hnew, items, hopen, hclean, congrArg Prod.fst hprocess⟩

theorem not_fatal {r : TraceReport} (h : r.error = none) : r.isFatal = false := by
  rw [TraceReport.isFatal, h]
  rfl

theorem error_of_not_failed {r : TraceReport} (h : r.failsRun = false) : r.error = none := by
  rw [TraceReport.failsRun, Bool.or_eq_false_iff] at h
  simpa [TraceReport.isFailed] using h.1

/-- A run without failures begins every trace. -/
theorem runSources_ids {s : Session} {sources : List Source} (hs : s.Quiet)
    (hok : ∀ r ∈ (runSources settings files false s sources).2.1, r.failsRun = false) :
    (runSources settings files false s sources).1.model.graph.traces.map (·.id) =
      s.model.graph.traces.map (·.id) ++ sources.map (·.trace) := by
  induction sources generalizing s with
  | nil => simp [runSources]
  | cons source sources ih =>
    rw [runSources_cons] at hok ⊢
    have hfirst := hok _ List.mem_cons_self
    obtain ⟨hnew, items, -, -, hprocess⟩ := processTrace_clean hs hfirst
    have htraces := begin_commit_traces settings files
      (Intake.ofItems settings.malformed items).records (hs.begin hnew)
    dsimp only at htraces
    rw [← hprocess] at htraces
    have hfatal := not_fatal (error_of_not_failed hfirst)
    dsimp only at hok ⊢
    rw [hfatal] at hok ⊢
    rw [ih (hs.processTrace settings files source) fun r hr => hok r (List.mem_cons_of_mem _ hr),
      htraces]
    simp

/-- What an action has of the record that it was resolved from. -/
structure ResolvedFrom (s : Survey) (index : Nat) (r : Record) (result : State) (a : Action) :
    Prop where
  index : a.index = index
  kind : a.kind = ActionKind.read (r.field TraceColumn.action)
  source : ∃ source, s.settled? (Text.trim (r.field TraceColumn.source)) = some source ∧
    source.id = a.source
  result : a.result = result.id

theorem outcomeOf_resolved {s : Survey} {index : Nat} {r : Record} {result : State} {a : Action}
    (h : (outcomeOf s index r result).action? = some a) : ResolvedFrom s index r result a := by
  unfold outcomeOf at h
  cases hr : resolve s index r result with
  | error e => rw [hr] at h; cases h
  | ok resolution =>
    rw [hr] at h
    cases h
    unfold resolve at hr
    dsimp only at hr
    split at hr
    · cases hr
    · rename_i source hsource
      cases hr
      exact ⟨rfl, rfl, ⟨source, hsource, rfl⟩, rfl⟩

/-- Records that all became actions. -/
theorem outcomesFrom_resolved {s : Survey} (index : Nat) {attempts : List Attempt}
    (hfailure : (outcomesFrom s index attempts).2 = none)
    (hresolved : ∀ o ∈ (outcomesFrom s index attempts).1, o.action?.isSome = true) :
    let as := actionsOf (outcomesFrom s index attempts).1
    Consecutive index as ∧ List.Forall₂ (fun attempt a =>
      ∃ result, attempt.result = .ok result ∧
        ResolvedFrom s a.index attempt.record result a) attempts as := by
  induction attempts generalizing index with
  | nil => exact ⟨rfl, .nil⟩
  | cons attempt attempts ih =>
    obtain ⟨r, result⟩ := attempt
    cases result with
    | error e => cases hfailure
    | ok result =>
      rw [outcomesFrom_ok] at hfailure hresolved ⊢
      obtain ⟨hindices, hall⟩ := ih (index + 1) hfailure
        fun o ho => hresolved o (List.mem_cons_of_mem _ ho)
      obtain ⟨a, ha⟩ := Option.isSome_iff_exists.1 (hresolved _ List.mem_cons_self)
      have hfrom := outcomeOf_resolved ha
      have hcons :
          actionsOf (outcomeOf s index r result :: (outcomesFrom s (index + 1) attempts).1) =
            a :: actionsOf (outcomesFrom s (index + 1) attempts).1 := by
        simp [actionsOf, ha]
      dsimp only
      rw [hcons]
      refine ⟨consecutive_cons.2 ⟨hfrom.index, hindices⟩, .cons ⟨result, rfl, ?_⟩ hall⟩
      exact hfrom.index ▸ hfrom

/-- Records that all became actions have all met their result states. -/
theorem outcomesFrom_clean {s : Survey} (index : Nat) {attempts : List Attempt}
    (hfailure : (outcomesFrom s index attempts).2 = none)
    (hresolved : ∀ o ∈ (outcomesFrom s index attempts).1, o.action?.isSome = true) :
    let as := actionsOf (outcomesFrom s index attempts).1
    Consecutive index as ∧ List.Forall₂ (fun attempt a =>
      ∃ result, attempt.result = .ok result ∧ result.id = a.result) attempts as := by
  obtain ⟨hindices, hall⟩ := outcomesFrom_resolved index hfailure hresolved
  refine ⟨hindices, hall.imp ?_⟩
  rintro attempt a ⟨result, hok, hfrom⟩
  exact ⟨result, hok, hfrom.result.symm⟩

end Load
end ScreenGraph
