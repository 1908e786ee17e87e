import ScreenGraph.Proofs.Load.Acceptance
import ScreenGraph.Proofs.Load.Intake

/-!
# ScreenGraph.Proofs.Load.Selection

Which records of a trace file become actions.

All result states are attempted before the first record is resolved. Only the records before the
first failed attempt count. Of these, a record becomes an action if its source state is known by
then, be it from a record further down, and is dropped with an issue otherwise.

* `outcomesFrom_error`: the error of the first failed attempt.
* `outcomesFrom_stands`, `outcomesFrom_unresolved`: the records that become actions, and the others.
* `processTrace_selected`: the trace and the report of a file.
* `load_selected`: the same in a whole load.
-/

namespace ScreenGraph

open Files Graph Identity Record Screen Watch

namespace Load

/-! ## Records and actions -/

/-- Why the result state of a record is not known. -/
def Attempt.error? (a : Attempt) : Option LoadError :=
  match a.result with
  | .error e => some e
  | .ok _ => none

/-- The attempts before the first that failed, with the positions of their records. -/
def metFrom (index : Nat) (attempts : List Attempt) : List (Attempt × Nat) :=
  (attempts.takeWhile (·.error?.isNone)).zipIdx index

/-- Whether the source state of a record is known. -/
def Survey.hasSource (s : Survey) (r : Record) : Bool :=
  (s.settled? (r.field TraceColumn.source)).isSome

/-- An action is what the record at a position is resolved to. -/
structure Stands (s : Survey) (p : Attempt × Nat) (a : Action) : Prop where
  index : a.index = p.2
  resolved : ∃ result notes, p.1.result = .ok result ∧
    resolve s p.2 p.1.record result = .ok ⟨a, result, notes⟩

/-- The issue on a record that is dropped for its source state. -/
def unresolvedIssue (source : Source) (r : Record) : Issue :=
  ⟨.unresolvedState, source.path, some source.trace, some r.line,
    (LoadError.unresolvedState (Text.trim (r.field TraceColumn.source)) r.line).message⟩

theorem metFrom_ok (index : Nat) (r : Record) (result : State) (attempts : List Attempt) :
    metFrom index (⟨r, .ok result⟩ :: attempts) =
      (⟨r, .ok result⟩, index) :: metFrom (index + 1) attempts := rfl

section

variable {s : Survey} {r : Record}

theorem outcomeOf_known (index : Nat) (result : State) (h : s.hasSource r = true) :
    ∃ a notes, outcomeOf s index r result = .resolved r.line ⟨a, result, notes⟩ ∧
      resolve s index r result = .ok ⟨a, result, notes⟩ ∧ a.index = index := by
  obtain ⟨source, hsource⟩ := Option.isSome_iff_exists.1 h
  rw [← Survey.settled?_trim] at hsource
  simp only [outcomeOf, resolve, hsource]
  exact ⟨_, _, rfl, rfl, rfl⟩

theorem outcomeOf_unknown (index : Nat) (result : State) (h : s.hasSource r = false) :
    outcomeOf s index r result =
      .dropped r.line (.unresolvedState (Text.trim (r.field TraceColumn.source)) r.line) := by
  have hsource : s.settled? (Text.trim (r.field TraceColumn.source)) = none := by
    rw [Survey.settled?_trim]
    simpa [Survey.hasSource] using h
  simp only [outcomeOf, resolve, hsource]

theorem outcomesFrom_error (s : Survey) (index : Nat) (attempts : List Attempt) :
    (outcomesFrom s index attempts).2 = attempts.findSome? (·.error?) := by
  induction attempts generalizing index with
  | nil => rfl
  | cons attempt attempts ih =>
    obtain ⟨r, result⟩ := attempt
    cases result with
    | error e => rfl
    | ok result => exact ih (index + 1)

theorem outcomesFrom_stands (s : Survey) (index : Nat) (attempts : List Attempt) :
    List.Forall₂ (Stands s) ((metFrom index attempts).filter (s.hasSource ·.1.record))
      (actionsOf (outcomesFrom s index attempts).1) := by
  induction attempts generalizing index with
  | nil => exact .nil
  | cons attempt attempts ih =>
    obtain ⟨r, result⟩ := attempt
    cases result with
    | error e => exact .nil
    | ok result =>
      rw [outcomesFrom_ok, metFrom_ok]
      cases hknown : s.hasSource r with
      | true =>
        obtain ⟨a, notes, houtcome, hresolve, hindex⟩ := outcomeOf_known index result hknown
        have hcons : actionsOf (outcomeOf s index r result ::
            (outcomesFrom s (index + 1) attempts).1) =
              a :: actionsOf (outcomesFrom s (index + 1) attempts).1 := by
          simp [actionsOf, houtcome, Outcome.action?]
        rw [hcons, List.filter_cons_of_pos (by simp [hknown])]
        exact .cons ⟨hindex, result, notes, rfl, hresolve⟩ (ih (index + 1))
      | false =>
        have hsame : actionsOf (outcomeOf s index r result ::
            (outcomesFrom s (index + 1) attempts).1) =
              actionsOf (outcomesFrom s (index + 1) attempts).1 := by
          simp [actionsOf, outcomeOf_unknown index result hknown, Outcome.action?]
        rw [hsame, List.filter_cons_of_neg (by simp [hknown])]
        exact ih (index + 1)

end

/-! ## Issues on source states -/

/-- The issues on records that were dropped. -/
def TraceReport.unresolvedIssues (r : TraceReport) : List Issue :=
  r.issues.filter (·.kind = .unresolvedState)

/-- A record that is resolved has notes only. -/
theorem Note.issues_unresolved (source : Source) (line : Nat) (notes : List Note) :
    (notes.flatMap (·.issues source line)).filter (·.kind = .unresolvedState) = [] := by
  refine List.filter_eq_nil_iff.2 fun issue hissue => ?_
  obtain ⟨note, -, hnote⟩ := List.mem_flatMap.1 hissue
  cases note <;> cases List.mem_singleton.1 hnote <;> simp

theorem outcomesFrom_unresolved (s : Survey) (source : Source) (index : Nat)
    (attempts : List Attempt) :
    ((outcomesFrom s index attempts).1.flatMap (·.issues source)).filter
        (·.kind = .unresolvedState) =
      ((metFrom index attempts).filter (!s.hasSource ·.1.record)).map
        (unresolvedIssue source ·.1.record) := by
  induction attempts generalizing index with
  | nil => rfl
  | cons attempt attempts ih =>
    obtain ⟨r, result⟩ := attempt
    cases result with
    | error e => rfl
    | ok result =>
      rw [outcomesFrom_ok, metFrom_ok, List.flatMap_cons, List.filter_append, ih]
      cases hknown : s.hasSource r with
      | true =>
        obtain ⟨a, notes, houtcome, -⟩ := outcomeOf_known index result hknown
        rw [houtcome, Outcome.issues, Note.issues_unresolved, List.nil_append,
          List.filter_cons_of_neg (by simp [hknown])]
      | false =>
        rw [outcomeOf_unknown index result hknown, List.filter_cons_of_pos (by simp [hknown])]
        rfl

/-! ## Trace files -/

/-- The result states of all records of a trace file, attempted one after another when the trace
has been begun. -/
def attemptsOf (settings : Settings) (files : Tree) (s : Session) (source : Source) :
    Survey × List Attempt :=
  attemptAll settings files (s.begin source.trace).survey (reading settings files source).records

/-- What a trace file makes of the records that were read of it, when their result states were
attempted: the trace that it leaves, and its report. -/
structure Selected (intake : Intake) (known : Survey) (attempts : List Attempt) (source : Source)
    (t : Trace) (report : TraceReport) : Prop where
  /-- Every record that was read is attempted, in its place. -/
  attempted : attempts.map (·.record) = intake.records
  /-- The records before the first failed attempt whose source states are known. -/
  actions : List.Forall₂ (Stands known)
    ((metFrom 0 attempts).filter (known.hasSource ·.1.record)) t.actions
  committed : report.committed = t.actions.length
  unresolved : report.unresolvedIssues =
    ((metFrom 0 attempts).filter (!known.hasSource ·.1.record)).map
      (unresolvedIssue source ·.1.record)
  error : report.error = (attempts.findSome? (·.error?)).or (intake.stop.map .read)

theorem Considered.report_noted (c : Considered) (source : Source) (intake : Intake) :
    c.report (TraceReport.new source.path source.trace) intake =
      (c.outcomes.foldl TraceReport.addOutcome (TraceReport.noted source intake c.failure)).count
        c.actions.length := by
  simp only [Considered.report,
    TraceReport.foldl_malformed (TraceReport.new source.path source.trace) source rfl]
  rfl

variable {settings : Settings} {files : Tree} {s s' : Session} {source : Source}

theorem processTrace_selected (hs : s.Quiet) (hnew : source.trace ∉ s.begunIds) :
    let after := processTrace settings files s source
    let attempted := attemptsOf settings files s source
    ∃ t ∈ after.1.model.graph.traces, t.id = source.trace ∧
      Selected (reading settings files source) attempted.1 attempted.2 source t after.2 := by
  have hids : ∀ t ∈ s.model.graph.traces, t.id ≠ source.trace := by
    intro t ht hid
    exact hnew (List.mem_map.2 ⟨t, ht, hid⟩)
  have htraces := begin_commit_traces settings files (reading settings files source).records
    (hs.begin hids)
  rw [processTrace_begun settings files hs hids]
  dsimp only at htraces ⊢
  rw [htraces]
  refine ⟨_, List.mem_append_right _ List.mem_cons_self, rfl, ?_⟩
  rw [Considered.report_noted, TraceReport.foldl_addOutcome]
  refine ⟨attemptAll_records settings files _ _, outcomesFrom_stands _ 0 _, ?_, ?_, ?_⟩
  · exact Nat.zero_add _
  · have hmalformed : ((reading settings files source).malformed.map
        (malformedIssue source)).filter (·.kind = .unresolvedState) = [] := by
      simp [malformedIssue]
    refine (List.filter_append _ _).trans ?_
    rw [TraceReport.noted, hmalformed]
    exact outcomesFrom_unresolved _ source 0 _
  · exact congrArg (Option.or · _) (outcomesFrom_error _ 0 _)

/-! ## Runs and loads -/

theorem Dispatched.unwatched {sources : List Source}
    (h : Dispatched settings files s sources s' source) (hs : s.Calm) :
    Dispatched settings files s.unwatched sources s'.unwatched source := by
  induction h with
  | head s source sources => exact .head _ source sources
  | @tail s s' first source sources hfirst hrest ih =>
    have hsame := processTrace_unwatched settings files first hs
    have hnext := ih (hs.processTrace settings files first)
    rw [hsame.session] at hnext
    exact .tail (hsame.report ▸ hfirst) hnext

/-- The traces that a run has when it leaves a source are still there at its end. -/
theorem Dispatched.traces {sources : List Source}
    (h : Dispatched settings files s sources s' source) (hs : s.Quiet) :
    (processTrace settings files s' source).1.model.graph.traces <+:
      (runSources settings files false s sources).1.model.graph.traces := by
  induction h with
  | head s source sources =>
    exact runSources_traces settings files sources (hs.processTrace settings files source)
  | @tail s s' first source sources hfirst hrest ih =>
    rw [runSources_cons]
    dsimp only
    rw [hfirst]
    exact ih (hs.processTrace settings files first)

theorem Dispatched.quiet {sources : List Source}
    (h : Dispatched settings files s sources s' source) (hs : s.Quiet) : s'.Quiet := by
  induction h with
  | head s source sources => exact hs
  | tail hfirst hrest ih => exact ih (hs.processTrace settings files _)

/-- With watchers that never break off, a trace file that a load comes to, and whose trace is not
there by then, has its trace and its report in what the load gives, and both are as its records
have it. -/
theorem load_selected {watchers : List Watcher} {names : List String}
    (hlasting : ∀ w ∈ watchers, w.lasts = true)
    (hlist : files.list settings.baseDir = .ok names)
    (hdispatched : Dispatched settings files (Session.new watchers) (traceFiles settings names) s
      source)
    (hnew : source.trace ∉ s.begunIds) :
    let attempted := attemptsOf settings files s source
    ∃ l, load settings files watchers false = .ok l ∧ ∃ t, ∃ report ∈ l.report.traces,
      l.model.graph.trace? source.trace = some t ∧ report.origin = source ∧
        Selected (reading settings files source) attempted.1 attempted.2 source t report := by
  obtain ⟨l, hload, -⟩ := load_accounts settings files watchers false hlist
  obtain ⟨l', hload', hreport, hgraph⟩ := load_unwatched settings files hlasting hload
  refine ⟨l, hload, ?_⟩
  have hnone : ∀ w ∈ ([] : List Watcher), w.isSteady = true := fun w hw => by cases hw
  rw [load_eq false hlist hnone, discover_eq] at hload'
  cases hload'
  rw [← hreport, ← hgraph]
  have hquiet := Session.Quiet.new hnone
  have hreached : Dispatched settings files (Session.new []) (traceFiles settings names)
    s.unwatched source := hdispatched.unwatched (.new hlasting)
  obtain ⟨t, ht, hid, hselected⟩ := processTrace_selected (hreached.quiet hquiet) hnew
  have hmem := (hreached.traces hquiet).subset ht
  have hend : (runSources settings files false (Session.new [])
      (traceFiles settings names)).1.Quiet := hquiet.runSources settings files _
  refine ⟨t, _, mem_reports_iff.2 ⟨_, source, hreached, rfl⟩, ?_,
    (processTrace_about settings files _ source).origin, hselected⟩
  rw [← hid]
  exact Model.trace?_of_mem hend.sound.canonical.toSound hmem

def forwardSettings : Settings :=
  (Settings.ofBase ⟨"m"⟩).sequential

/-- The first record starts in a state that only the second one leads to. The third starts nowhere,
and the fourth leads to a state without a file. -/
def forwardFiles : Tree where
  cwd := ["work"]
  nodes := [
    (["work"], .directory),
    (["work", "m"], .directory),
    (["work", "m", "states"], .directory),
    (["work", "m", "states", "s1.csv"],
      .file (Text.utf8 "b;Button;ok;app;/b;OK;true;;;;;1:1:2:2\n")),
    (["work", "m", "states", "s2.csv"],
      .file (Text.utf8 "c;Button;no;app;/c;NO;true;;;;;1:1:2:2\n")),
    (["work", "m", "trace00000000-0000-0000-0000-000000000001.csv"], .file (Text.utf8 <|
      "Click;s2;s1;c;\n" ++
      "Click;s1;s2;b;\n" ++
      "Click;nowhere;s1;b;\n" ++
      "Click;s1;gone;b;\n" ++
      "Click;s1;s1;b;\n"))]

def forwardNames : List String :=
  ["states", "trace00000000-0000-0000-0000-000000000001.csv"]

def forwardSource : Source :=
  ⟨⟨"m/trace00000000-0000-0000-0000-000000000001.csv"⟩,
    ⟨⟨List.replicate 15 0 ++ [1], Uuid.length_bytes_one⟩⟩⟩

theorem load_selected_forward :
    let s := Session.new [.tally .empty]
    let attempted := attemptsOf forwardSettings forwardFiles s forwardSource
    Dispatched forwardSettings forwardFiles s (traceFiles forwardSettings forwardNames) s
        forwardSource ∧
      ∃ l, load forwardSettings forwardFiles [.tally .empty] false = .ok l ∧
        ∃ t, ∃ report ∈ l.report.traces, l.model.graph.trace? forwardSource.trace = some t ∧
          report.origin = forwardSource ∧
            Selected (reading forwardSettings forwardFiles forwardSource) attempted.1 attempted.2
              forwardSource t report := by
  intro s attempted
  have hlist : forwardFiles.list forwardSettings.baseDir = .ok forwardNames := by decide +kernel
  have hfiles : traceFiles forwardSettings forwardNames = [forwardSource] := by decide +kernel
  have hdispatched : Dispatched forwardSettings forwardFiles s
      (traceFiles forwardSettings forwardNames) s forwardSource := by
    rw [hfiles]
    exact .head s forwardSource []
  exact ⟨hdispatched, load_selected (by decide) hlist hdispatched (by decide)⟩

/-- Of five records the first two are committed, and the issue is on the third. -/
example : (load forwardSettings forwardFiles [] false).toOption.map (fun l =>
    ((l.model.graph.traces.flatMap (·.actions)).map (·.index),
      (l.report.traces.flatMap (·.issues)).map fun i => (i.kind.isFailure, i.line))) =
        some ([0, 1], [(false, some 1), (false, some 2), (true, some 3)]) := by
  decide +kernel

end Load
end ScreenGraph
