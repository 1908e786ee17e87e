import ScreenGraph.Proofs.Export.Discovery

/-!
# ScreenGraph.Proofs.Load.Accounts

Every trace file of a directory is accounted for.

A run takes its sources in order and stops behind the first report that is fatal. So the sources
that have a report, followed by those that were not begun, are all of them, each once. Nothing is
assumed of the watchers: they may break off at any commit and take the report of a trace with them.

* `processTrace_about`: the report on a trace file is about that file, whatever became of it.
* `runSources_accounts`: where a run stops.
* `load_accounts`: the report of a load.
-/

namespace ScreenGraph

open Export Files Graph Identity Record Watch

namespace Load

/-! ## Trace files -/

/-- Issues with a record or a line of a trace file. The others are issues of the whole run. -/
def IssueKind.isLocal : IssueKind → Bool
  | invalidTraceName | notDispatched => false
  | _ => true

namespace TraceReport

/-- The file that a report is about. -/
def origin (r : TraceReport) : Source :=
  ⟨r.source, r.trace⟩

structure About (source : Source) (r : TraceReport) : Prop where
  origin : r.origin = source
  issue : ∀ i ∈ r.issues, i.kind.isLocal = true

namespace About

variable {source : Source} {r : TraceReport}

theorem new (source : Source) : About source (TraceReport.new source.path source.trace) :=
  ⟨rfl, fun _ h => by cases h⟩

/-- Only where a report comes from and its issues count. -/
theorem of_eq (h : About source r) {r' : TraceReport} (horigin : r'.origin = r.origin)
    (hissues : r'.issues = r.issues) : About source r' :=
  ⟨horigin.trans h.origin, hissues ▸ h.issue⟩

theorem addIssue (h : About source r) {kind : IssueKind} (line : Option Nat) (message : String)
    (hkind : kind.isLocal = true) : About source (r.addIssue kind line message) := by
  refine ⟨h.origin, ?_⟩
  intro i hi
  rcases List.mem_append.1 hi with hi | hi
  · exact h.issue i hi
  · rw [List.mem_singleton.1 hi]
    exact hkind

theorem addNote (h : About source r) (line : Nat) (note : Note) :
    About source (r.addNote line note) := by
  cases note with
  | unknownWidget name => exact h.addIssue _ _ rfl
  | widgetNotInSource id => exact h.addIssue _ _ rfl
  | idsRepaired recorded repaired => exact h.addIssue _ _ rfl

theorem addOutcome (h : About source r) (outcome : Outcome) :
    About source (r.addOutcome outcome) := by
  cases outcome with
  | dropped line error => exact h.addIssue _ _ rfl
  | resolved line resolution =>
    simp only [TraceReport.addOutcome]
    induction resolution.notes generalizing r with
    | nil => exact h
    | cons note notes ih => exact ih (h.addNote line note)

theorem addOutcomes (h : About source r) (outcomes : List Outcome) :
    About source (outcomes.foldl .addOutcome r) := by
  induction outcomes generalizing r with
  | nil => exact h
  | cons outcome outcomes ih => exact ih (h.addOutcome outcome)

theorem addMalformed (h : About source r) (errors : List ReadError) :
    About source (errors.foldl (fun r e => r.addIssue .malformedRecord none e.message) r) := by
  induction errors generalizing r with
  | nil => exact h
  | cons e errors ih => exact ih (h.addIssue none e.message rfl)

theorem commitEach (h : About source r) (handle : TraceHandle) (m : Model)
    (outcomes : List Outcome) : About source (Load.commitEach handle m r outcomes).report := by
  induction outcomes generalizing m r with
  | nil => exact h
  | cons outcome outcomes ih =>
    have hnext := h.addOutcome outcome
    unfold Load.commitEach
    dsimp only
    split
    · exact ih hnext m
    · split
      · exact hnext.of_eq rfl rfl
      · split
        · exact hnext
        · refine ih ?_ _
          exact ⟨hnext.origin, hnext.issue⟩

theorem commitBatch (h : About source r) (handle : TraceHandle) (m : Model)
    (outcomes : List Outcome) : About source (Load.commitBatch handle m r outcomes).report := by
  have hall := h.addOutcomes outcomes
  simp only [Load.commitBatch]
  cases m.appendAll handle (outcomes.filterMap (·.action?)) with
  | error e => exact hall.of_eq rfl rfl
  | ok announced => exact hall.of_eq rfl rfl

end About
end TraceReport

variable (settings : Settings) (files : Tree)

theorem settle_about {source : Source} {report : TraceReport} (h : report.About source)
    (s : Session) (handle : TraceHandle) (intake : Intake) :
    (settle settings files s handle report intake).2.About source := by
  have hmalformed := h.addMalformed intake.malformed
  unfold settle
  dsimp only
  generalize List.foldl _ report intake.malformed = read at *
  generalize hread : ({ read with error := _ } : TraceReport) = noted
  have hnoted : noted.About source := hmalformed.of_eq (hread ▸ rfl) (hread ▸ rfl)
  generalize hsettled : ite (settings.perAction _ = true) _ _ = settled
  have hreport : settled.report.About source := by
    rw [← hsettled]
    split
    · exact hnoted.commitEach _ _ _
    · exact hnoted.commitBatch _ _ _
  split
  · exact ⟨hmalformed.origin, fun _ hi => by cases hi⟩
  · exact hreport

theorem processTrace_about (s : Session) (source : Source) :
    (processTrace settings files s source).2.About source := by
  have hnew := TraceReport.About.new source
  unfold processTrace
  dsimp only
  split
  · exact hnew.of_eq rfl rfl
  · split
    · exact hnew.of_eq rfl rfl
    · exact settle_about settings files hnew _ _ _

/-! ## Runs -/

/-- How a run over some sources ends: what has a report and what is left. -/
structure Accounts (stopped : Bool) (sources : List Source) (reports : List TraceReport)
    (left : List Source) : Prop where
  all : reports.map (·.origin) ++ left = sources
  issue : ∀ r ∈ reports, ∀ i ∈ r.issues, i.kind.isLocal = true
  beforeLast : ∀ r ∈ reports.dropLast, r.isFatal = false
  none : stopped = true → reports = []
  last : stopped = false → left ≠ [] → ∃ r, reports.getLast? = some r ∧ r.isFatal = true

theorem runSources_accounts (stopped : Bool) (s : Session) (sources : List Source) :
    let run := runSources settings files stopped s sources
    Accounts stopped sources run.2.1 run.2.2 := by
  induction sources generalizing stopped s with
  | nil =>
    have hempty : Accounts stopped [] [] [] :=
      ⟨rfl, by simp, by simp, fun _ => rfl, fun _ h => absurd rfl h⟩
    cases stopped <;> exact hempty
  | cons source sources ih =>
    cases stopped with
    | true =>
      have hstopped : Accounts true (source :: sources) [] (source :: sources) :=
        ⟨rfl, by simp, by simp, fun _ => rfl, fun h => by cases h⟩
      exact hstopped
    | false =>
      have habout := processTrace_about settings files s source
      simp only [runSources]
      generalize processTrace settings files s source = first at *
      have hrest := ih first.2.isFatal first.1
      dsimp only at hrest
      generalize runSources settings files first.2.isFatal first.1 sources = rest at *
      obtain ⟨s', reports, left⟩ := rest
      dsimp only at hrest ⊢
      refine ⟨?_, ?_, ?_, fun h => (by cases h), ?_⟩
      · rw [List.map_cons, List.cons_append, habout.origin, hrest.all]
      · intro r hr
        rcases List.mem_cons.1 hr with rfl | hr
        · exact habout.issue
        · exact hrest.issue r hr
      · intro r hr
        cases hfatal : first.2.isFatal with
        | true =>
          -- nothing is begun behind a fatal report, so it is the last one
          rw [hrest.none hfatal] at hr
          cases hr
        | false =>
          cases reports with
          | nil => cases hr
          | cons next reports =>
            rw [List.dropLast_cons_cons] at hr
            rcases List.mem_cons.1 hr with rfl | hr
            · exact hfatal
            · exact hrest.beforeLast r hr
      · intro _ hleft
        cases hfatal : first.2.isFatal with
        | true =>
          rw [hrest.none hfatal]
          exact ⟨first.2, rfl, hfatal⟩
        | false =>
          obtain ⟨r, hr, hrfatal⟩ := hrest.last hfatal hleft
          refine ⟨r, ?_, hrfatal⟩
          rw [List.getLast?_cons, hr]
          rfl

/-! ## Loads -/

/-- The trace files among the names of a directory. -/
def traceFiles (settings : Settings) (names : List String) : List Source :=
  names.filterMap fun name =>
    (settings.traceIdOfName? name).map (⟨settings.baseDir.join name, ·⟩)

/-- The names with the prefix of trace files that carry no id. -/
def strayNames (settings : Settings) (names : List String) : List String :=
  names.filter fun name =>
    (settings.afterPrefix? name).isSome && (settings.traceIdOfName? name).isNone

theorem discover_eq (names : List String) :
    discover settings names = (traceFiles settings names,
      (strayNames settings names).map fun name => (settings.baseDir.join name, name)) := by
  unfold discover traceFiles strayNames
  dsimp only
  rw [List.filterMap_filter, List.filter_filter]
  have hcandidate : ∀ name, (if (settings.afterPrefix? name).isSome = true then
      (settings.traceIdOfName? name).map (Source.mk (settings.baseDir.join name)) else none) =
      (settings.traceIdOfName? name).map (Source.mk (settings.baseDir.join name)) := by
    intro name
    cases hafter : settings.afterPrefix? name with
    | some rest => rfl
    | none => simp [Settings.traceIdOfName?, hafter]
  simp only [hcandidate, Bool.and_comm]

theorem lexLe_append_left {α : Type} (key : α → Nat) (p x y : List α) :
    lexLe key (p ++ x) (p ++ y) = lexLe key x y := by
  induction p with
  | nil => rfl
  | cons a p ih => simp [lexLe, ih]

/-- What is put before a name does not depend on the name. -/
theorem join_text (p : Path) : ∃ front, ∀ name : String, '/' ∉ name.toList →
    (p.join name).text = front ++ name := by
  have hhead : ∀ name : String, '/' ∉ name.toList → name.toList.head? ≠ some '/' := by
    intro name hslash hname
    exact hslash (List.mem_of_mem_head? hname)
  by_cases hend : p.text = "" ∨ p.text.toList.getLast? = some '/'
  · refine ⟨p.text, ?_⟩
    intro name hslash
    rw [Path.join, if_neg (hhead name hslash), if_pos hend]
  · refine ⟨p.text ++ "/", ?_⟩
    intro name hslash
    rw [Path.join, if_neg (hhead name hslash), if_neg hend]

/-- Paths in one directory have the order of the names. -/
theorem traceFiles_ordered {names : List String} (hnames : names.Pairwise (nameLe · · = true))
    (hslash : ∀ name ∈ names, '/' ∉ name.toList) :
    (traceFiles settings names).Pairwise fun a b => nameLe a.path.text b.path.text = true := by
  obtain ⟨front, hfront⟩ := join_text settings.baseDir
  unfold traceFiles
  rw [List.pairwise_filterMap]
  refine hnames.imp_of_mem ?_
  intro a b ha hb hle source hsource source' hsource'
  obtain ⟨i, -, rfl⟩ := Option.map_eq_some_iff.1 hsource
  obtain ⟨j, -, rfl⟩ := Option.map_eq_some_iff.1 hsource'
  dsimp only [nameLe]
  rw [hfront a (hslash a ha), hfront b (hslash b hb), String.toList_append, String.toList_append,
    lexLe_append_left]
  exact hle

/-- What the report of a load says about the trace files and stray names of a directory. -/
structure Accounted (settings : Settings) (names : List String) (cancelled : Bool)
    (r : LoadReport) : Prop where
  /-- The trace files are taken in the order of their paths. No name in a directory has a slash. -/
  ordered : (∀ name ∈ names, '/' ∉ name.toList) →
    (traceFiles settings names).Pairwise fun a b => nameLe a.path.text b.path.text = true
  /-- Each has a report, or an issue that says that it was not begun. -/
  all : r.traces.map (fun t => (t.source, some t.trace)) ++
      (r.issuesOf .notDispatched).map (fun i => (i.source, i.trace)) =
    (traceFiles settings names).map fun source => (source.path, some source.trace)
  cancelledBefore : cancelled = true →
    (r.issuesOf .notDispatched).map (fun i => (i.source, i.trace)) =
      (traceFiles settings names).map fun source => (source.path, some source.trace)
  /-- Without a cancellation beforehand, only a fatal report keeps files from being begun. -/
  stopped : cancelled = false → r.issuesOf .notDispatched ≠ [] →
    ∃ t, r.traces.getLast? = some t ∧ t.isFatal = true
  beforeLast : ∀ t ∈ r.traces.dropLast, t.isFatal = false
  cancelled : r.cancelled = true ↔ r.issuesOf .notDispatched ≠ []
  stray : r.issuesOf .invalidTraceName =
    (strayNames settings names).map fun name => invalidName (settings.baseDir.join name) name
  failed : r.failed = true ↔
    (∃ t ∈ r.traces, t.error ≠ none ∨ ∃ i ∈ t.issues, i.kind = .unresolvedState) ∨
      r.cancelled = true

/-- The issues of a kind that no trace file has. -/
theorem issuesOf_eq {r : LoadReport}
    (hlocal : ∀ t ∈ r.traces, ∀ i ∈ t.issues, i.kind.isLocal = true)
    {kind : IssueKind} (hkind : kind.isLocal = false) :
    r.issuesOf kind = r.issues.filter (·.kind = kind) := by
  have hnone : (r.traces.flatMap (·.issues)).filter (·.kind = kind) = [] := by
    rw [List.filter_eq_nil_iff]
    intro i hi he
    obtain ⟨t, ht, hit⟩ := List.mem_flatMap.1 hi
    have hissue := hlocal t ht i hit
    rw [of_decide_eq_true he, hkind] at hissue
    cases hissue
  rw [LoadReport.issuesOf, LoadReport.allIssues, List.filter_append, hnone, List.append_nil]

/-- A report of a trace fails the run if there is an error or a dropped record in it. -/
theorem failsRun_iff {t : TraceReport} (hlocal : ∀ i ∈ t.issues, i.kind.isLocal = true) :
    t.failsRun = true ↔ t.error ≠ none ∨ ∃ i ∈ t.issues, i.kind = .unresolvedState := by
  have hkind : ∀ i ∈ t.issues, i.kind.isFailure = true ↔ i.kind = .unresolvedState := by
    intro i hi
    have := hlocal i hi
    cases hk : i.kind <;> simp_all [IssueKind.isFailure, IssueKind.isLocal]
  simp only [TraceReport.failsRun, TraceReport.isFailed, Bool.or_eq_true, List.any_eq_true,
    Option.isSome_iff_ne_none]
  refine or_congr Iff.rfl ⟨?_, ?_⟩
  · rintro ⟨i, hi, hfail⟩
    exact ⟨i, hi, (hkind i hi).1 hfail⟩
  · rintro ⟨i, hi, hdropped⟩
    exact ⟨i, hi, (hkind i hi).2 hdropped⟩

/-- Whatever the watchers do, a load of a directory that can be listed accounts for every trace file
and every stray name in it. -/
theorem load_accounts (watchers : List Watcher) (cancelled : Bool) {names : List String}
    (hlist : files.list settings.baseDir = .ok names) :
    ∃ l, load settings files watchers cancelled = .ok l ∧
      Accounted settings names cancelled l.report := by
  have hrun := runSources_accounts settings files cancelled (Session.new watchers)
    (traceFiles settings names)
  simp only [load, hlist, discover_eq]
  generalize runSources settings files cancelled (Session.new watchers) _ = run at *
  obtain ⟨s, reports, left⟩ := run
  dsimp only at hrun ⊢
  refine ⟨_, rfl, ?_⟩
  generalize hreport : LoadReport.mk _ _ reports _ = r
  have htraces : r.traces = reports := hreport ▸ rfl
  have hcancelled : r.cancelled = !left.isEmpty := hreport ▸ rfl
  have hlocal : ∀ t ∈ r.traces, ∀ i ∈ t.issues, i.kind.isLocal = true := htraces ▸ hrun.issue
  have hleft : r.issuesOf .notDispatched = left.map notDispatched := by
    rw [issuesOf_eq hlocal rfl, ← hreport]
    simp [List.filter_map, Function.comp_def, invalidName, notDispatched]
  have hstray : r.issuesOf .invalidTraceName = (strayNames settings names).map fun name =>
      invalidName (settings.baseDir.join name) name := by
    rw [issuesOf_eq hlocal rfl, ← hreport]
    simp [List.filter_map, Function.comp_def, invalidName, notDispatched]
  have hskipped : r.issuesOf .notDispatched ≠ [] ↔ left ≠ [] := by
    rw [hleft, Ne, List.map_eq_nil_iff]
  have hall : r.traces.map (fun t => (t.source, some t.trace)) ++
      (r.issuesOf .notDispatched).map (fun i => (i.source, i.trace)) =
        (traceFiles settings names).map fun source => (source.path, some source.trace) := by
    rw [hleft, htraces, ← hrun.all]
    simp [Function.comp_def, notDispatched, TraceReport.origin]
  refine ⟨traceFiles_ordered settings (Tree.list_ordered hlist), hall, ?_, ?_, ?_, ?_, hstray, ?_⟩
  · intro hbefore
    rw [htraces, hrun.none hbefore] at hall
    exact hall
  · rw [htraces, hskipped]
    exact hrun.last
  · rw [htraces]
    exact hrun.beforeLast
  · rw [hskipped, hcancelled]
    simp
  · rw [hcancelled, htraces, ← hreport]
    simp only [Bool.or_eq_true, List.any_eq_true]
    refine or_congr (exists_congr fun t => and_congr_right fun ht => ?_) Iff.rfl
    exact failsRun_iff (hrun.issue t ht)

def brokenSettings : Settings :=
  (Settings.ofBase ⟨"m"⟩).sequential

/-- Two traces, and a name with the prefix that is no name of a trace. -/
def brokenFiles : Tree where
  cwd := ["work"]
  nodes := [
    (["work"], .directory),
    (["work", "m"], .directory),
    (["work", "m", "trace00000000-0000-0000-0000-000000000001.csv"], .file (Text.utf8
      "LaunchApp;da39a3ee-5e6b-4b0d-3255-bfef95601890;da39a3ee-5e6b-4b0d-3255-bfef95601890;;\n")),
    (["work", "m", "trace00000000-0000-0000-0000-000000000002.csv"], .file []),
    (["work", "m", "tracenotes.csv"], .file [])]

def brokenNames : List String :=
  ["trace00000000-0000-0000-0000-000000000001.csv",
    "trace00000000-0000-0000-0000-000000000002.csv", "tracenotes.csv"]

/-- The journal breaks off at the first commit. Its trace is still accounted for. -/
theorem load_accounts_broken : brokenFiles.list brokenSettings.baseDir = .ok brokenNames ∧
    ∃ l, load brokenSettings brokenFiles [.journal (.empty (some 1))] false = .ok l ∧
      Accounted brokenSettings brokenNames false l.report :=
  ⟨by decide +kernel, load_accounts _ _ _ _ (by decide +kernel)⟩

end Load
end ScreenGraph
