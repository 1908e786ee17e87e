import ScreenGraph.Proofs.Files.Revised
import ScreenGraph.Proofs.Load.Intake
import ScreenGraph.Proofs.Load.Told

/-!
# ScreenGraph.Proofs.Load.Comparison

Two loads of one directory, of which one reads more of the trace files.

The loads may differ in the contents of files and in the policy on malformed lines. As long as the
same records are read of every trace file, and each state file that these name is the same, the two
go through the same sessions. All that is read besides shows in the reports.

* `attemptAll_revised`: result states are attempted with the same success.
* `processTrace_ahead`: a trace file of which more is read.
* `runSources_alike`, `load_alike`: what holds of two reports on each trace file holds of the loads.
-/

namespace ScreenGraph

open Files Graph Identity Record Screen Watch

/-- The settings with another policy on malformed lines. -/
def Settings.under (s : Settings) (policy : MalformedPolicy) : Settings :=
  { s with malformed := policy }

namespace Load

section

variable (settings : Settings) {files files' : Tree} (policy : MalformedPolicy)

theorem readAll_revised {path : Path} (layout : Layout) (sep : Char)
    (h : files'.find path = files.find path) :
    readAll files' path layout sep = readAll files path layout sep := by
  simp only [readAll, openFile, h]

theorem exists?_revised {path : Path} (h : files'.find path = files.find path) :
    files'.exists? path = files.exists? path := by
  rw [Tree.exists?, h, Tree.exists?]

theorem lookUp_revised (g : Graph) {name : String}
    (h : files'.find (settings.statePath name) = files.find (settings.statePath name)) :
    Survey.lookUp (settings.under policy) files' g name = Survey.lookUp settings files g name := by
  have hpath : (settings.under policy).statePath name = settings.statePath name := rfl
  have hlayout : (settings.under policy).widgetLayout = settings.widgetLayout := rfl
  have hseparator : (settings.under policy).separator = settings.separator := rfl
  simp only [Survey.lookUp, hpath, hlayout, hseparator, exists?_revised h, readAll_revised _ _ h]

theorem resolve_revised (s : Survey) {raw : String}
    (h : files'.find (settings.statePath (Text.trim raw)) =
      files.find (settings.statePath (Text.trim raw))) :
    s.resolve (settings.under policy) files' raw = s.resolve settings files raw := by
  simp only [Survey.resolve, lookUp_revised settings policy s.graph h]

theorem attemptAll_revised (s : Survey) {records : List Record}
    (h : ∀ r ∈ records, files'.find (settings.statePath (resultName r)) =
      files.find (settings.statePath (resultName r))) :
    attemptAll (settings.under policy) files' s records = attemptAll settings files s records := by
  induction records generalizing s with
  | nil => rfl
  | cons r records ih =>
    rw [attemptAll_cons, attemptAll_cons, resolve_revised settings policy s
      (h r List.mem_cons_self)]
    dsimp only
    rw [ih _ fun r hr => h r (List.mem_cons_of_mem _ hr)]

theorem settle_revised (s : Session) (handle : TraceHandle) (report : TraceReport)
    (intake : Intake)
    (h : ∀ r ∈ intake.records, files'.find (settings.statePath (resultName r)) =
      files.find (settings.statePath (resultName r))) :
    settle (settings.under policy) files' s handle report intake =
      settle settings files s handle report intake := by
  simp only [settle, attemptAll_revised settings policy _ h]
  rfl

/-- A trace file of which more is read, but no other records. -/
theorem processTrace_ahead {source : Source} {malformed : List ReadError}
    {stop : Option ReadError}
    (hreading : reading (settings.under policy) files' source =
      (reading settings files source).ahead malformed stop)
    (hstates : ∀ r ∈ (reading settings files source).records,
      files'.find (settings.statePath (resultName r)) =
        files.find (settings.statePath (resultName r)))
    (s : Session) :
    let a := processTrace settings files s source
    let b := processTrace (settings.under policy) files' s source
    b.1 = a.1 ∧ Prefaced (malformed.map (malformedIssue source)) (stop.map .read) a.2 b.2 := by
  simp only [processTrace_reading, hreading]
  cases hb : s.model.beginTrace source.trace with
  | error e =>
    have hduplicate : e = .duplicateTrace source.trace := by
      unfold Model.beginTrace Graph.beginTrace at hb
      split at hb
      · rename_i hgraph
        split at hgraph <;> cases hgraph
        cases hb
        rfl
      · cases hb
    subst hduplicate
    exact ⟨rfl, .taken rfl⟩
  | ok begun =>
    obtain ⟨model, h⟩ := begun
    dsimp only
    rw [settle_revised settings policy _ h _ ((reading settings files source).ahead _ _) hstates]
    exact settle_ahead settings files _ h source _ malformed stop

end

/-! ## Reports of which more is known -/

namespace Prefaced

variable {issues : List Issue} {error : Option LoadError} {r r' : TraceReport}

theorem eq_of_nothing (h : Prefaced [] none r r') : r' = r := by
  cases h with
  | broke h => rfl
  | taken h => rfl
  | read => simp [TraceReport.preface]

theorem isFatal (h : Prefaced issues error r r')
    (herror : ∀ e, error = some e → e.isFatal = false) : r'.isFatal = r.isFatal := by
  cases h with
  | broke h => rfl
  | taken h => rfl
  | read =>
    simp only [TraceReport.isFatal, TraceReport.preface]
    cases r.error with
    | some e => rfl
    | none =>
      cases error with
      | none => rfl
      | some e => exact herror e rfl

/-- More warnings do not fail a run. -/
theorem failsRun (h : Prefaced issues none r r')
    (hissues : ∀ i ∈ issues, i.kind.isFailure = false) : r'.failsRun = r.failsRun := by
  cases h with
  | broke h => rfl
  | taken h => rfl
  | read =>
    have hnone : issues.any (·.kind.isFailure) = false := by simpa using hissues
    simp [TraceReport.failsRun, TraceReport.isFailed, TraceReport.preface, hnone]

end Prefaced

/-! ## Runs and loads -/

section

variable {settings settings' : Settings} {files files' : Tree}
  {R : TraceReport → TraceReport → Prop} {sources : List Source}

theorem reading_records (settings : Settings) (files : Tree) (source : Source) :
    (reading settings files source).records = recordsRead settings files source := by
  rw [reading_eq, recordsRead]
  cases openFile files source.path .trace settings.separator <;> rfl

theorem mem_namesRead {source : Source} {r : Record} (hsource : source ∈ sources)
    (hr : r ∈ (reading settings files source).records) :
    resultName r ∈ namesRead settings files sources := by
  rw [reading_records] at hr
  exact List.mem_flatMap.2 ⟨source, hsource, List.mem_map_of_mem hr⟩

/-- Each trace file leaves the same session behind, and two reports that are as said. -/
def Alike (settings : Settings) (files : Tree) (settings' : Settings) (files' : Tree)
    (R : TraceReport → TraceReport → Prop) (source : Source) : Prop :=
  ∀ s, let a := processTrace settings files s source
    let b := processTrace settings' files' s source
    b.1 = a.1 ∧ b.2.isFatal = a.2.isFatal ∧ R a.2 b.2

theorem runSources_alike (h : ∀ source ∈ sources, Alike settings files settings' files' R source)
    (stopped : Bool) (s : Session) :
    let run := runSources settings files stopped s sources
    let run' := runSources settings' files' stopped s sources
    run'.1 = run.1 ∧ run'.2.2 = run.2.2 ∧ List.Forall₂ R run.2.1 run'.2.1 := by
  induction sources generalizing stopped s with
  | nil => cases stopped <;> exact ⟨rfl, rfl, .nil⟩
  | cons source sources ih =>
    cases stopped with
    | true => exact ⟨rfl, rfl, .nil⟩
    | false =>
      obtain ⟨hsession, hfatal, hreport⟩ := h source List.mem_cons_self s
      obtain ⟨hend, hleft, hreports⟩ := ih (fun source hs => h source (List.mem_cons_of_mem _ hs))
        (processTrace settings files s source).2.isFatal (processTrace settings files s source).1
      rw [runSources_cons, runSources_cons]
      dsimp only
      rw [hsession, hfatal]
      exact ⟨hend, hleft, .cons hreport hreports⟩

/-- What two loads have in common. -/
structure SameLoads (R : TraceReport → TraceReport → Prop) (l l' : Loaded) : Prop where
  model : l'.model = l.model
  cancelled : l'.report.cancelled = l.report.cancelled
  issues : l'.report.issues = l.report.issues
  reports : List.Forall₂ R l.report.traces l'.report.traces

theorem load_apart {watchers : List Watcher} {cancelled : Bool} {n n' : Nat}
    (h : (load settings files watchers cancelled).toOption.any
      (·.model.graph.actionCount = n) = true)
    (h' : (load settings' files' watchers cancelled).toOption.any
      (·.model.graph.actionCount = n') = true) (hne : n ≠ n') :
    ∃ l l', load settings files watchers cancelled = .ok l ∧
      load settings' files' watchers cancelled = .ok l' ∧
        l.model.graph.actionCount = n ∧ l'.model.graph.actionCount = n' ∧ ¬ SameLoads R l l' := by
  obtain ⟨l, hload, hcount⟩ := loads_of_any h
  obtain ⟨l', hload', hcount'⟩ := loads_of_any h'
  have hn : l.model.graph.actionCount = n := by simpa using hcount
  have hn' : l'.model.graph.actionCount = n' := by simpa using hcount'
  refine ⟨l, l', hload, hload', hn, hn', fun hsame => hne ?_⟩
  rw [← hn, ← hn', hsame.model]

theorem load_alike {names : List String} (policy : MalformedPolicy)
    (hlist : files.list settings.baseDir = .ok names)
    (hlist' : files'.list settings.baseDir = .ok names)
    (h : ∀ source ∈ traceFiles settings names,
      Alike settings files (settings.under policy) files' R source)
    (watchers : List Watcher) (cancelled : Bool) :
    ∃ l l', load settings files watchers cancelled = .ok l ∧
      load (settings.under policy) files' watchers cancelled = .ok l' ∧
        SameLoads R l l' ∧ ((∀ r r', R r r' → r'.failsRun = r.failsRun) →
          l'.report.failed = l.report.failed) := by
  obtain ⟨hsession, hleft, hreports⟩ := runSources_alike h cancelled (Session.new watchers)
  have hbase : (settings.under policy).baseDir = settings.baseDir := rfl
  have hdiscover : discover (settings.under policy) names = discover settings names := rfl
  simp only [load, hbase, hlist, hlist', hdiscover, discover_eq]
  generalize runSources settings files cancelled (Session.new watchers) _ = run at *
  generalize runSources (settings.under policy) files' cancelled (Session.new watchers) _ =
    run' at *
  obtain ⟨s, reports, left⟩ := run
  obtain ⟨s', reports', left'⟩ := run'
  dsimp only at hsession hleft hreports ⊢
  subst hsession hleft
  refine ⟨_, _, rfl, rfl, ⟨rfl, rfl, rfl, hreports⟩, fun hfails => ?_⟩
  have hany : reports'.any (·.failsRun) = reports.any (·.failsRun) := by
    induction hreports with
    | nil => rfl
    | cons hreport hreports ih => rw [List.any_cons, List.any_cons, hfails _ _ hreport, ih]
  exact congrArg (· || !left'.isEmpty) hany

end

end Load
end ScreenGraph
