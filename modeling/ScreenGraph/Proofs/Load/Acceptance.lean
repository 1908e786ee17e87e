import ScreenGraph.Proofs.Load.Accounts
import ScreenGraph.Proofs.Load.Unwatched

/-!
# ScreenGraph.Proofs.Load.Acceptance

No commit of a load is refused.

Whatever the files hold, the actions that the records of a trace file are resolved to follow one
another, their states are registered and their targets lie in the source states. So a graph error
can only come from a trace that is begun again, and that is the only fatal error if no watcher
breaks off.

* `accepted`: each commit of a trace goes through, one by one and as a batch.
* `Session.Calm.answer`: when the report on a trace file is fatal.
* `load_commits_accepted`: all that a load comes to commit.
-/

namespace ScreenGraph

open Files Graph Identity Record Screen Watch

namespace Load

/-! ## The commits of a trace -/

/-- No commit of the outcomes is refused: neither an action that is committed when its record is
reached, after those before it, nor all of them in a batch. -/
structure Accepted (h : TraceHandle) (m : Model) (outcomes : List Outcome) : Prop where
  each : ∀ (report : TraceReport) (before : List Outcome) (outcome : Outcome)
    (after : List Outcome) (a : Action), outcomes = before ++ outcome :: after →
      outcome.action? = some a →
        ∃ announced, (commitEach h m report before).model.append h a = .ok announced
  batch : ∃ announced, m.appendAll h (actionsOf outcomes) = .ok announced

theorem append_accepted {m : Model} {h : TraceHandle} {t : Trace} {a : Action} (hm : m.Lasting)
    (ht : m.graph.traceOf? h = some t) (hfollows : Follows t.lastIndex? [a])
    (hadmits : m.graph.Admits a) : ∃ m' : Model, m.append h a = .ok ⟨m', 1, false⟩ ∧ m'.Lasting ∧
      m'.graph = m.graph.extendTrace h.slot [a] := by
  have hunwatched :=
    Model.append_eq (m := m.unwatched) ht hfollows hadmits m.unwatched_steady
  generalize hanswer : m.append h a = answer
  have hsame := m.append_unwatched (h := h) hm a
  rw [hanswer, hunwatched] at hsame
  generalize hcommitted : m.unwatched.committed h [a] = committed at hsame
  cases hsame with
  | @accepted m' n hm' =>
    refine ⟨m', rfl, hm', ?_⟩
    exact (congrArg Model.graph hcommitted).symm

theorem appendAll_accepted {m : Model} {h : TraceHandle} {t : Trace} {as : List Action}
    (hm : m.Lasting) (ht : m.graph.traceOf? h = some t) (hfollows : Follows t.lastIndex? as)
    (hadmits : ∀ a ∈ as, m.graph.Admits a) : ∃ announced, m.appendAll h as = .ok announced := by
  have hunwatched :=
    Model.appendAll_eq (m := m.unwatched) ht hfollows hadmits m.unwatched_steady
  have hsame := m.appendAll_unwatched (h := h) hm as
  rw [hunwatched] at hsame
  generalize m.appendAll h as = answer at hsame ⊢
  generalize m.unwatched.committed h as = committed at hsame
  cases hsame with
  | accepted n hm' => exact ⟨_, rfl⟩

/-- The graph after the commits of `before` still takes what comes behind. -/
theorem each_accepted {m : Model} {h : TraceHandle} {t : Trace} (hm : m.Lasting)
    (ht : m.graph.traceOf? h = some t) (report : TraceReport) {before : List Outcome}
    {outcome : Outcome} {after : List Outcome} {a : Action} (haction : outcome.action? = some a)
    (hfollows : Follows t.lastIndex? (actionsOf (before ++ outcome :: after)))
    (hadmits : ∀ b ∈ actionsOf (before ++ outcome :: after), m.graph.Admits b) :
    ∃ announced, (commitEach h m report before).model.append h a = .ok announced := by
  induction before generalizing m t report with
  | nil =>
    have hcons : actionsOf ([] ++ outcome :: after) = a :: actionsOf after := by
      simp [actionsOf, haction]
    rw [hcons] at hfollows hadmits
    obtain ⟨hfirst, -⟩ := follows_cons.1 hfollows
    obtain ⟨m', happend, -, -⟩ := append_accepted hm ht
      (follows_cons.2 ⟨hfirst, follows_nil _⟩) (hadmits a List.mem_cons_self)
    exact ⟨_, happend⟩
  | cons first before ih =>
    simp only [commitEach]
    cases hb : first.action? with
    | none =>
      have hsame : actionsOf (first :: before ++ outcome :: after) =
          actionsOf (before ++ outcome :: after) := by
        simp [actionsOf, hb]
      rw [hsame] at hfollows hadmits
      exact ih hm ht _ hfollows hadmits
    | some b =>
      have hcons : actionsOf (first :: before ++ outcome :: after) =
          b :: actionsOf (before ++ outcome :: after) := by
        simp [actionsOf, hb]
      rw [hcons] at hfollows hadmits
      obtain ⟨hfirst, hrest⟩ := follows_cons.1 hfollows
      obtain ⟨m', happend, hm', hgraph⟩ := append_accepted hm ht
        (follows_cons.2 ⟨hfirst, follows_nil _⟩) (hadmits b List.mem_cons_self)
      have hlast : (t.extend [b]).lastIndex? = some b.index := by
        simp [Trace.extend, Trace.lastIndex?, Trace.last?]
      simp only [happend]
      refine ih hm' (hgraph ▸ traceOf?_extendTrace [b] ht) _ (hlast ▸ hrest) ?_
      intro c hc
      rw [hgraph]
      exact (hadmits c (List.mem_cons_of_mem _ hc)).mono (kept_extendTrace m.graph h.slot [b])

theorem accepted {m : Model} {h : TraceHandle} {t : Trace} {outcomes : List Outcome}
    (hm : m.Lasting) (ht : m.graph.traceOf? h = some t)
    (hfollows : Follows t.lastIndex? (actionsOf outcomes))
    (hadmits : ∀ a ∈ actionsOf outcomes, m.graph.Admits a) : Accepted h m outcomes where
  each := by
    rintro report before outcome after a rfl haction
    exact each_accepted hm ht report haction hfollows hadmits
  batch := appendAll_accepted hm ht hfollows hadmits

/-! ## What is committed -/

/-- The actions that outcomes hold can be committed to the graph. -/
structure Sane (g : Graph) (outcomes : List Outcome) : Prop where
  registered : ∀ a ∈ actionsOf outcomes, g.Admits a
  ordered : (actionsOf outcomes).Pairwise fun a b => a.index < b.index
  global : ∀ a ∈ actionsOf outcomes, a.kind.isGlobal = true → a.target = none

theorem outcomesFrom_global {s : Survey} {index : Nat} {attempts : List Attempt} {a : Action}
    (ha : a ∈ actionsOf (outcomesFrom s index attempts).1) (hglobal : a.kind.isGlobal = true) :
    a.target = none := by
  induction attempts generalizing index with
  | nil => cases ha
  | cons attempt attempts ih =>
    obtain ⟨r, result⟩ := attempt
    cases result with
    | error e => cases ha
    | ok result =>
      obtain ⟨outcome, houtcome, haction⟩ := List.mem_filterMap.1 ha
      rw [outcomesFrom_ok] at houtcome
      rcases List.mem_cons.1 houtcome with rfl | houtcome
      · unfold outcomeOf at haction
        cases hr : resolve s index r result with
        | error e => rw [hr] at haction; cases haction
        | ok resolution =>
          rw [hr] at haction
          cases haction
          exact resolve_global hr hglobal
      · exact ih (List.mem_filterMap.2 ⟨outcome, houtcome, haction⟩)

variable {settings : Settings} {files : Tree}

variable (settings files) in
theorem consider_sane (records : List Record) {s : Survey} (hs : s.Sound) :
    Sane (consider settings files s records).survey.graph
      (consider settings files s records).outcomes := by
  obtain ⟨-, -, -, hadmits, -, hordered⟩ := consider_spec settings files records hs
  exact ⟨hadmits, hordered, fun a ha => outcomesFrom_global ha⟩

/-- What a trace file in a session gives to commit: the outcomes of its records, with the model and
the handle that they are committed with. -/
structure Proposed (settings : Settings) (files : Tree) (s : Session) (source : Source)
    (h : TraceHandle) (m : Model) (outcomes : List Outcome) : Prop where
  begun : s.model.beginTrace source.trace = .ok ((s.begin source.trace).model, h)
  considered : ∃ items, openFile files source.path .trace settings.separator = .ok items ∧
    let c := consider settings files (s.begin source.trace).survey
      (Intake.ofItems settings.malformed items).records
    m = ((s.begin source.trace).withSurvey c.survey).model ∧ outcomes = c.outcomes

variable {s : Session} {source : Source} {h : TraceHandle} {m : Model} {outcomes : List Outcome}

theorem beginTrace_model {begun : Model} (hb : s.model.beginTrace source.trace = .ok (begun, h)) :
    (∀ t ∈ s.model.graph.traces, t.id ≠ source.trace) ∧ begun = (s.begin source.trace).model ∧
      h = ⟨s.model.graph.traces.length, source.trace⟩ := by
  unfold Model.beginTrace at hb
  split at hb
  · cases hb
  · rename_i hgraph
    cases hb
    obtain ⟨hnew, rfl, rfl⟩ := beginTrace_ok hgraph
    exact ⟨hnew, rfl, rfl⟩

theorem settle_commits (s : Session) (h : TraceHandle) (report : TraceReport) (intake : Intake) :
    let c := consider settings files s.survey intake.records
    let m' := (settle settings files s h report intake).1.model
    ∃ report', m' = (commitEach h (s.withSurvey c.survey).model report' c.outcomes).model ∨
      m' = (commitBatch h (s.withSurvey c.survey).model report' c.outcomes).model := by
  simp only [settle, consider]
  split
  · exact ⟨_, .inl rfl⟩
  · exact ⟨_, .inr rfl⟩

/-- A trace file commits what it proposes, and nothing but that. -/
theorem processTrace_commits (s : Session) (source : Source) :
    let m' := (processTrace settings files s source).1.model
    m' = s.model ∨ m' = (s.begin source.trace).model ∨
      ∃ h m outcomes, Proposed settings files s source h m outcomes ∧
        ∃ report, m' = (commitEach h m report outcomes).model ∨
          m' = (commitBatch h m report outcomes).model := by
  unfold processTrace
  dsimp only
  split
  · exact .inl rfl
  · rename_i begun h hbegin
    obtain ⟨-, rfl, -⟩ := beginTrace_model hbegin
    split
    · exact .inr (.inl rfl)
    · rename_i items hopen
      exact .inr (.inr ⟨h, _, _, ⟨hbegin, items, hopen, rfl, rfl⟩, settle_commits _ _ _ _⟩)

theorem proposed_accepted (hs : s.Calm) (hp : Proposed settings files s source h m outcomes) :
    Accepted h m outcomes ∧ Sane m.graph outcomes := by
  obtain ⟨hbegin, items, -, rfl, rfl⟩ := hp
  obtain ⟨hnew, -, rfl⟩ := beginTrace_model hbegin
  have hcalm := hs.begin hnew
  obtain ⟨-, -, htraces, hadmits, hfollows⟩ := consider_spec settings files
    (Intake.ofItems settings.malformed items).records hcalm.sound
  have hsane := consider_sane settings files (Intake.ofItems settings.malformed items).records
    hcalm.sound
  refine ⟨accepted hcalm.lasting (t := Trace.new source.trace) ?_ hfollows hadmits, hsane⟩
  have ht := begin_traceOf? s source.trace
  unfold traceOf? at ht ⊢
  rw [← ht]
  exact congrArg _ (congrArg (·[_]?) htraces)

/-! ## Fatal reports -/

theorem Survey.lookUp_error {g : Graph} {name : String} {e : LoadError}
    (h : lookUp settings files g name = .error e) : e.isFatal = false := by
  unfold lookUp at h
  split at h
  · cases h
  · dsimp only at h
    split at h
    · split at h <;> cases h
      rfl
    · cases h
      rfl

theorem Survey.resolve_notFatal {s : Survey} {raw : String} {e : LoadError}
    (h : (s.resolve settings files raw).2 = .error e) : e.isFatal = false := by
  unfold resolve at h
  dsimp only at h
  split at h
  · cases h
  · split at h
    · rename_i hlook
      cases h
      exact lookUp_error hlook
    · cases h

theorem attemptAll_notFatal {s : Survey} {records : List Record} {attempt : Attempt}
    {e : LoadError} (hmem : attempt ∈ (attemptAll settings files s records).2)
    (he : attempt.result = .error e) : e.isFatal = false := by
  induction records generalizing s with
  | nil => cases hmem
  | cons r records ih =>
    rw [attemptAll_cons] at hmem
    rcases List.mem_cons.1 hmem with rfl | hmem
    · exact Survey.resolve_notFatal he
    · exact ih hmem

theorem attempt_of_failure {s : Survey} {index : Nat} {attempts : List Attempt} {e : LoadError}
    (h : (outcomesFrom s index attempts).2 = some e) :
    ∃ attempt ∈ attempts, attempt.result = .error e := by
  induction attempts generalizing index with
  | nil => cases h
  | cons attempt attempts ih =>
    obtain ⟨r, result⟩ := attempt
    cases result with
    | error e' =>
      cases h
      exact ⟨_, List.mem_cons_self, rfl⟩
    | ok result =>
      obtain ⟨found, hmem, hfound⟩ := ih h
      exact ⟨found, List.mem_cons_of_mem _ hmem, hfound⟩

theorem consider_notFatal (records : List Record) (s : Survey) (report : TraceReport)
    (intake : Intake) :
    ((consider settings files s records).report report intake).isFatal = false := by
  rw [TraceReport.isFatal, Considered.report_error]
  cases hfailure : (consider settings files s records).failure with
  | none => cases intake.stop <;> rfl
  | some e =>
    obtain ⟨attempt, hmem, he⟩ := attempt_of_failure hfailure
    exact attemptAll_notFatal hmem he

/-- The report on a trace file says that the trace is there already, and then nothing is done, or
else it is not fatal and the trace is begun. -/
inductive Answer (ids : List TraceId) (source : Source) : List TraceId → TraceReport → Prop where
  | taken {r : TraceReport} (hold : source.trace ∈ ids)
    (herror : r.error = some (.graph (.duplicateTrace source.trace))) : Answer ids source ids r
  | begun {ids' : List TraceId} {r : TraceReport} (hnew : source.trace ∉ ids)
    (hids : ids' = ids ++ [source.trace]) (hfatal : r.isFatal = false) : Answer ids source ids' r

/-- The ids of the traces that have been begun. -/
def Session.begunIds (s : Session) : List TraceId :=
  s.model.graph.traces.map (·.id)

variable (settings files) in
theorem Session.Quiet.answer (hs : s.Quiet) (source : Source) :
    Answer s.begunIds source (Load.processTrace settings files s source).1.begunIds
      (Load.processTrace settings files s source).2 := by
  have hids : s.model.graph.traces.any (·.id = source.trace) = true ↔
      source.trace ∈ s.begunIds := by
    simp [Session.begunIds]
  rw [processTrace_eq settings files source hs]
  dsimp only
  split
  · rename_i hold
    exact .taken (hids.1 hold) rfl
  · rename_i hnew
    split
    · refine .begun (fun h => hnew (hids.2 h)) ?_ rfl
      simp [Session.begunIds, Session.begin, Trace.new]
    · rename_i items hopen
      have htraces := begin_commit_traces settings files
        (Intake.ofItems settings.malformed items).records (hs.begin (by simpa using hnew))
      dsimp only at htraces
      refine .begun (fun h => hnew (hids.2 h)) ?_ (consider_notFatal _ _ _ _)
      exact (congrArg (List.map (·.id)) htraces).trans List.map_append

variable (settings files) in
theorem Session.Calm.answer (hs : s.Calm) (source : Source) :
    Answer s.begunIds source (Load.processTrace settings files s source).1.begunIds
      (Load.processTrace settings files s source).2 := by
  have hsame := processTrace_unwatched settings files source hs
  have hanswer := hs.quiet.answer settings files source
  rw [← hsame.report, ← hsame.session] at hanswer
  exact hanswer

/-! ## Runs -/

/-- A run over some sources comes to a source in some session. -/
inductive Dispatched (settings : Settings) (files : Tree) :
    Session → List Source → Session → Source → Prop where
  | head (s : Session) (source : Source) (sources : List Source) :
    Dispatched settings files s (source :: sources) s source
  | tail {s s' : Session} {first source : Source} {sources : List Source}
    (hfirst : (processTrace settings files s first).2.isFatal = false)
    (hrest : Dispatched settings files (processTrace settings files s first).1 sources s' source) :
    Dispatched settings files s (first :: sources) s' source

theorem Dispatched.calm {s' : Session} {sources : List Source}
    (h : Dispatched settings files s sources s' source) (hs : s.Calm) : s'.Calm := by
  induction h with
  | head s source sources => exact hs
  | tail hfirst hrest ih => exact ih (hs.processTrace settings files _)

/-- The reports of a run are those of the sources that it comes to. -/
theorem mem_reports_iff {sources : List Source} {r : TraceReport} :
    r ∈ (runSources settings files false s sources).2.1 ↔
      ∃ s' source, Dispatched settings files s sources s' source ∧
        r = (processTrace settings files s' source).2 := by
  induction sources generalizing s with
  | nil =>
    constructor
    · intro h
      cases h
    · rintro ⟨s', source, hdispatched, -⟩
      cases hdispatched
  | cons first sources ih =>
    have hrest : r ∈ (runSources settings files (processTrace settings files s first).2.isFatal
        (processTrace settings files s first).1 sources).2.1 ↔
          (processTrace settings files s first).2.isFatal = false ∧ ∃ s' source,
            Dispatched settings files (processTrace settings files s first).1 sources s' source ∧
              r = (processTrace settings files s' source).2 := by
      cases hfatal : (processTrace settings files s first).2.isFatal with
      | true => cases sources <;> simp [runSources]
      | false => simp [ih]
    rw [runSources_cons]
    simp only [List.mem_cons, hrest]
    constructor
    · rintro (rfl | ⟨hfirst, s', source, hdispatched, rfl⟩)
      · exact ⟨s, first, .head s first sources, rfl⟩
      · exact ⟨s', source, .tail hfirst hdispatched, rfl⟩
    · rintro ⟨s', source, hdispatched, rfl⟩
      cases hdispatched with
      | head => exact .inl rfl
      | tail hfirst hdispatched => exact .inr ⟨hfirst, s', source, hdispatched, rfl⟩

/-- The report at a position is fatal if its trace was there at the start, or a file before it has
begun the trace. -/
theorem runSources_fatal {sources : List Source} (hs : s.Calm) {i : Nat} {r : TraceReport}
    (hr : (runSources settings files false s sources).2.1[i]? = some r) :
    (∀ e, r.error = some (.graph e) → e = .duplicateTrace r.trace) ∧
      (r.isFatal = true ↔ r.trace ∈ s.begunIds ∨
        ∃ earlier ∈ sources.take i, earlier.trace = r.trace) := by
  induction sources generalizing s i with
  | nil => cases hr
  | cons first sources ih =>
    have hanswer := hs.answer settings files first
    have hcalm := hs.processTrace settings files first
    have htrace : (processTrace settings files s first).2.trace = first.trace :=
      congrArg Source.trace (processTrace_about settings files s first).origin
    rw [runSources_cons] at hr
    dsimp only at hr
    generalize processTrace settings files s first = answer at *
    obtain ⟨s', r'⟩ := answer
    dsimp only at hanswer hcalm htrace hr
    generalize hbegun : s'.begunIds = ids at hanswer
    cases i with
    | zero =>
      rw [List.getElem?_cons_zero] at hr
      cases hr
      rw [htrace]
      cases hanswer with
      | taken hold herror =>
        refine ⟨?_, ?_⟩
        · intro e he
          rw [herror] at he
          cases he
          rfl
        · simp [TraceReport.isFatal, herror, LoadError.isFatal, hold]
      | begun hnew hids hfatal =>
        refine ⟨?_, by simp [hfatal, hnew]⟩
        intro e he
        simp [TraceReport.isFatal, he, LoadError.isFatal] at hfatal
    | succ i =>
      rw [List.getElem?_cons_succ] at hr
      cases hanswer with
      | taken hold herror =>
        -- nothing is begun behind the fatal report
        have hfatal : r'.isFatal = true := by simp [TraceReport.isFatal, herror, LoadError.isFatal]
        rw [hfatal] at hr
        cases sources <;> cases hr
      | begun hnew hids hfatal =>
        rw [hfatal] at hr
        obtain ⟨hgraph, hiff⟩ := ih hcalm hr
        refine ⟨hgraph, hiff.trans ?_⟩
        rw [hbegun, hids]
        simp [or_assoc, eq_comm]

/-! ## Loads -/

/-- What a load of a directory comes to commit, and what is said about it. -/
structure Acceptance (settings : Settings) (files : Tree) (watchers : List Watcher)
    (names : List String) (report : LoadReport) : Prop where
  /-- Whatever a trace file gives to commit is accepted. -/
  accepted : ∀ s source h m outcomes,
    Dispatched settings files (Session.new watchers) (traceFiles settings names) s source →
      Proposed settings files s source h m outcomes → Accepted h m outcomes
  sane : ∀ s source h m outcomes,
    Dispatched settings files (Session.new watchers) (traceFiles settings names) s source →
      Proposed settings files s source h m outcomes → Sane m.graph outcomes
  graphError : ∀ r ∈ report.traces, ∀ e, r.error = some (.graph e) → e = .duplicateTrace r.trace
  /-- A report is fatal if a file before it has the same id. -/
  fatal : ∀ (i : Nat) r, report.traces[i]? = some r → (r.isFatal = true ↔
    ∃ earlier ∈ (traceFiles settings names).take i, earlier.trace = r.trace)

/-- With watchers that never break off, nothing that a load commits is refused. -/
theorem load_commits_accepted {watchers : List Watcher} {names : List String} {cancelled : Bool}
    {l : Loaded} (hlasting : ∀ w ∈ watchers, w.lasts = true)
    (hlist : files.list settings.baseDir = .ok names)
    (hload : load settings files watchers cancelled = .ok l) :
    Acceptance settings files watchers names l.report := by
  have hnew := Session.Calm.new hlasting
  have hreports : l.report.traces = (runSources settings files cancelled (Session.new watchers)
      (traceFiles settings names)).2.1 := by
    simp only [load, hlist, discover_eq] at hload
    cases hload
    rfl
  have hposition : ∀ (i : Nat) r, l.report.traces[i]? = some r →
      (∀ e, r.error = some (.graph e) → e = .duplicateTrace r.trace) ∧ (r.isFatal = true ↔
        ∃ earlier ∈ (traceFiles settings names).take i, earlier.trace = r.trace) := by
    intro i r hr
    rw [hreports] at hr
    cases cancelled with
    | true =>
      rw [(runSources_accounts settings files true _ _).none rfl] at hr
      cases hr
    | false =>
      obtain ⟨hgraph, hiff⟩ := runSources_fatal hnew hr
      refine ⟨hgraph, hiff.trans ?_⟩
      have hnone : (Session.new watchers).begunIds = [] := rfl
      simp [hnone]
  refine ⟨?_, ?_, ?_, fun i r hr => (hposition i r hr).2⟩
  · intro s source h m outcomes hdispatched hp
    exact (proposed_accepted (hdispatched.calm hnew) hp).1
  · intro s source h m outcomes hdispatched hp
    exact (proposed_accepted (hdispatched.calm hnew) hp).2
  · intro r hr
    obtain ⟨i, hi⟩ := List.mem_iff_getElem?.1 hr
    exact (hposition i r hi).1

def twiceSettings : Settings :=
  (Settings.ofBase ⟨"m"⟩).sequential

/-- One trace id in two spellings. -/
def twiceFiles : Tree where
  cwd := ["work"]
  nodes := [
    (["work"], .directory),
    (["work", "m"], .directory),
    (["work", "m", "trace00000000-0000-0000-0000-000000000001.csv"], .file (Text.utf8
      "LaunchApp;da39a3ee-5e6b-4b0d-3255-bfef95601890;da39a3ee-5e6b-4b0d-3255-bfef95601890;;\n")),
    (["work", "m", "trace00000000000000000000000000000001.csv"], .file [])]

def twiceNames : List String :=
  ["trace00000000-0000-0000-0000-000000000001.csv", "trace00000000000000000000000000000001.csv"]

theorem load_commits_accepted_twice :
    (∀ w ∈ [Watcher.tally .empty], w.lasts = true) ∧
      twiceFiles.list twiceSettings.baseDir = .ok twiceNames ∧
        ∃ l, load twiceSettings twiceFiles [.tally .empty] false = .ok l ∧
          Acceptance twiceSettings twiceFiles [.tally .empty] twiceNames l.report := by
  have hlist : twiceFiles.list twiceSettings.baseDir = .ok twiceNames := by decide +kernel
  have hsteady : ∀ w ∈ [Watcher.tally .empty], w.isSteady = true := by decide
  have hload := load_eq false hlist hsteady
  exact ⟨by decide, hlist, _, hload, load_commits_accepted (by decide) hlist hload⟩

/-- The second file has nothing left to begin. -/
example : (load twiceSettings twiceFiles [.tally .empty] false).map
    (fun l => l.report.traces.map fun r => (r.committed, r.isFatal)) =
      .ok [(1, false), (0, true)] := by
  decide +kernel

end Load
end ScreenGraph
