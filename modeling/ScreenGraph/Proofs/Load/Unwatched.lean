import ScreenGraph.Proofs.Load.Runs

/-!
# ScreenGraph.Proofs.Load.Unwatched

Watchers that never break off leave a load as it is.

They are told about commits and nothing comes back from them. So the graph, the settled names and
the reports are those of the same load with nobody watching, and what holds of such loads has to be
shown without watchers only.

* `commitEach_unwatched`, `commitBatch_unwatched`: commits with and without watchers.
* `processTrace_unwatched`, `runSources_unwatched`: trace files and runs.
* `load_unwatched`: whole loads.
-/

namespace ScreenGraph

open Files Graph Identity Record Watch

namespace Model

variable {m : Model} {h : TraceHandle}

def unwatched (m : Model) : Model :=
  ⟨m.graph, []⟩

theorem unwatched_steady (m : Model) : ∀ w ∈ m.unwatched.watchers, w.isSteady = true :=
  fun w hw => by cases hw

/-- No watcher will break off. -/
def Lasting (m : Model) : Prop :=
  ∀ w ∈ m.watchers, w.lasts = true

theorem announce_lasting (hm : m.Lasting) (c : Commit) :
    m.announce c = ⟨{ m with watchers := m.watchers.map (Watcher.observe c) }, c.actions.length,
      false⟩ := by
  simp only [announce, Watcher.notify_lasting c hm]

theorem Lasting.observe (hm : m.Lasting) (g : Graph) (c : Commit) :
    Lasting ⟨g, m.watchers.map (Watcher.observe c)⟩ := by
  intro w hw
  obtain ⟨v, hv, rfl⟩ := List.mem_map.1 hw
  rw [Watcher.lasts_observe]
  exact hm v hv

/-- The answer to a commit with watchers that never break off, and that without any. -/
inductive SameAnswer : Except GraphError Announced → Except GraphError Announced → Prop where
  | refused (e : GraphError) : SameAnswer (.error e) (.error e)
  | accepted {m : Model} (n : Nat) (hm : m.Lasting) :
    SameAnswer (.ok ⟨m, n, false⟩) (.ok ⟨m.unwatched, n, false⟩)

theorem append_unwatched (hm : m.Lasting) (a : Action) :
    SameAnswer (m.append h a) (m.unwatched.append h a) := by
  unfold append
  simp only [unwatched]
  cases m.graph.append h a with
  | error e => exact .refused e
  | ok g =>
    dsimp only
    cases g.state? a.result with
    | none => exact .accepted 1 (m := ⟨g, m.watchers⟩) hm
    | some result =>
      dsimp only
      rw [announce_lasting (m := ⟨g, m.watchers⟩) hm]
      exact .accepted 1 (hm.observe g _)

theorem appendAll_unwatched (hm : m.Lasting) (as : List Action) :
    SameAnswer (m.appendAll h as) (m.unwatched.appendAll h as) := by
  unfold appendAll
  simp only [unwatched]
  split
  · exact .accepted 0 hm
  · cases m.graph.appendAll h as with
    | error e => exact .refused e
    | ok g =>
      dsimp only
      rw [announce_lasting (m := ⟨g, m.watchers⟩) hm]
      exact .accepted _ (hm.observe g _)

end Model

namespace Load

/-! ## Commits of a trace -/

/-- What is left of a trace with watchers that never break off, and without any. -/
inductive SameSettled : Settled → Settled → Prop where
  | intro {m : Model} (report : TraceReport) (hm : m.Lasting) :
    SameSettled ⟨m, report, false⟩ ⟨m.unwatched, report, false⟩

theorem commitEach_unwatched {m : Model} (hm : m.Lasting) (h : TraceHandle)
    (report : TraceReport) (outcomes : List Outcome) :
    SameSettled (commitEach h m report outcomes) (commitEach h m.unwatched report outcomes) := by
  induction outcomes generalizing m report with
  | nil => exact .intro report hm
  | cons outcome outcomes ih =>
    simp only [commitEach]
    cases outcome.action? with
    | none => exact ih hm _
    | some a =>
      dsimp only
      generalize hanswer : m.append h a = answer
      generalize hanswer' : m.unwatched.append h a = answer'
      have hsame : Model.SameAnswer answer answer' := hanswer ▸ hanswer' ▸ m.append_unwatched hm a
      cases hsame with
      | refused e => exact .intro _ hm
      | accepted n hm' => exact ih hm' _

theorem commitBatch_unwatched {m : Model} (hm : m.Lasting) (h : TraceHandle)
    (report : TraceReport) (outcomes : List Outcome) :
    SameSettled (commitBatch h m report outcomes) (commitBatch h m.unwatched report outcomes) := by
  simp only [commitBatch]
  generalize hanswer : m.appendAll h _ = answer
  generalize hanswer' : m.unwatched.appendAll h _ = answer'
  have hsame : Model.SameAnswer answer answer' := hanswer ▸ hanswer' ▸ m.appendAll_unwatched hm _
  cases hsame with
  | refused e => exact .intro _ hm
  | accepted n hm' => exact .intro _ hm'

/-! ## Trace files -/

namespace Session

def unwatched (s : Session) : Session :=
  { s with model := s.model.unwatched }

/-- A session in which every commit goes through, whatever the watchers do with it. -/
structure Calm (s : Session) : Prop where
  sound : s.survey.Sound
  lasting : s.model.Lasting

theorem Calm.quiet {s : Session} (hs : s.Calm) : s.unwatched.Quiet :=
  ⟨hs.sound, s.model.unwatched_steady⟩

theorem quiet_new : (Session.new []).Quiet :=
  .new fun w hw => by cases hw

theorem Calm.new {watchers : List Watcher} (h : ∀ w ∈ watchers, w.lasts = true) :
    (Session.new watchers).Calm :=
  ⟨Survey.ofGraph_sound canonical_initial, h⟩

theorem Calm.begin {s : Session} {id : TraceId} (hs : s.Calm)
    (hnew : ∀ t ∈ s.model.graph.traces, t.id ≠ id) : (s.begin id).Calm :=
  ⟨(hs.quiet.begin hnew).sound, hs.lasting⟩

end Session

variable (settings : Settings) (files : Tree)

/-- What was resolved is committed in either way, with watchers or without. -/
theorem commits_unwatched {m : Model} {h : TraceHandle} {t : Trace} (hm : m.Lasting)
    (ht : m.graph.traceOf? h = some t) {outcomes : List Outcome}
    (hfollows : Follows t.lastIndex? (actionsOf outcomes))
    (hadmits : ∀ a ∈ actionsOf outcomes, m.graph.Admits a) (report : TraceReport)
    (each each' : Bool) :
    SameSettled
      (if each then commitEach h m report outcomes else commitBatch h m report outcomes)
      (if each' then commitEach h m.unwatched report outcomes
        else commitBatch h m.unwatched report outcomes) := by
  have hmodes : commitEach h m.unwatched report outcomes =
      commitBatch h m.unwatched report outcomes := by
    rw [commitEach_eq (m := m.unwatched) report ht hfollows hadmits m.unwatched_steady,
      commitBatch_eq (m := m.unwatched) report ht hfollows hadmits m.unwatched_steady]
  have heach := commitEach_unwatched hm h report outcomes
  have hbatch := commitBatch_unwatched hm h report outcomes
  cases each <;> cases each' <;> simp_all

/-- A session and a report with watchers that never break off, and those without any. -/
structure SameSession (r r' : Session × TraceReport) : Prop where
  lasting : r.1.model.Lasting
  session : r.1.unwatched = r'.1
  report : r.2 = r'.2

theorem SameSettled.session {settled settled' : Settled} (hsame : SameSettled settled settled')
    (s : Session) (r : TraceReport) :
    SameSession ({ s with model := settled.model }, if settled.broken then r else settled.report)
      ({ s.unwatched with model := settled'.model },
        if settled'.broken then r else settled'.report) := by
  cases hsame with
  | intro report hm => exact ⟨hm, rfl, rfl⟩

theorem settle_unwatched {s : Session} {h : TraceHandle} {id : TraceId} (report : TraceReport)
    (intake : Intake) (hs : s.Calm) (ht : s.model.graph.traceOf? h = some (Trace.new id)) :
    SameSession (settle settings files s h report intake)
      (settle settings files s.unwatched h report intake) := by
  obtain ⟨-, -, htraces, hadmits, hfollows⟩ :=
    consider_spec settings files intake.records hs.sound
  have hsurvey : s.unwatched.survey = s.survey := rfl
  unfold settle
  rw [hsurvey]
  simp only [Considered.actions, consider] at htraces hadmits hfollows ⊢
  generalize attemptAll settings files s.survey intake.records = attempted at *
  obtain ⟨survey, attempts⟩ := attempted
  dsimp only at htraces hadmits hfollows ⊢
  generalize outcomesFrom survey 0 attempts = considered at *
  obtain ⟨outcomes, failure⟩ := considered
  dsimp only at hadmits hfollows ⊢
  have ht' : survey.graph.traceOf? h = some (Trace.new id) := by
    rw [traceOf?, htraces]
    exact ht
  have hsame := fun r => commits_unwatched (m := (s.withSurvey survey).model) hs.lasting ht'
    hfollows hadmits r (settings.perAction (!s.model.watchers.isEmpty)) (settings.perAction false)
  exact (hsame _).session _ _

/-- A trace file with watchers that never break off. -/
theorem processTrace_unwatched {s : Session} (source : Source) (hs : s.Calm) :
    SameSession (processTrace settings files s source)
      (processTrace settings files s.unwatched source) := by
  unfold processTrace Model.beginTrace
  simp only [Session.unwatched, Model.unwatched]
  cases hb : s.model.graph.beginTrace source.trace with
  | error e => exact ⟨hs.lasting, rfl, rfl⟩
  | ok begun =>
    obtain ⟨g, h⟩ := begun
    obtain ⟨hnew, rfl, rfl⟩ := beginTrace_ok hb
    dsimp only
    cases openFile files source.path .trace settings.separator with
    | error e => exact ⟨hs.lasting, rfl, rfl⟩
    | ok items =>
      exact settle_unwatched settings files _ _ (hs.begin hnew) (begin_traceOf? s source.trace)

theorem Session.Calm.processTrace {s : Session} (source : Source) (hs : s.Calm) :
    (processTrace settings files s source).1.Calm := by
  have hsame := processTrace_unwatched settings files source hs
  have hquiet := hs.quiet.processTrace settings files source
  rw [← hsame.session] at hquiet
  exact ⟨hquiet.sound, hsame.lasting⟩

/-! ## Runs and loads -/

theorem runSources_unwatched {s : Session} (stopped : Bool) (sources : List Source)
    (hs : s.Calm) :
    let run := runSources settings files stopped s sources
    let run' := runSources settings files stopped s.unwatched sources
    run.1.Calm ∧ run.1.unwatched = run'.1 ∧ run.2 = run'.2 := by
  induction sources generalizing s stopped with
  | nil => cases stopped <;> exact ⟨hs, rfl, rfl⟩
  | cons source sources ih =>
    cases stopped with
    | true => exact ⟨hs, rfl, rfl⟩
    | false =>
      have hfirst := processTrace_unwatched settings files source hs
      obtain ⟨hcalm, hsession, hrest⟩ := ih (processTrace settings files s source).2.isFatal
        (hs.processTrace settings files source)
      rw [hfirst.session, hfirst.report] at hsession hrest
      simp only [runSources_cons, hfirst.report] at hcalm ⊢
      exact ⟨hcalm, hsession, by rw [hrest]⟩

/-- A run from the start, with watchers that never break off and with none. -/
theorem runSources_new {watchers : List Watcher} (stopped : Bool) (sources : List Source)
    (hlasting : ∀ w ∈ watchers, w.lasts = true) :
    let run := runSources settings files stopped (Session.new watchers) sources
    let run' := runSources settings files stopped (Session.new []) sources
    run.1.unwatched = run'.1 ∧ run.2 = run'.2 :=
  (runSources_unwatched settings files stopped sources (Session.Calm.new hlasting)).2

/-- The graph and the report of a load are those that there are with nobody watching. -/
theorem load_unwatched {watchers : List Watcher} {cancelled : Bool} {l : Loaded}
    (hlasting : ∀ w ∈ watchers, w.lasts = true)
    (hload : load settings files watchers cancelled = .ok l) :
    ∃ l', load settings files [] cancelled = .ok l' ∧ l'.report = l.report ∧
      l'.model.graph = l.model.graph := by
  unfold load at hload ⊢
  cases hlist : files.list settings.baseDir with
  | error e => rw [hlist] at hload; cases hload
  | ok names =>
    rw [hlist] at hload
    dsimp only at hload ⊢
    obtain ⟨hsession, hrest⟩ :=
      runSources_new settings files cancelled (discover settings names).1 hlasting
    generalize runSources settings files cancelled (Session.new watchers) _ = run at *
    generalize runSources settings files cancelled (Session.new []) _ = run' at *
    obtain ⟨s, reports⟩ := run
    obtain ⟨s', reports'⟩ := run'
    dsimp only at hsession hrest
    subst hsession hrest
    cases hload
    exact ⟨_, rfl, rfl, rfl⟩

end Load
end ScreenGraph
