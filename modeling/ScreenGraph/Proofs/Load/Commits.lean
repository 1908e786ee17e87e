import ScreenGraph.Load.Run
import ScreenGraph.Proofs.Graph.History
import ScreenGraph.Proofs.Load.Attempts

/-!
# ScreenGraph.Proofs.Load.Commits

Commits one by one and commits of a batch.

What the records of a trace are resolved to is never refused, so that a load with watchers that
never break off commits all of it. Then it does not matter how: the traces end up the same, the
watchers have collected the same, and the reports say the same.

* `Watcher.observe_append`: watching two batches is watching them as one.
* `commitEach_eq`, `commitBatch_eq`: both ways of committing, in closed form.
* `settle_eq`: what becomes of a trace file that can be opened.
* `load_commitMode`: the result of a load does not depend on the commit mode.
-/

namespace ScreenGraph

open Files Graph Identity Record Screen Watch

/-! ## Watchers that never break off -/

namespace Watch.Watcher

/-- Whether a watcher never breaks off, whatever it is told. -/
def lasts : Watcher → Bool
  | journal j => j.breakAt.isNone
  | _ => true

/-- Everything but a journal. -/
def isSteady : Watcher → Bool
  | journal _ => false
  | _ => true

variable {w : Watcher} {ws : List Watcher}

theorem lasts_of_isSteady (h : w.isSteady = true) : w.lasts = true := by
  cases w with
  | journal j => cases h
  | tally t => rfl
  | clicks l => rfl

theorem lasts_observe (c : Commit) : (w.observe c).lasts = w.lasts := by
  cases w <;> rfl

theorem isSteady_observe (c : Commit) : (w.observe c).isSteady = w.isSteady := by
  cases w <;> rfl

theorem broken_of_lasts (h : w.lasts = true) : w.broken = false := by
  cases w with
  | journal j =>
    have hnone : j.breakAt = none := by simpa [lasts] using h
    simp [broken, Journal.broken, hnone]
  | tally t => rfl
  | clicks l => rfl

theorem notify_lasting (c : Commit) (h : ∀ w ∈ ws, w.lasts = true) :
    notify c ws = (ws.map (observe c), false) := by
  induction ws with
  | nil => rfl
  | cons w ws ih =>
    have hw : (w.observe c).broken = false := by
      rw [broken_of_lasts]
      rw [lasts_observe]
      exact h w List.mem_cons_self
    rw [notify, ih fun v hv => h v (List.mem_cons_of_mem _ hv)]
    simp [hw]

theorem notify_steady (c : Commit) (h : ∀ w ∈ ws, w.isSteady = true) :
    notify c ws = (ws.map (observe c), false) :=
  notify_lasting c fun w hw => lasts_of_isSteady (h w hw)

/-- Only the trace and the actions of a commit count. -/
theorem observe_congr {c c' : Commit} (htrace : c.trace = c'.trace)
    (hactions : c.actions = c'.actions) (h : w.isSteady = true) : w.observe c = w.observe c' := by
  cases w with
  | journal j => cases h
  | tally t => simp only [observe, Tally.observe, hactions]
  | clicks l => simp only [observe, ClickLog.observe, htrace, hactions]

theorem observe_nil (id : TraceId) (h : w.isSteady = true) : w.observe (.batch id []) = w := by
  cases w with
  | journal j => cases h
  | tally t => rfl
  | clicks l => simp [observe, ClickLog.observe, Commit.actions]

theorem observe_append (id : TraceId) (as bs : List (Action × State)) (h : w.isSteady = true) :
    (w.observe (.batch id as)).observe (.batch id bs) = w.observe (.batch id (as ++ bs)) := by
  cases w with
  | journal j => cases h
  | tally t => simp [observe, Tally.observe, Commit.actions]
  | clicks l => simp [observe, ClickLog.observe, Commit.actions, Commit.trace]

end Watch.Watcher

/-! ## Commits that are accepted -/

namespace Graph

theorem traceOf?_extendTrace {g : Graph} {h : TraceHandle} {t : Trace} (as : List Action)
    (ht : g.traceOf? h = some t) : (g.extendTrace h.slot as).traceOf? h = some (t.extend as) := by
  obtain ⟨hslot, hid⟩ := traceOf?_eq_some_iff.1 ht
  refine traceOf?_eq_some_iff.2 ⟨?_, hid⟩
  rw [extendTrace_getElem?, if_pos rfl, hslot]
  rfl

end Graph

namespace Model

/-- The model after a commit that nothing is against. -/
def committed (m : Model) (h : TraceHandle) (as : List Action) : Model where
  graph := m.graph.extendTrace h.slot as
  watchers := m.watchers.map (Watcher.observe (.batch h.id (m.graph.withResults as)))

variable {m : Model} {h : TraceHandle} {t : Trace}

theorem committed_nil (hsteady : ∀ w ∈ m.watchers, w.isSteady = true) : m.committed h [] = m := by
  have hwatchers : m.watchers.map (Watcher.observe (.batch h.id [])) = m.watchers := by
    rw [List.map_congr_left fun w hw => Watcher.observe_nil h.id (hsteady w hw), List.map_id']
  simp only [committed, extendTrace_nil, withResults, List.filterMap_nil, hwatchers]

theorem committed_append (as bs : List Action)
    (hsteady : ∀ w ∈ m.watchers, w.isSteady = true) :
    (m.committed h as).committed h bs = m.committed h (as ++ bs) := by
  simp only [committed, extendTrace_append, List.map_map, withResults_append]
  refine congrArg _ (List.map_congr_left ?_)
  intro w hw
  exact Watcher.observe_append h.id _ _ (hsteady w hw)

theorem steady_committed (as : List Action) (hsteady : ∀ w ∈ m.watchers, w.isSteady = true) :
    ∀ w ∈ (m.committed h as).watchers, w.isSteady = true := by
  intro w hw
  obtain ⟨v, hv, rfl⟩ := List.mem_map.1 hw
  rw [Watcher.isSteady_observe]
  exact hsteady v hv

theorem append_eq {a : Action} (ht : m.graph.traceOf? h = some t)
    (hfollows : Follows t.lastIndex? [a]) (hadmits : m.graph.Admits a)
    (hsteady : ∀ w ∈ m.watchers, w.isSteady = true) :
    m.append h a = .ok ⟨m.committed h [a], 1, false⟩ := by
  have hgraph : m.graph.append h a = .ok (m.graph.extendTrace h.slot [a]) :=
    append_ok_iff.2 ⟨t, ht, hfollows, hadmits, rfl⟩
  obtain ⟨source, result, -, hresult, -⟩ := hadmits
  have hresults : m.graph.withResults [a] = [(a, result)] := by simp [withResults, hresult]
  have hstate : (m.graph.extendTrace h.slot [a]).state? a.result = some result := by
    rw [extendTrace_state?, hresult]
  simp only [append, hgraph, hstate, announce,
    Watcher.notify_steady _ hsteady, committed, hresults, Commit.actions, List.length_singleton]
  refine congrArg (fun ws => Except.ok (Announced.mk ⟨_, ws⟩ 1 false)) ?_
  exact List.map_congr_left fun w hw => Watcher.observe_congr rfl rfl (hsteady w hw)

theorem appendAll_eq {as : List Action} (ht : m.graph.traceOf? h = some t)
    (hfollows : Follows t.lastIndex? as) (hadmits : ∀ a ∈ as, m.graph.Admits a)
    (hsteady : ∀ w ∈ m.watchers, w.isSteady = true) :
    m.appendAll h as = .ok ⟨m.committed h as, as.length, false⟩ := by
  by_cases hne : as = []
  · subst hne
    rw [committed_nil hsteady]
    rfl
  · have hgraph : m.graph.appendAll h as = .ok (m.graph.extendTrace h.slot as) :=
      (appendAll_ok_iff hne).2 ⟨t, ht, hfollows, hadmits, rfl⟩
    have hresults : (m.graph.extendTrace h.slot as).withResults as = m.graph.withResults as := rfl
    have hempty : as.isEmpty = false := by simpa using hne
    simp only [appendAll, hempty, hgraph, announce, Watcher.notify_steady _ hsteady, hresults,
      Commit.actions, withResults_length hadmits, committed]
    rfl

end Model

namespace Load

/-! ## The outcomes of a trace -/

namespace TraceReport

/-- The report when `n` more actions have been committed. -/
def count (r : TraceReport) (n : Nat) : TraceReport :=
  { r with committed := r.committed + n }

theorem count_count (r : TraceReport) (m n : Nat) : (r.count m).count n = r.count (m + n) := by
  simp [count, Nat.add_assoc]

theorem count_addNote (r : TraceReport) (n line : Nat) (note : Note) :
    (r.count n).addNote line note = (r.addNote line note).count n := by
  cases note <;> rfl

theorem count_addOutcome (r : TraceReport) (n : Nat) (outcome : Outcome) :
    (r.count n).addOutcome outcome = (r.addOutcome outcome).count n := by
  cases outcome with
  | dropped line error => rfl
  | resolved line resolution =>
    simp only [addOutcome]
    induction resolution.notes generalizing r with
    | nil => rfl
    | cons note notes ih => rw [List.foldl_cons, List.foldl_cons, count_addNote, ih]

theorem count_foldl (r : TraceReport) (n : Nat) (outcomes : List Outcome) :
    outcomes.foldl addOutcome (r.count n) = (outcomes.foldl addOutcome r).count n := by
  induction outcomes generalizing r with
  | nil => rfl
  | cons outcome outcomes ih => rw [List.foldl_cons, List.foldl_cons, count_addOutcome, ih]

end TraceReport

section Commits

variable {h : TraceHandle} {t : Trace} {m : Model} {outcomes : List Outcome}

theorem commitEach_eq (report : TraceReport) (ht : m.graph.traceOf? h = some t)
    (hfollows : Follows t.lastIndex? (actionsOf outcomes))
    (hadmits : ∀ a ∈ actionsOf outcomes, m.graph.Admits a)
    (hsteady : ∀ w ∈ m.watchers, w.isSteady = true) :
    commitEach h m report outcomes =
      ⟨m.committed h (actionsOf outcomes),
        (outcomes.foldl .addOutcome report).count (actionsOf outcomes).length, false⟩ := by
  induction outcomes generalizing m t report with
  | nil => simp [commitEach, actionsOf, Model.committed_nil hsteady, TraceReport.count]
  | cons outcome outcomes ih =>
    simp only [commitEach, List.foldl_cons]
    cases haction : outcome.action? with
    | none =>
      have hsame : actionsOf (outcome :: outcomes) = actionsOf outcomes := by
        simp [actionsOf, haction]
      rw [hsame] at hfollows hadmits ⊢
      exact ih _ ht hfollows hadmits hsteady
    | some a =>
      have hcons : actionsOf (outcome :: outcomes) = [a] ++ actionsOf outcomes := by
        simp [actionsOf, haction]
      rw [hcons] at hfollows hadmits ⊢
      obtain ⟨hfirst, hrest⟩ := follows_cons.1 hfollows
      have hlast : (t.extend [a]).lastIndex? = some a.index := by
        simp [Trace.extend, Trace.lastIndex?, Trace.last?]
      have happend := Model.append_eq ht (follows_cons.2 ⟨hfirst, follows_nil _⟩)
        (hadmits a List.mem_cons_self) hsteady
      have hnext := ih ((report.addOutcome outcome).count 1) (traceOf?_extendTrace [a] ht)
        (hlast ▸ hrest)
        (fun b hb => (hadmits b (List.mem_cons_of_mem _ hb)).mono
          (kept_extendTrace m.graph h.slot [a]))
        (Model.steady_committed [a] hsteady)
      rw [Model.committed_append _ _ hsteady, TraceReport.count_foldl,
        TraceReport.count_count] at hnext
      dsimp only
      rw [happend, List.length_append, List.length_singleton]
      exact hnext

theorem commitBatch_eq (report : TraceReport) (ht : m.graph.traceOf? h = some t)
    (hfollows : Follows t.lastIndex? (actionsOf outcomes))
    (hadmits : ∀ a ∈ actionsOf outcomes, m.graph.Admits a)
    (hsteady : ∀ w ∈ m.watchers, w.isSteady = true) :
    commitBatch h m report outcomes =
      ⟨m.committed h (actionsOf outcomes),
        (outcomes.foldl .addOutcome report).count (actionsOf outcomes).length, false⟩ := by
  have happend := Model.appendAll_eq ht hfollows hadmits hsteady
  unfold actionsOf at happend ⊢
  simp only [commitBatch, happend, TraceReport.count]

end Commits

/-! ## Trace files -/

/-- A session in which every commit goes through. -/
structure Session.Quiet (s : Session) : Prop where
  sound : s.survey.Sound
  steady : ∀ w ∈ s.model.watchers, w.isSteady = true

/-- What the records of a file come to: the survey after their result states, what became of each
record, and what stopped them. -/
structure Considered where
  survey : Survey
  outcomes : List Outcome
  failure : Option LoadError

namespace Considered

def actions (c : Considered) : List Action :=
  actionsOf c.outcomes

/-- The report of a file whose records came to `c`, when `report` was the one before. -/
def report (c : Considered) (report : TraceReport) (intake : Intake) : TraceReport :=
  let report := intake.malformed.foldl
    (fun r e => r.addIssue .malformedRecord none e.message) report
  let report := { report with error := c.failure.or (intake.stop.map .read) }
  (c.outcomes.foldl .addOutcome report).count c.actions.length

end Considered

def consider (settings : Settings) (files : Tree) (s : Survey) (records : List Record) :
    Considered :=
  let (survey, attempts) := attemptAll settings files s records
  let (outcomes, failure) := outcomesFrom survey 0 attempts
  ⟨survey, outcomes, failure⟩

theorem consider_spec (settings : Settings) (files : Tree) {s : Survey} (records : List Record)
    (hs : s.Sound) :
    let c := consider settings files s records
    c.survey.Sound ∧ s.graph.KeptIn c.survey.graph ∧ c.survey.graph.traces = s.graph.traces ∧
      (∀ a ∈ c.actions, c.survey.graph.Admits a) ∧ Follows none c.actions := by
  obtain ⟨hsound, hkept, htraces, hresults⟩ :=
    attemptAll_spec settings files records hs
  obtain ⟨hactions, hpair⟩ := outcomesFrom_actions 0 hsound hresults
  exact ⟨hsound, hkept, htraces, fun a ha => (hactions a ha).2, by simp, hpair⟩

/-- Everything that was resolved is committed, in whichever way. -/
theorem settle_eq (settings : Settings) (files : Tree) {s : Session} {h : TraceHandle}
    {id : TraceId} (report : TraceReport) (intake : Intake) (hs : s.Quiet)
    (ht : s.model.graph.traceOf? h = some (Trace.new id)) :
    settle settings files s h report intake =
      let c := consider settings files s.survey intake.records
      (⟨{ s.model with graph := c.survey.graph }.committed h c.actions, c.survey.known⟩,
        c.report report intake) := by
  obtain ⟨-, -, htraces, hadmits, hfollows⟩ :=
    consider_spec settings files intake.records hs.sound
  unfold settle
  simp only [Considered.report, Considered.actions, consider] at htraces hadmits hfollows ⊢
  generalize attemptAll settings files s.survey intake.records = attempted at *
  obtain ⟨survey, attempts⟩ := attempted
  dsimp only at htraces hadmits hfollows ⊢
  generalize outcomesFrom survey 0 attempts = considered at *
  obtain ⟨outcomes, failure⟩ := considered
  dsimp only at htraces hadmits hfollows ⊢
  have ht' : survey.graph.traceOf? h = some (Trace.new id) := by
    rw [traceOf?, htraces]
    exact ht
  have heach := fun r =>
    commitEach_eq (m := ⟨survey.graph, s.model.watchers⟩) r ht' hfollows hadmits hs.steady
  have hbatch := fun r =>
    commitBatch_eq (m := ⟨survey.graph, s.model.watchers⟩) r ht' hfollows hadmits hs.steady
  simp only [Session.withSurvey, heach, hbatch]
  split <;> rfl

namespace Session

/-- The session when a trace has been begun that was not there. -/
def begin (s : Session) (id : TraceId) : Session :=
  { s with model := { s.model with
    graph := { s.model.graph with traces := s.model.graph.traces ++ [Trace.new id] } } }

/-- The session when what the records of a trace came to has been committed. -/
def commit (s : Session) (slot : TraceHandle) (c : Considered) : Session :=
  ⟨{ s.model with graph := c.survey.graph }.committed slot c.actions, c.survey.known⟩

end Session

/-- A trace that is not there can be begun. -/
theorem beginTrace_new {s : Session} {id : TraceId}
    (hnew : ∀ t ∈ s.model.graph.traces, t.id ≠ id) :
    s.model.beginTrace id = .ok ((s.begin id).model, ⟨s.model.graph.traces.length, id⟩) := by
  unfold Model.beginTrace Graph.beginTrace
  rw [if_neg (by simpa using hnew)]
  rfl

theorem Session.Quiet.begin {s : Session} {id : TraceId} (hs : s.Quiet)
    (hnew : ∀ t ∈ s.model.graph.traces, t.id ≠ id) : (s.begin id).Quiet := by
  have hb := Model.beginTrace_graph (beginTrace_new hnew)
  exact ⟨⟨hs.sound.canonical.beginTrace hb,
    fun name state h => (kept_beginTrace hb).state _ _ (hs.sound.known name state h)⟩, hs.steady⟩

theorem Session.Quiet.commit {s : Session} {id : TraceId} (settings : Settings) (files : Tree)
    (records : List Record) (hs : s.Quiet) {h : TraceHandle}
    (ht : s.model.graph.traceOf? h = some (Trace.new id)) :
    (s.commit h (consider settings files s.survey records)).Quiet := by
  obtain ⟨hsound, -, htraces, hadmits, hfollows⟩ := consider_spec settings files records hs.sound
  have hslot : (consider settings files s.survey records).survey.graph.traces[h.slot]? =
      some (Trace.new id) := by
    rw [htraces]
    exact (traceOf?_eq_some_iff.1 ht).1
  exact ⟨⟨hsound.canonical.extendTrace hslot hfollows hadmits, hsound.known⟩,
    Model.steady_committed _ hs.steady⟩

theorem begin_traceOf? (s : Session) (id : TraceId) :
    (s.begin id).model.graph.traceOf? ⟨s.model.graph.traces.length, id⟩ = some (Trace.new id) := by
  refine traceOf?_eq_some_iff.2 ⟨?_, rfl⟩
  simp [Session.begin]

/-- The records of a trace file are among its items. -/
theorem ofItems_records {policy : MalformedPolicy} {items : List Item} {r : Record}
    (h : r ∈ (Intake.ofItems policy items).records) : .ok r ∈ items := by
  induction items with
  | nil => cases h
  | cons item items ih =>
    cases item with
    | ok first =>
      rcases List.mem_cons.1 h with rfl | h
      · exact List.mem_cons_self
      · exact List.mem_cons_of_mem _ (ih h)
    | error e =>
      unfold Intake.ofItems at h
      split at h
      · split at h
        · exact List.mem_cons_of_mem _ (ih h)
        · cases h
      · cases h

/-- All that can become of a trace file. -/
theorem processTrace_eq (settings : Settings) (files : Tree) {s : Session} (source : Source)
    (hs : s.Quiet) :
    processTrace settings files s source =
      let report := TraceReport.new source.path source.trace
      let begun := s.begin source.trace
      if s.model.graph.traces.any (·.id = source.trace) then
        (s, { report with error := some (.graph (.duplicateTrace source.trace)) })
      else
        match openFile files source.path .trace settings.separator with
        | .error e => (begun, { report with error := some (.read e) })
        | .ok items =>
          let intake := Intake.ofItems settings.malformed items
          let c := consider settings files begun.survey intake.records
          (begun.commit ⟨s.model.graph.traces.length, source.trace⟩ c, c.report report intake) := by
  dsimp only
  split
  · rename_i hold
    unfold processTrace Model.beginTrace Graph.beginTrace
    rw [if_pos hold]
  · rename_i hnew
    unfold processTrace
    rw [beginTrace_new (by simpa using hnew)]
    dsimp only
    cases openFile files source.path .trace settings.separator with
    | error e => rfl
    | ok items =>
      exact settle_eq settings files _ _ (hs.begin (by simpa using hnew))
        (begin_traceOf? s source.trace)

theorem Session.Quiet.processTrace (settings : Settings) (files : Tree) {s : Session}
    (source : Source) (hs : s.Quiet) : (processTrace settings files s source).1.Quiet := by
  rw [processTrace_eq settings files source hs]
  dsimp only
  split
  · exact hs
  · rename_i hnew
    have hbegun : (s.begin source.trace).Quiet := hs.begin (by simpa using hnew)
    split
    · exact hbegun
    · exact hbegun.commit settings files _ (begin_traceOf? s source.trace)

theorem Session.Quiet.new {watchers : List Watcher} (h : ∀ w ∈ watchers, w.isSteady = true) :
    (Session.new watchers).Quiet :=
  ⟨Survey.ofGraph_sound canonical_initial, h⟩

/-! ## The commit mode -/

theorem resolve_commitMode (settings : Settings) (mode : CommitMode) (files : Tree) (s : Survey)
    (raw : String) :
    s.resolve { settings with commitMode := mode } files raw = s.resolve settings files raw := by
  have hpath : ∀ name, Settings.statePath { settings with commitMode := mode } name =
    settings.statePath name := fun _ => rfl
  have hlayout : Settings.widgetLayout { settings with commitMode := mode } =
    settings.widgetLayout := rfl
  simp only [Survey.resolve, Survey.lookUp, hpath, hlayout]

theorem consider_commitMode (settings : Settings) (mode : CommitMode) (files : Tree) (s : Survey)
    (records : List Record) :
    consider { settings with commitMode := mode } files s records =
      consider settings files s records := by
  have hattempt : attemptAll { settings with commitMode := mode } files s records =
      attemptAll settings files s records := by
    induction records generalizing s with
    | nil => rfl
    | cons r records ih =>
      rw [attemptAll_cons, attemptAll_cons]
      dsimp only
      rw [ih, resolve_commitMode]
  simp only [consider, hattempt]

theorem runSources_commitMode (settings : Settings) (mode : CommitMode) (files : Tree)
    (stopped : Bool) {s : Session} (sources : List Source) (hs : s.Quiet) :
    runSources { settings with commitMode := mode } files stopped s sources =
      runSources settings files stopped s sources := by
  induction sources generalizing s stopped with
  | nil => cases stopped <;> rfl
  | cons source sources ih =>
    cases stopped with
    | true => rfl
    | false =>
      have hsame : processTrace { settings with commitMode := mode } files s source =
          processTrace settings files s source := by
        rw [processTrace_eq _ files source hs, processTrace_eq _ files source hs]
        simp only [consider_commitMode]
      simp only [runSources, hsame]
      rw [ih _ (hs.processTrace settings files source)]

/-- With watchers that never break off, a load gives the same model and the same report whether
actions are committed one by one or in batches. The model has the watchers in it, with all that
they have collected. -/
theorem load_commitMode (settings : Settings) (files : Tree) (watchers : List Watcher)
    (cancelled : Bool) (hsteady : ∀ w ∈ watchers, w.isSteady = true) :
    load { settings with commitMode := .batch } files watchers cancelled =
      load { settings with commitMode := .perAction } files watchers cancelled := by
  have hmode : ∀ mode, load { settings with commitMode := mode } files watchers cancelled =
      load settings files watchers cancelled := by
    intro mode
    simp only [load]
    cases files.list settings.baseDir with
    | error e => rfl
    | ok names =>
      have hdiscover : discover { settings with commitMode := mode } names =
        discover settings names := rfl
      simp only [hdiscover, runSources_commitMode settings mode files cancelled _ (.new hsteady)]
  rw [hmode .batch, hmode .perAction]

def haltedSettings : Settings :=
  (Settings.ofBase ⟨"m"⟩).sequential

/-- Three traces that stop midway: at a malformed line, at a line that is not UTF-8, and at a record
that leads to a state without a file. The last one also has a record that starts nowhere. -/
def haltedFiles : Tree where
  cwd := ["work"]
  nodes := [
    (["work"], .directory),
    (["work", "m"], .directory),
    (["work", "m", "states"], .directory),
    (["work", "m", "states", "s1.csv"],
      .file (Text.utf8 "b;Button;ok;app;/b;OK;true;;;;;1:1:2:2\n")),
    (["work", "m", "trace00000000-0000-0000-0000-000000000001.csv"], .file (Text.utf8 <|
      "LaunchApp;da39a3ee-5e6b-4b0d-3255-bfef95601890;s1;;\n" ++
      "Click;s1;s1;b;\n" ++
      "Click;s1\n" ++
      "Click;s1;s1;b;\n")),
    (["work", "m", "trace00000000-0000-0000-0000-000000000002.csv"], .file <|
      Text.utf8 "LongClick;s1;s1;b;;;;;;[\"log\"]\n" ++
      [0xFF, 0x0A] ++
      Text.utf8 "Click;s1;s1;b;\n"),
    (["work", "m", "trace00000000-0000-0000-0000-000000000003.csv"], .file (Text.utf8 <|
      "Click;nowhere;s1;b;\n" ++
      "Click;s1;s1;b;\n" ++
      "Click;s1;gone;b;\n" ++
      "Click;s1;s1;b;\n"))]

def haltedWatchers : List Watcher :=
  [.tally .empty, .clicks .empty]

/-- Four actions are committed before the three traces stop, one record is dropped on the way, and
both watchers have seen the four. -/
theorem load_commitMode_halted :
    (∀ w ∈ haltedWatchers, w.isSteady = true) ∧
      (load { haltedSettings with commitMode := .perAction } haltedFiles haltedWatchers
          false).toOption.map (fun l =>
        (l.report.traces.map fun r => (r.committed, r.error.map (·.message)),
          ((l.report.traces.flatMap (·.issues)).filter (·.kind.isFailure)).map (·.message),
          l.model.watchers.map (·.report))) =
        some (
          [(2, some ("malformed trace record at " ++
              "m/trace00000000-0000-0000-0000-000000000001.csv:3: " ++
              "expected at least 4 fields, found 2")),
            (1, some ("failed to read m/trace00000000-0000-0000-0000-000000000002.csv: " ++
              "invalid utf-8 sequence of 1 bytes from index 0")),
            (1, some "no state record for 'gone' at m/states/gone.csv")],
          ["unresolved source state 'nowhere' (line 1)"],
          ["action\tcount\nClick\t2\nLongClick\t1\nLaunchApp\t1\n",
            "trace\tactionNr\ttext\twidget\tlog\n" ++
              "00000000-0000-0000-0000-000000000001\t1\tOK\t" ++
                "9ad7d5d8-4b11-4964-e0e7-ac3edbeca24f\t\n" ++
              "00000000-0000-0000-0000-000000000002\t0\tOK\t" ++
                "9ad7d5d8-4b11-4964-e0e7-ac3edbeca24f\tlog\n" ++
              "00000000-0000-0000-0000-000000000003\t1\tOK\t" ++
                "9ad7d5d8-4b11-4964-e0e7-ac3edbeca24f\t\n"]) ∧
      load { haltedSettings with commitMode := .batch } haltedFiles haltedWatchers false =
        load { haltedSettings with commitMode := .perAction } haltedFiles haltedWatchers false := by
  refine ⟨by decide, ?_, load_commitMode haltedSettings haltedFiles haltedWatchers false ?_⟩
  · decide +kernel
  · decide

end Load
end ScreenGraph
