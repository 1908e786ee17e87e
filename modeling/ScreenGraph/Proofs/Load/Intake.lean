import Mathlib.Data.List.TakeWhile
import ScreenGraph.Proofs.Load.Completeness

/-!
# ScreenGraph.Proofs.Load.Intake

What is read of a trace file, and what reading has to do with the report on it.

A file that cannot be opened is one of which nothing is read. Of any other, reading takes the rows
with enough fields, up to the end of the file or to where the policy stops it. Only these records
count for the session: malformed lines and the reason to stop go to the report alone, the lines in
front of the other issues and the reason behind every other error.

* `ofItems_eq`: the intake of a file from its rows.
* `processTrace_reading`: a trace file is begun, read and settled.
* `foldl_addOutcome`: all that the records of a file add to its report.
* `settle_ahead`: what more malformed lines and another reason to stop change.
-/

namespace ScreenGraph

open Files Graph Identity Record Screen Watch

namespace Load

/-! ## Reading -/

namespace Intake

/-- What is taken in of some rows with a failure behind them. -/
def ofRows (policy : MalformedPolicy) (path : Path) (rows : List Record)
    (failure : Option ReadError) : Intake :=
  match policy with
  | .skip =>
    ⟨rows.filter Layout.trace.accepts,
      (rows.filter (!Layout.trace.accepts ·)).map (Layout.trace.rejection path), failure⟩
  | .abortTrace =>
    let rejected := (rows.find? (!Layout.trace.accepts ·)).map (Layout.trace.rejection path)
    ⟨rows.takeWhile Layout.trace.accepts, rejected.toList, rejected.or failure⟩

theorem ofItems_failure (policy : MalformedPolicy) {failure : Option ReadError}
    (hfailure : ∀ e, failure = some e → e.isMalformed = false) :
    ofItems policy (failure.map Except.error).toList = ⟨[], [], failure⟩ := by
  cases failure with
  | none => rfl
  | some e => simp [ofItems, hfailure e rfl]

theorem ofItems_eq (policy : MalformedPolicy) (path : Path) (rows : List Record)
    {failure : Option ReadError} (hfailure : ∀ e, failure = some e → e.isMalformed = false) :
    ofItems policy
        (rows.map (Layout.trace.item path) ++ (failure.map Except.error).toList) =
      ofRows policy path rows failure := by
  induction rows with
  | nil =>
    rw [List.map_nil, List.nil_append, ofItems_failure policy hfailure]
    cases policy <;> rfl
  | cons r rows ih =>
    cases haccepts : Layout.trace.accepts r with
    | true =>
      have hitem : Layout.trace.item path r = .ok r := by simp [Layout.item, haccepts]
      rw [List.map_cons, List.cons_append, hitem, ofItems, ih]
      cases policy <;> simp [ofRows, haccepts]
    | false =>
      have hitem : Layout.trace.item path r = .error (Layout.trace.rejection path r) := by
        simp [Layout.item, haccepts]
      have hkind : (Layout.trace.rejection path r).isMalformed = true := rfl
      simp only [List.map_cons, List.cons_append, hitem, ofItems, hkind, if_true, ih]
      cases policy <;> simp [ofRows, haccepts]

theorem ofRows_accepted (policy : MalformedPolicy) (path : Path) {rows : List Record}
    (failure : Option ReadError) (h : ∀ r ∈ rows, Layout.trace.accepts r = true) :
    ofRows policy path rows failure = ⟨rows, [], failure⟩ := by
  have hrejected : rows.find? (!Layout.trace.accepts ·) = none := by simpa using h
  cases policy with
  | abortTrace =>
    simp only [ofRows, hrejected, List.takeWhile_eq_self_iff.2 h]
    rfl
  | skip =>
    have hnone : rows.filter (!Layout.trace.accepts ·) = [] := by simpa using h
    simp only [ofRows, hnone, List.filter_eq_self.2 h]
    rfl

theorem ofRows_rejected (path : Path) {before after : List Record} {r : Record}
    (failure : Option ReadError) (hbefore : ∀ b ∈ before, Layout.trace.accepts b = true)
    (hr : Layout.trace.accepts r = false) :
    ofRows .abortTrace path (before ++ r :: after) failure =
      ⟨before, [Layout.trace.rejection path r], some (Layout.trace.rejection path r)⟩ := by
  have hfirst : (before ++ r :: after).find? (!Layout.trace.accepts ·) = some r := by
    refine List.find?_eq_some_iff_append.2 ⟨by simpa using hr, before, after, rfl, ?_⟩
    simpa using hbefore
  simp only [ofRows, hfirst, List.takeWhile_append_of_pos hbefore, List.takeWhile_cons, hr]
  simp

/-- The same records, with more malformed lines in front and another reason to stop behind. -/
def ahead (malformed : List ReadError) (stop : Option ReadError) (intake : Intake) : Intake :=
  { intake with malformed := malformed ++ intake.malformed, stop := intake.stop.or stop }

end Intake

/-- What is read of a trace file. -/
def reading (settings : Settings) (files : Tree) (source : Source) : Intake :=
  match files.find source.path with
  | .error e => ⟨[], [], some (.io source.path (.os e))⟩
  | .ok .directory => ⟨[], [], some (.io source.path (.os .isDirectory))⟩
  | .ok (.file content) =>
    .ofRows settings.malformed source.path (traceRows settings content)
      ((texts (lines content)).2.map fun e => .io source.path (.utf8 e))

section

variable (settings : Settings) (files : Tree)

/-- Nothing comes of a file of which nothing is read. -/
theorem settle_nothing (s : Session) (h : TraceHandle) (report : TraceReport) (e : ReadError) :
    settle settings files s h report ⟨[], [], some e⟩ =
      (s, { report with error := some (.read e) }) := by
  have hsession : s.withSurvey s.survey = s := rfl
  simp only [settle, attemptAll, outcomesFrom, hsession, List.foldl_nil]
  split <;> rfl

theorem reading_eq (source : Source) :
    reading settings files source =
      match openFile files source.path .trace settings.separator with
      | .error e => ⟨[], [], some e⟩
      | .ok items => .ofItems settings.malformed items := by
  unfold reading openFile
  cases files.find source.path with
  | error e => rfl
  | ok node =>
    cases node with
    | directory => rfl
    | file content =>
      have hfailure : ∀ e, ((texts (lines content)).2.map fun e =>
          ReadError.io source.path (.utf8 e)) = some e → e.isMalformed = false := by
        intro e he
        obtain ⟨u, -, rfl⟩ := Option.map_eq_some_iff.1 he
        rfl
      have hintake := Intake.ofItems_eq settings.malformed source.path
        (traceRows settings content) hfailure
      simp only [Option.map_map] at hintake
      simp only [itemsFrom_eq]
      exact hintake.symm

theorem processTrace_reading (s : Session) (source : Source) :
    processTrace settings files s source =
      let report := TraceReport.new source.path source.trace
      match s.model.beginTrace source.trace with
      | .error e => (s, { report with error := some (.graph e) })
      | .ok (model, h) =>
        settle settings files { s with model } h report (reading settings files source) := by
  rw [reading_eq]
  unfold processTrace
  dsimp only
  cases s.model.beginTrace source.trace with
  | error e => rfl
  | ok begun =>
    obtain ⟨model, h⟩ := begun
    dsimp only
    cases openFile files source.path .trace settings.separator with
    | error e => exact (settle_nothing settings files _ h _ _).symm
    | ok items => rfl

/-- What becomes of a trace file whose trace is not there. -/
theorem processTrace_begun {s : Session} {source : Source} (hs : s.Quiet)
    (hnew : ∀ t ∈ s.model.graph.traces, t.id ≠ source.trace) :
    processTrace settings files s source =
      let begun := s.begin source.trace
      let intake := reading settings files source
      let c := consider settings files begun.survey intake.records
      (begun.commit ⟨s.model.graph.traces.length, source.trace⟩ c,
        c.report (TraceReport.new source.path source.trace) intake) := by
  rw [processTrace_reading, beginTrace_new hnew]
  exact settle_eq settings files _ _ (hs.begin hnew) (begin_traceOf? s source.trace)

end

/-! ## What records and reading add to a report -/

/-- The issues that a note is, in the report on a trace file. -/
def Note.issues (source : Source) (line : Nat) (note : Note) : List Issue :=
  ((TraceReport.new source.path source.trace).addNote line note).issues

/-- The issues on a record. -/
def Outcome.issues (source : Source) : Outcome → List Issue
  | .dropped line error =>
    [⟨.unresolvedState, source.path, some source.trace, some line, error.message⟩]
  | .resolved line resolution => resolution.notes.flatMap (·.issues source line)

namespace TraceReport

variable (r : TraceReport)

theorem addNote_eq (line : Nat) (note : Note) :
    r.addNote line note = { r with issues := r.issues ++ note.issues r.origin line } := by
  cases note <;> rfl

theorem addOutcome_eq (outcome : Outcome) :
    r.addOutcome outcome = { r with issues := r.issues ++ outcome.issues r.origin } := by
  cases outcome with
  | dropped line error => rfl
  | resolved line resolution =>
    simp only [addOutcome, Outcome.issues]
    induction resolution.notes generalizing r with
    | nil => simp
    | cons note notes ih =>
      rw [List.foldl_cons, ih, addNote_eq, List.flatMap_cons, ← List.append_assoc]
      rfl

/-- Records add issues to a report and change nothing else of it. -/
theorem foldl_addOutcome (outcomes : List Outcome) :
    outcomes.foldl addOutcome r =
      { r with issues := r.issues ++ outcomes.flatMap (·.issues r.origin) } := by
  induction outcomes generalizing r with
  | nil => simp
  | cons outcome outcomes ih =>
    rw [List.foldl_cons, ih, addOutcome_eq, List.flatMap_cons, ← List.append_assoc]
    rfl

/-- The report with more issues in front, and with an error if it has none. -/
def preface (r : TraceReport) (issues : List Issue) (error : Option LoadError) : TraceReport :=
  { r with issues := issues ++ r.issues, error := r.error.or error }

theorem preface_addOutcome (issues : List Issue) (error : Option LoadError) (outcome : Outcome) :
    (r.preface issues error).addOutcome outcome =
      (r.addOutcome outcome).preface issues error := by
  rw [addOutcome_eq, addOutcome_eq]
  simp only [preface, List.append_assoc]
  rfl

theorem preface_foldl (issues : List Issue) (error : Option LoadError)
    (outcomes : List Outcome) :
    outcomes.foldl addOutcome (r.preface issues error) =
      (outcomes.foldl addOutcome r).preface issues error := by
  rw [foldl_addOutcome, foldl_addOutcome]
  simp only [preface, List.append_assoc]
  rfl

/-- All malformed lines at once. -/
theorem foldl_malformed (source : Source) (horigin : r.origin = source)
    (errors : List ReadError) :
    errors.foldl (fun r e => r.addIssue .malformedRecord none e.message) r =
      { r with issues := r.issues ++ errors.map (malformedIssue source) } := by
  induction errors generalizing r with
  | nil => simp
  | cons e errors ih =>
    rw [List.foldl_cons, ih (r.addIssue .malformedRecord none e.message) horigin]
    subst horigin
    simp [addIssue, malformedIssue, origin]

end TraceReport

theorem commitEach_preface (h : TraceHandle) (m : Model) (report : TraceReport)
    (issues : List Issue) (error : Option LoadError) (outcomes : List Outcome) :
    commitEach h m (report.preface issues error) outcomes =
      let settled := commitEach h m report outcomes
      { settled with report := settled.report.preface issues error } := by
  induction outcomes generalizing m report with
  | nil => rfl
  | cons outcome outcomes ih =>
    simp only [commitEach, TraceReport.preface_addOutcome]
    cases outcome.action? with
    | none => exact ih m _
    | some a =>
      dsimp only
      cases m.append h a with
      | error e => rfl
      | ok announced =>
        obtain ⟨m', n, broken⟩ := announced
        cases broken with
        | true => rfl
        | false => exact ih m' { report.addOutcome outcome with
            committed := (report.addOutcome outcome).committed + n }

theorem commitBatch_preface (h : TraceHandle) (m : Model) (report : TraceReport)
    (issues : List Issue) (error : Option LoadError) (outcomes : List Outcome) :
    commitBatch h m (report.preface issues error) outcomes =
      let settled := commitBatch h m report outcomes
      { settled with report := settled.report.preface issues error } := by
  simp only [commitBatch, TraceReport.preface_foldl]
  cases m.appendAll h (outcomes.filterMap (·.action?)) <;> rfl

/-- What was read of a trace file, and why its records go no further, as its report has it. -/
def TraceReport.noted (source : Source) (intake : Intake) (failure : Option LoadError) :
    TraceReport :=
  { TraceReport.new source.path source.trace with
    issues := intake.malformed.map (malformedIssue source)
    error := failure.or (intake.stop.map .read) }

theorem TraceReport.noted_ahead (source : Source) (intake : Intake) (failure : Option LoadError)
    (malformed : List ReadError) (stop : Option ReadError) :
    noted source (intake.ahead malformed stop) failure =
      (noted source intake failure).preface (malformed.map (malformedIssue source))
        (stop.map .read) := by
  simp [noted, preface, Intake.ahead, Option.or_assoc, Option.map_or]

/-- Commits one by one or in a batch. -/
def commitWith (each : Bool) (h : TraceHandle) (m : Model) (report : TraceReport)
    (outcomes : List Outcome) : Settled :=
  if each then commitEach h m report outcomes else commitBatch h m report outcomes

theorem commitWith_preface (each : Bool) (h : TraceHandle) (m : Model) (report : TraceReport)
    (issues : List Issue) (error : Option LoadError) (outcomes : List Outcome) :
    commitWith each h m (report.preface issues error) outcomes =
      let settled := commitWith each h m report outcomes
      { settled with report := settled.report.preface issues error } := by
  cases each with
  | true => exact commitEach_preface h m report issues error outcomes
  | false => exact commitBatch_preface h m report issues error outcomes

/-- A report and the same with what more was read. Nothing of it is said where a watcher breaks off
or the trace is there already. -/
inductive Prefaced (issues : List Issue) (error : Option LoadError) (r : TraceReport) :
    TraceReport → Prop where
  | broke (h : r.error = some .watcherBroke) : Prefaced issues error r r
  | taken (h : r.error = some (.graph (.duplicateTrace r.trace))) : Prefaced issues error r r
  | read : Prefaced issues error r (r.preface issues error)

section

variable (settings : Settings) (files : Tree) (s : Session) (h : TraceHandle) (source : Source)
  (intake : Intake)

theorem settle_noted :
    settle settings files s h (TraceReport.new source.path source.trace) intake =
      let attempted := attemptAll settings files s.survey intake.records
      let considered := outcomesFrom attempted.1 0 attempted.2
      let s := s.withSurvey attempted.1
      let settled := commitWith (settings.perAction (!s.model.watchers.isEmpty)) h s.model
        (.noted source intake considered.2) considered.1
      ({ s with model := settled.model },
        if settled.broken then
          { TraceReport.new source.path source.trace with error := some .watcherBroke }
        else settled.report) := by
  simp only [settle,
    TraceReport.foldl_malformed (TraceReport.new source.path source.trace) source rfl]
  rfl

/-- More malformed lines and another reason to stop are reported, and that is all. -/
theorem settle_ahead (malformed : List ReadError) (stop : Option ReadError) :
    let report := TraceReport.new source.path source.trace
    let a := settle settings files s h report intake
    let b := settle settings files s h report (intake.ahead malformed stop)
    b.1 = a.1 ∧ Prefaced (malformed.map (malformedIssue source)) (stop.map .read) a.2 b.2 := by
  have hrecords : (intake.ahead malformed stop).records = intake.records := rfl
  simp only [settle_noted, hrecords, TraceReport.noted_ahead, commitWith_preface, true_and]
  generalize commitWith _ h _ _ _ = settled
  cases settled.broken with
  | true => exact .broke rfl
  | false => exact .read

end

end Load
end ScreenGraph
