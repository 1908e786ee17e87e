import ScreenGraph.Proofs.Load.Comparison
import ScreenGraph.Proofs.Load.Lookups
import ScreenGraph.Proofs.Load.Selection

/-!
# ScreenGraph.Proofs.Load.Origins

Where the actions of a load come from.

A trace file is read once all files before it have been gone through, and its records are resolved
once all their result states have been looked up. So each action of a load goes back to one record,
and what was known of names and ids when that record was resolved is told by the state files that
had been read by then. The watchers have no say in it: one that breaks off keeps actions from being
committed and changes none.

* `Graph.Extended`: what commits to one trace do to all traces.
* `settle_extended`: what a trace file commits is what its records stand for.
* `processTrace_underway`: a trace file keeps the origins.
* `load_origins`: the origin of every action of a load.
-/

namespace ScreenGraph

open Files Graph Identity Record Screen Watch

namespace Graph

/-- No trace is added, and only the one with the id has more actions, which are as said. -/
structure Extended (id : TraceId) (P : Action → Prop) (g g' : Graph) : Prop where
  ids : g'.traces.map (·.id) = g.traces.map (·.id)
  actions : ∀ t' ∈ g'.traces, ∀ a ∈ t'.actions,
    (∃ t ∈ g.traces, t.id = t'.id ∧ a ∈ t.actions) ∨ t'.id = id ∧ P a

namespace Extended

variable {id : TraceId} {P : Action → Prop} {g g' g'' : Graph}

theorem refl (g : Graph) : Extended id P g g :=
  ⟨rfl, fun t ht _ ha => .inl ⟨t, ht, rfl, ha⟩⟩

theorem trans (h : Extended id P g g') (h' : Extended id P g' g'') : Extended id P g g'' where
  ids := h'.ids.trans h.ids
  actions t'' ht'' a ha := by
    rcases h'.actions t'' ht'' a ha with ⟨t', ht', hid, ha'⟩ | hnew
    · rw [← hid]
      exact h.actions t' ht' a ha'
    · exact .inr hnew

/-- A commit to the trace of a handle. -/
theorem commit {h : TraceHandle} {t : Trace} {as : List Action} (ht : g.traceOf? h = some t)
    (has : ∀ a ∈ as, P a) : Extended h.id P g (g.extendTrace h.slot as) where
  ids := extendTrace_ids g h.slot as
  actions t' ht' a ha := by
    obtain ⟨hslot, hid⟩ := traceOf?_eq_some_iff.1 ht
    rcases mem_extendTrace ht' with hold | ⟨u, hu, rfl⟩
    · exact .inl ⟨t', hold, rfl, ha⟩
    · rw [hslot] at hu
      cases hu
      rcases List.mem_append.1 ha with ha | ha
      · exact .inl ⟨t, List.mem_of_getElem? hslot, rfl, ha⟩
      · exact .inr ⟨hid, has a ha⟩

end Extended
end Graph

namespace Load

variable {settings : Settings} {files : Tree} {P : Action → Prop} {h : TraceHandle}

/-! ## Commits -/

theorem commitEach_extended {m : Model} {report : TraceReport} {outcomes : List Outcome}
    (hall : ∀ a ∈ actionsOf outcomes, P a) :
    Extended h.id P m.graph (commitEach h m report outcomes).model.graph := by
  induction outcomes generalizing m report with
  | nil => exact .refl _
  | cons outcome outcomes ih =>
    simp only [actionsOf, List.filterMap_cons] at hall ih
    simp only [commitEach]
    cases haction : outcome.action? with
    | none =>
      rw [haction] at hall
      exact ih hall
    | some a =>
      rw [haction] at hall
      obtain ⟨ha, hrest⟩ := List.forall_mem_cons.1 hall
      cases happend : m.append h a with
      | error e =>
        simp only [happend]
        exact .refl _
      | ok announced =>
        obtain ⟨m', count, broken⟩ := announced
        obtain ⟨t, ht, -, -, hgraph⟩ := append_ok_iff.1 (Model.append_graph happend)
        have hfirst : Extended h.id P m.graph m'.graph := by
          rw [hgraph]
          exact .commit ht (by simpa using ha)
        simp only [happend]
        cases broken with
        | true => exact hfirst
        | false => exact hfirst.trans (ih hrest)

theorem commitBatch_extended {m : Model} {report : TraceReport} {outcomes : List Outcome}
    (hall : ∀ a ∈ actionsOf outcomes, P a) :
    Extended h.id P m.graph (commitBatch h m report outcomes).model.graph := by
  simp only [commitBatch]
  cases happend : m.appendAll h (outcomes.filterMap (·.action?)) with
  | error e => exact .refl _
  | ok announced =>
    have hgraph := Model.appendAll_graph happend
    by_cases hne : actionsOf outcomes = []
    · rw [actionsOf] at hne
      rw [hne] at hgraph
      have hsame : m.graph = announced.model.graph := Except.ok.inj hgraph
      rw [hsame]
      exact .refl _
    · obtain ⟨t, ht, -, -, hsame⟩ := (appendAll_ok_iff hne).1 hgraph
      rw [hsame]
      exact .commit ht hall

/-! ## Records -/

theorem mem_metFrom {attempts : List Attempt} {p : Attempt × Nat} (h : p ∈ metFrom 0 attempts) :
    attempts[p.2]? = some p.1 := by
  have hmet := List.mem_zipIdx_iff_getElem?.1 h
  obtain ⟨hlt, -⟩ := List.getElem?_eq_some_iff.1 hmet
  obtain ⟨back, hback⟩ := List.takeWhile_prefix (l := attempts) fun attempt : Attempt =>
    attempt.error?.isNone
  rw [← hback, List.getElem?_append_left hlt]
  exact hmet

theorem mem_of_forall₂ {α β : Type} {R : α → β → Prop} {as : List α} {bs : List β}
    (h : List.Forall₂ R as bs) {b : β} (hb : b ∈ bs) : ∃ a ∈ as, R a b := by
  induction h with
  | nil => cases hb
  | cons hfirst _ ih =>
    rcases List.mem_cons.1 hb with rfl | hb
    · exact ⟨_, List.mem_cons_self, hfirst⟩
    · obtain ⟨a, ha, hrest⟩ := ih hb
      exact ⟨a, List.mem_cons_of_mem _ ha, hrest⟩

/-- Every action of a trace file stands for the record at its index. -/
theorem outcomesFrom_origin {s : Survey} {attempts : List Attempt} {a : Action}
    (ha : a ∈ actionsOf (outcomesFrom s 0 attempts).1) :
    ∃ attempt, attempts[a.index]? = some attempt ∧ Stands s (attempt, a.index) a := by
  obtain ⟨⟨attempt, index⟩, hp, hstands⟩ := mem_of_forall₂ (outcomesFrom_stands s 0 attempts) ha
  have hmet := mem_metFrom (List.mem_filter.1 hp).1
  obtain rfl : a.index = index := hstands.index
  exact ⟨attempt, hmet, hstands⟩

/-- What a trace file commits is what its records stand for. -/
theorem settle_extended (settings : Settings) (files : Tree) {s : Session} (h : TraceHandle)
    (report : TraceReport) (intake : Intake) (hs : s.survey.Sound) :
    let attempted := attemptAll settings files s.survey intake.records
    Extended h.id (fun a => ∃ attempt, attempted.2[a.index]? = some attempt ∧
      Stands attempted.1 (attempt, a.index) a) s.model.graph
      (settle settings files s h report intake).1.model.graph := by
  intro attempted
  obtain ⟨-, -, htraces, -⟩ := attemptAll_spec settings files intake.records hs
  have hbefore : ∀ P, Extended h.id P s.model.graph
      (s.withSurvey (consider settings files s.survey intake.records).survey).model.graph :=
    fun P => ⟨congrArg _ htraces, fun t ht a ha => .inl ⟨t, htraces ▸ ht, rfl, ha⟩⟩
  obtain ⟨report', hmodel | hmodel⟩ := @settle_commits settings files s h report intake
  · rw [hmodel]
    exact (hbefore _).trans (commitEach_extended fun a => outcomesFrom_origin)
  · rw [hmodel]
    exact (hbefore _).trans (commitBatch_extended fun a => outcomesFrom_origin)

/-! ## Runs -/

/-- Where an action of the trace with an id comes from: the record at its index in the first trace
file with the id, resolved when all that the trace files up to that one name had been looked up. -/
inductive Origin (settings : Settings) (files : Tree) (sources : List Source) (id : TraceId)
    (a : Action) : Prop where
  | record {earlier later : List Source} {source : Source} {r : Record} {result : State}
    {notes : List Note} {s : Survey} (hsources : sources = earlier ++ source :: later)
    (hid : source.trace = id) (hfirst : ∀ other ∈ earlier, other.trace ≠ id)
    (hrecord : (recordsRead settings files source)[a.index]? = some r)
    (hread : s.HasRead (filesRead settings files (namesRead settings files (earlier ++ [source]))))
    (hresolved : resolve s a.index r result = .ok ⟨a, result, notes⟩) :
    Origin settings files sources id a

/-- A run over some sources that has gone through the earlier ones. -/
structure Underway (settings : Settings) (files : Tree) (sources earlier : List Source)
    (s : Session) : Prop where
  read : s.survey.HasRead (filesRead settings files (namesRead settings files earlier))
  ids : s.begunIds = earlier.map (·.trace)
  origins : ∀ t ∈ s.model.graph.traces, ∀ a ∈ t.actions, Origin settings files sources t.id a

variable {s : Session} {sources earlier later : List Source} {source : Source}

theorem filesRead_concat (settings : Settings) (files : Tree) (earlier : List Source)
    (source : Source) :
    filesRead settings files (namesRead settings files (earlier ++ [source])) =
      ((recordsRead settings files source).map resultName).foldl (readNext settings files)
        (filesRead settings files (namesRead settings files earlier)) := by
  rw [filesRead, namesRead, List.flatMap_append, List.foldl_append, List.flatMap_singleton]
  rfl

theorem begin_begunIds (s : Session) (id : TraceId) :
    (s.begin id).begunIds = s.begunIds ++ [id] := by
  simp [Session.begunIds, Session.begin, Trace.new]

/-- A trace that can be begun is that of no file before. -/
theorem Underway.first (hs : Underway settings files sources earlier s) {id : TraceId}
    (hnew : ∀ t ∈ s.model.graph.traces, t.id ≠ id) : ∀ other ∈ earlier, other.trace ≠ id := by
  intro other hother hid
  have hmem : id ∈ s.begunIds := by
    rw [hs.ids, ← hid]
    exact List.mem_map_of_mem hother
  obtain ⟨t, ht, hsame⟩ := List.mem_map.1 hmem
  exact hnew t ht hsame

/-- A trace has no actions when it is begun. -/
theorem Underway.begin_origins (hs : Underway settings files sources earlier s) {id : TraceId}
    {t : Trace} {a : Action} (ht : t ∈ (s.begin id).model.graph.traces) (ha : a ∈ t.actions) :
    Origin settings files sources t.id a := by
  rcases List.mem_append.1 ht with hold | hnew
  · exact hs.origins t hold a ha
  · rw [List.mem_singleton.1 hnew] at ha
    cases ha

/-- A trace file whose trace is new. -/
theorem processTrace_settle (settings : Settings) (files : Tree)
    (hnew : ∀ t ∈ s.model.graph.traces, t.id ≠ source.trace) :
    processTrace settings files s source =
      settle settings files (s.begin source.trace) ⟨s.model.graph.traces.length, source.trace⟩
        (TraceReport.new source.path source.trace) (reading settings files source) := by
  rw [processTrace_reading, beginTrace_new hnew]
  rfl

/-- A trace file is not begun, and stops the run, or its actions have their origins. -/
theorem processTrace_underway (hsources : sources = earlier ++ source :: later)
    (hs : Underway settings files sources earlier s) :
    let after := processTrace settings files s source
    after.1 = s ∧ after.2.isFatal = true ∨
      Underway settings files sources (earlier ++ [source]) after.1 := by
  intro after
  cases hbegin : s.model.beginTrace source.trace with
  | error e =>
    have hafter : after = (s, { TraceReport.new source.path source.trace with
        error := some (.graph e) }) := by
      simp only [after, processTrace, hbegin]
    rw [hafter]
    exact .inl ⟨rfl, rfl⟩
  | ok begun =>
    obtain ⟨hnew, -, -⟩ := beginTrace_model hbegin
    have hafter := processTrace_settle settings files hnew
    have hbegun := hs.read.retraced (begin_retraced s source.trace)
      (begun_sound hs.read.canonical.toSound hnew)
    have hread := attemptAll_hasRead settings files hbegun (recordsRead settings files source)
    rw [← filesRead_concat] at hread
    have hsettled := @settle_retraced settings files _
      ⟨s.model.graph.traces.length, source.trace⟩ (TraceReport.new source.path source.trace)
      (reading settings files source) hbegun.toSound
    have hextended := settle_extended settings files
      ⟨s.model.graph.traces.length, source.trace⟩ (TraceReport.new source.path source.trace)
      (reading settings files source) hbegun.toSound
    rw [← hafter, reading_records] at hsettled hextended
    obtain ⟨hsound, hsame⟩ := hsettled
    refine .inr ⟨hread.retraced hsame hsound, ?_, ?_⟩
    · rw [Session.begunIds, hextended.ids, ← Session.begunIds, begin_begunIds, hs.ids,
        List.map_append]
      rfl
    · intro t' ht' a ha
      rcases hextended.actions t' ht' a ha with ⟨t, ht, hid, ha⟩ | ⟨hid, attempt, hmet, hstands⟩
      · rw [← hid]
        exact hs.begin_origins ht ha
      · obtain ⟨result, notes, -, hresolved⟩ := hstands.resolved
        rw [hid]
        refine .record hsources rfl (hs.first hnew) ?_ hread hresolved
        rw [← attemptAll_records settings files (s.begin source.trace).survey
          (recordsRead settings files source), List.getElem?_map, hmet]
        rfl

theorem runSources_underway {stopped : Bool} (hsources : sources = earlier ++ later)
    (hs : Underway settings files sources earlier s) :
    ∀ t ∈ (runSources settings files stopped s later).1.model.graph.traces, ∀ a ∈ t.actions,
      Origin settings files sources t.id a := by
  induction later generalizing s earlier stopped with
  | nil => cases stopped <;> exact hs.origins
  | cons source later ih =>
    cases stopped with
    | true => exact hs.origins
    | false =>
      rw [runSources_cons]
      rcases processTrace_underway hsources hs with ⟨hsame, hfatal⟩ | hafter
      · dsimp only
        rw [hfatal, hsame]
        cases later <;> exact hs.origins
      · exact ih (by simp [hsources]) hafter

/-- Every action of a load has its origin. -/
theorem load_origins {watchers : List Watcher} {names : List String} {cancelled : Bool}
    {l : Loaded} (hlist : files.list settings.baseDir = .ok names)
    (hload : load settings files watchers cancelled = .ok l) :
    ∀ t ∈ l.model.graph.traces, ∀ a ∈ t.actions,
      Origin settings files (traceFiles settings names) t.id a := by
  rw [load_graph hlist hload]
  have hstart : Underway settings files (traceFiles settings names) [] (Session.new watchers) :=
    ⟨.new watchers, rfl, nofun⟩
  exact runSources_underway rfl hstart

end Load
end ScreenGraph
