import ScreenGraph.Proofs.Export.Identities
import ScreenGraph.Proofs.Load.Acceptance
import ScreenGraph.Proofs.Load.Told

/-!
# ScreenGraph.Proofs.Load.Independence

Traces do not influence each other.

If trace files and state files are in good order, then a trace file comes to the same actions and to
the same report whichever files were processed before it, and the files may be processed in any
order.

* `outcomes_same`: the records of a trace file in two surveys.
* `processTrace_alone`: a trace file is processed as if it were alone.
* `runSources_alone`: so is each file of a run.
* `runSources_perm`: runs in two orders.
-/

namespace ScreenGraph

open Files Graph Identity Record Screen Watch

namespace Load

/-! ## Records -/

/-- Outcomes that may differ in what their result states show. -/
inductive SameOutcome : Outcome → Outcome → Prop where
  | dropped (line : Nat) (e : LoadError) : SameOutcome (.dropped line e) (.dropped line e)
  | resolved (line : Nat) (a : Action) (result result' : State) (notes : List Note) :
    SameOutcome (.resolved line ⟨a, result, notes⟩) (.resolved line ⟨a, result', notes⟩)

theorem SameOutcome.actions {outcomes outcomes' : List Outcome}
    (h : List.Forall₂ SameOutcome outcomes outcomes') :
    actionsOf outcomes = actionsOf outcomes' := by
  induction h with
  | nil => rfl
  | @cons outcome outcome' _ _ hfirst _ ih =>
    have haction : outcome.action? = outcome'.action? := by
      cases hfirst <;> rfl
    unfold actionsOf at ih ⊢
    rw [List.filterMap_cons, List.filterMap_cons, haction, ih]

theorem SameOutcome.report {outcomes outcomes' : List Outcome}
    (h : List.Forall₂ SameOutcome outcomes outcomes') (report : TraceReport) :
    outcomes.foldl .addOutcome report = outcomes'.foldl .addOutcome report := by
  induction h generalizing report with
  | nil => rfl
  | cons hfirst _ ih =>
    rw [List.foldl_cons, List.foldl_cons, ih]
    cases hfirst <;> rfl

/-- What a record is resolved to is a matter of ids. -/
theorem outcomeOf_same {s s' : Survey} {index : Nat} {r : Record} {S S' result result' : State}
    (hsource : s.settled? (Text.trim (r.field TraceColumn.source)) = some S)
    (hsource' : s'.settled? (Text.trim (r.field TraceColumn.source)) = some S')
    (hid : S.id = S'.id) (hresult : result.id = result'.id)
    (hfound : s.graph.widgetNamed? (rawTarget r) = s'.graph.widgetNamed? (rawTarget r))
    (hcontains : ∀ w, S.contains w = S'.contains w) :
    SameOutcome (outcomeOf s index r result) (outcomeOf s' index r result') := by
  have hmember : S.contains = S'.contains := funext hcontains
  have hrepair : ∀ target, repair r S result target = repair r S' result' target := by
    intro target
    simp only [repair, hid, hresult]
  unfold outcomeOf resolve
  simp only [hsource, hsource', hfound, hmember, hrepair, hid, hresult]
  exact .resolved _ _ _ _ _

section

variable {settings : Settings} {files : Tree} {sources : List Source} {source : Source}
  {told told' : List String} {s s' : Survey}

/-- A survey in which the result states of a trace file are settled. -/
structure Ready (settings : Settings) (files : Tree) (sources : List Source) (source : Source)
    (told : List String) (s : Survey) : Prop extends Told settings files sources told s where
  ready : ∀ name ∈ resultNames settings files source, name ∈ told

theorem names_of_source (hsource : source ∈ sources) {name : String}
    (hname : name ∈ resultNames settings files source) :
    name ∈ namesRead settings files sources :=
  List.mem_flatMap.2 ⟨source, hsource, hname⟩

theorem rawTarget_trim (r : Record) : Text.trim (rawTarget r) = rawTarget r := by
  unfold rawTarget
  split
  · rfl
  · exact Text.trim_trim _

/-- The outcome of a record of the trace file. -/
theorem record_same (ho : Orderly settings files sources) (hsource : source ∈ sources)
    (hs : Ready settings files sources source told s)
    (hs' : Ready settings files sources source told' s') {r : Record}
    (hr : r ∈ recordsRead settings files source) (index : Nat) {result result' : State}
    (hresult : result.id = result'.id) :
    SameOutcome (outcomeOf s index r result) (outcomeOf s' index r result') := by
  have hname := (ho.sourceName source hsource r hr).symm
  obtain ⟨S, hsettled, hid, hstate⟩ := hs.settled? (hname.imp_left (hs.ready _))
  obtain ⟨S', hsettled', hid', hstate'⟩ := hs'.settled? (hname.imp_left (hs'.ready _))
  rw [← Survey.settled?_trim] at hsettled hsettled'
  refine outcomeOf_same hsettled hsettled' (hid.trans hid'.symm) hresult ?_ ?_
  · by_cases hempty : rawTarget r = ""
    · rw [hempty, widgetNamed?_empty, widgetNamed?_empty]
    · obtain ⟨name, hmem, row, hrow, htarget⟩ := ho.targetName source hsource r hr hempty
      rw [hs.widgetNamed? ho (rawTarget_trim r) hempty (hs.ready name hmem) hrow htarget,
        hs'.widgetNamed? ho (rawTarget_trim r) hempty (hs'.ready name hmem) hrow htarget]
  · intro w
    have hread := hname.imp_left (names_of_source hsource)
    rw [Bool.eq_iff_iff, hs.contains_iff ho hread hstate hid,
      hs'.contains_iff ho hread hstate' hid']

/-- The records of the trace file in two surveys. -/
theorem outcomes_same (ho : Orderly settings files sources) (hsource : source ∈ sources)
    (hs : Ready settings files sources source told s)
    (hs' : Ready settings files sources source told' s') (index : Nat) {records : List Record}
    (hrecords : ∀ r ∈ records, r ∈ recordsRead settings files source)
    {attempts attempts' : List Attempt}
    (hmet : List.Forall₂ (Met settings files) records attempts)
    (hmet' : List.Forall₂ (Met settings files) records attempts') :
    List.Forall₂ SameOutcome (outcomesFrom s index attempts).1
      (outcomesFrom s' index attempts').1 ∧
      (outcomesFrom s index attempts).2 = none ∧ (outcomesFrom s' index attempts').2 = none := by
  induction hmet generalizing index attempts' with
  | nil =>
    cases hmet'
    exact ⟨.nil, rfl, rfl⟩
  | @cons r attempt records attempts hfirst _ ih =>
    cases hmet' with
    | @cons _ attempt' _ attempts' hfirst' hrest' =>
      obtain ⟨_, result⟩ := attempt
      obtain ⟨_, result'⟩ := attempt'
      obtain ⟨rfl, S, rfl, hid⟩ := hfirst
      obtain ⟨rfl, S', rfl, hid'⟩ := hfirst'
      obtain ⟨hsame, hnone, hnone'⟩ := ih (index + 1)
        (fun r hr => hrecords r (List.mem_cons_of_mem _ hr)) hrest'
      rw [outcomesFrom_ok, outcomesFrom_ok]
      refine ⟨.cons ?_ hsame, hnone, hnone'⟩
      exact record_same ho hsource hs hs' (hrecords _ List.mem_cons_self) index
        (hid.trans hid'.symm)

/-! ## Trace files -/

/-- What became of the records of a trace file does not show in which survey it was. -/
structure SameConsidered (c c' : Considered) : Prop where
  actions : c.actions = c'.actions
  report : ∀ report intake, c.report report intake = c'.report report intake

/-- The names that are told once the records of a trace file have been considered. -/
def toldAfter (settings : Settings) (files : Tree) (source : Source) (told : List String) :
    List String :=
  (resultNames settings files source).reverse ++ told

theorem attemptAll_ready (ho : Orderly settings files sources) (hsource : source ∈ sources)
    (hs : Told settings files sources told s) :
    let after := attemptAll settings files s (recordsRead settings files source)
    Ready settings files sources source (toldAfter settings files source told) after.1 ∧
      List.Forall₂ (Met settings files) (recordsRead settings files source) after.2 := by
  obtain ⟨htold, hmet⟩ := hs.attemptAll ho fun r hr =>
    names_of_source hsource (List.mem_map_of_mem hr)
  exact ⟨⟨htold, fun name hname => List.mem_append_left _ (List.mem_reverse.2 hname)⟩, hmet⟩

theorem consider_told (ho : Orderly settings files sources) (hsource : source ∈ sources)
    (hs : Told settings files sources told s) :
    Told settings files sources (toldAfter settings files source told)
      (consider settings files s (recordsRead settings files source)).survey :=
  (attemptAll_ready ho hsource hs).1.toTold

theorem consider_same (ho : Orderly settings files sources) (hsource : source ∈ sources)
    (hs : Told settings files sources told s) (hs' : Told settings files sources told' s') :
    SameConsidered (consider settings files s (recordsRead settings files source))
      (consider settings files s' (recordsRead settings files source)) := by
  obtain ⟨hready, hmet⟩ := attemptAll_ready ho hsource hs
  obtain ⟨hready', hmet'⟩ := attemptAll_ready ho hsource hs'
  obtain ⟨hsame, hnone, hnone'⟩ :=
    outcomes_same ho hsource hready hready' 0 (fun r hr => hr) hmet hmet'
  have hactions := SameOutcome.actions hsame
  refine ⟨hactions, ?_⟩
  intro report intake
  simp only [Considered.report, Considered.actions, consider] at hactions ⊢
  rw [hnone, hnone', SameOutcome.report hsame, hactions]

/-- Traces do not matter to what a survey was told. -/
theorem Told.retraced (hs : Told settings files sources told s) (h : s.Retraced s')
    (hsound : s'.Sound) : Told settings files sources told s' where
  toSound := hsound
  recorded id S hS := hs.recorded id S ((h.state? id).symm.trans hS)
  names := by
    rw [h.known]
    exact hs.names
  named name hname := by
    rw [h.stateNamed?]
    exact hs.named name hname
  aliased := by
    rw [h.stateAliases]
    exact hs.aliased
  states id S hS := hs.states id S ((h.state? id).symm.trans hS)
  widgets w := by
    rw [h.widget?]
    exact hs.widgets w
  stored name w hw := hs.stored name w ((h.widgetAlias? name).symm.trans hw)
  storedAll name hname r hr stored hnamed := by
    rw [h.widgetAlias?]
    exact hs.storedAll name hname r hr stored hnamed

/-- The session after a trace file that is processed alone, and the report on it. -/
def alone (settings : Settings) (files : Tree) (source : Source) : Session × TraceReport :=
  processTrace settings files (Session.new []) source

theorem new_graph : (Session.new []).survey.graph = Graph.initial :=
  addState_empty sound_initial

theorem told_new (settings : Settings) (files : Tree) (sources : List Source) :
    Told settings files sources [] (Session.new []).survey where
  toSound := Survey.ofGraph_sound canonical_initial
  recorded id S hS := by
    rw [new_graph, initial_state?] at hS
    split at hS
    · cases hS
      exact ⟨[], List.mem_cons_self, fun w => by simp [State.contains_iff, State.empty]⟩
    · cases hS
  names := by
    refine ⟨(fun name h => by cases h), (fun name h => by cases h), ?_⟩
    intro name S h
    rcases Registry.find?_register_cases h with hold | ⟨rfl, rfl⟩
    · cases hold
    · have hempty : namesEmpty StateId.empty.text := Ident.read?_text StateId.empty
      exact ⟨(identityOf_of_empty hempty).symm, .inr hempty⟩
  named name h := by cases h
  aliased name id h := by cases h
  states id S hS := by
    rw [new_graph, initial_state?] at hS
    split at hS
    · rename_i hid
      exact .inl hid
    · cases hS
  widgets w := by
    rw [new_graph, initial_widget?]
    simp
  stored name w h := by cases h
  storedAll name h := by cases h

/-- The records of a trace file that is opened are those that are read of it. -/
theorem recordsRead_eq {items : List Item}
    (h : openFile files source.path .trace settings.separator = .ok items) :
    recordsRead settings files source = (Intake.ofItems settings.malformed items).records := by
  rw [recordsRead, h]

/-- A trace file whose trace is new. -/
theorem processTrace_new {s : Session} (hquiet : s.Quiet)
    (hnew : ∀ t ∈ s.model.graph.traces, t.id ≠ source.trace) :
    processTrace settings files s source =
      let report := TraceReport.new source.path source.trace
      let begun := s.begin source.trace
      match openFile files source.path .trace settings.separator with
      | .error e => (begun, { report with error := some (.read e) })
      | .ok items =>
        let intake := Intake.ofItems settings.malformed items
        let c := consider settings files begun.survey intake.records
        (begun.commit ⟨s.model.graph.traces.length, source.trace⟩ c, c.report report intake) := by
  have hnone : ¬ s.model.graph.traces.any (·.id = source.trace) = true := by simpa using hnew
  rw [processTrace_eq settings files source hquiet]
  exact if_neg hnone

/-- A trace file is processed as if it were alone. -/
theorem processTrace_alone {s : Session} (ho : Orderly settings files sources)
    (hsource : source ∈ sources) (hquiet : s.Quiet)
    (hs : Told settings files sources told s.survey)
    (hnew : ∀ t ∈ s.model.graph.traces, t.id ≠ source.trace) :
    let after := processTrace settings files s source
    after.2 = (alone settings files source).2 ∧
      after.1.model.graph.traces =
        s.model.graph.traces ++ (alone settings files source).1.model.graph.traces ∧
      Told settings files sources (toldAfter settings files source told) after.1.survey := by
  have hquiet₀ := Session.quiet_new
  have hnew₀ : ∀ t ∈ (Session.new []).model.graph.traces, t.id ≠ source.trace :=
    fun t ht => by cases ht
  have hafter := hquiet.processTrace settings files source
  have hbegun := hs.retraced (begin_retraced s source.trace) (hquiet.begin hnew).sound
  have hbegun₀ := (told_new settings files sources).retraced
    (begin_retraced (Session.new []) source.trace) (hquiet₀.begin hnew₀).sound
  unfold alone
  rw [processTrace_new hquiet hnew] at hafter ⊢
  rw [processTrace_new hquiet₀ hnew₀]
  cases hopen : openFile files source.path .trace settings.separator with
  | error e =>
    have hnames : toldAfter settings files source told = told := by
      simp [toldAfter, resultNames, recordsRead, hopen]
    rw [hnames]
    exact ⟨rfl, rfl, hbegun⟩
  | ok items =>
    rw [hopen] at hafter
    have hconsidered := consider_told ho hsource hbegun
    have hsame := consider_same ho hsource hbegun hbegun₀
    have htraces := begin_commit_traces settings files
      (recordsRead settings files source) (hquiet.begin hnew)
    have htraces₀ := begin_commit_traces settings files
      (recordsRead settings files source) (hquiet₀.begin hnew₀)
    dsimp only at hafter htraces htraces₀ ⊢
    rw [← recordsRead_eq hopen] at hafter ⊢
    refine ⟨hsame.report _ _, ?_, hconsidered.retraced (commit_retraced _ _ _) hafter.sound⟩
    rw [htraces, htraces₀, hsame.actions]
    rfl

/-! ## Runs -/

/-- The names that are told when some trace files have been processed. -/
def toldBy (settings : Settings) (files : Tree) (order : List Source) (told : List String) :
    List String :=
  order.foldl (fun told source => toldAfter settings files source told) told

theorem mem_toldBy {order : List Source} {name : String} :
    name ∈ toldBy settings files order told ↔
      name ∈ told ∨ name ∈ namesRead settings files order := by
  induction order generalizing told with
  | nil => simp [toldBy, namesRead]
  | cons source order ih =>
    have hstep : toldBy settings files (source :: order) told =
        toldBy settings files order (toldAfter settings files source told) := rfl
    rw [hstep, ih]
    simp only [toldAfter, namesRead, List.mem_append, List.mem_reverse, List.flatMap_cons]
    tauto

/-- A run in which each trace file was processed as if it were alone. -/
structure AsAlone (settings : Settings) (files : Tree) (order : List Source)
    (run : Session × List TraceReport × List Source) : Prop where
  left : run.2.2 = []
  reports : run.2.1 = order.map fun source => (alone settings files source).2
  traces : run.1.model.graph.traces =
    order.flatMap fun source => (alone settings files source).1.model.graph.traces

theorem runSources_alone {s : Session} (ho : Orderly settings files sources)
    {order : List Source} (hmem : ∀ source ∈ order, source ∈ sources)
    (hnodup : (order.map (·.trace)).Nodup) (hquiet : s.Quiet)
    (hs : Told settings files sources told s.survey)
    (hnew : ∀ source ∈ order, source.trace ∉ s.begunIds) :
    let run := runSources settings files false s order
    run.2.2 = [] ∧ run.2.1 = order.map (fun source => (alone settings files source).2) ∧
      run.1.model.graph.traces = s.model.graph.traces ++
        order.flatMap (fun source => (alone settings files source).1.model.graph.traces) ∧
      run.1.Quiet ∧
        Told settings files sources (toldBy settings files order told) run.1.survey := by
  induction order generalizing s told with
  | nil => exact ⟨rfl, rfl, (List.append_nil _).symm, hquiet, hs⟩
  | cons first order ih =>
    obtain ⟨hfirst, hrest⟩ := List.nodup_cons.1 hnodup
    have hfresh := hnew first List.mem_cons_self
    obtain ⟨hreport, htraces, htold⟩ := processTrace_alone ho (hmem first List.mem_cons_self)
      hquiet hs fun t ht hid => hfresh (List.mem_map.2 ⟨t, ht, hid⟩)
    have hquiet' := hquiet.processTrace settings files first
    have hanswer := hquiet.answer settings files first
    rw [runSources_cons]
    dsimp only at hreport htraces htold ⊢
    generalize processTrace settings files s first = answer at *
    generalize hbegun : answer.1.begunIds = ids at hanswer
    cases hanswer with
    | taken hold herror => exact absurd hold hfresh
    | begun hnew' hids hfatal =>
      have hnext : ∀ source ∈ order, source.trace ∉ answer.1.begunIds := by
        intro source hsource hmem'
        rw [hbegun, hids] at hmem'
        rcases List.mem_append.1 hmem' with hold | hself
        · exact hnew source (List.mem_cons_of_mem _ hsource) hold
        · exact hfirst (List.mem_map.2 ⟨source, hsource, List.mem_singleton.1 hself⟩)
      obtain ⟨hleft, hreports, htraces', hend, htold'⟩ := ih
        (fun source hsource => hmem source (List.mem_cons_of_mem _ hsource)) hrest hquiet' htold
        hnext
      rw [hfatal]
      refine ⟨hleft, ?_, ?_, hend, htold'⟩
      · rw [hreports, hreport, List.map_cons]
      · rw [htraces', htraces, List.flatMap_cons, List.append_assoc]

/-! ## Two orders -/

/-- Two graphs that nobody can tell apart by ids. What a widget shows is not compared, since that is
a matter of which of its sightings was the first. -/
structure Interchangeable (g g' : Graph) : Prop where
  ids : g.SameIds g'
  shown : ∀ id S S', g.state? id = some S → g'.state? id = some S' →
    ∀ w, S.contains w = S'.contains w
  stored : ∀ name, g.widgetAlias? name = g'.widgetAlias? name
  named : ∀ name, (g.stateNamed? name).map (·.id) = (g'.stateNamed? name).map (·.id)
  traces : ∀ id, g.trace? id = g'.trace? id

theorem Told.state_isSome (hs : Told settings files sources told s) (id : StateId) :
    (s.graph.state? id).isSome = true ↔
      id = StateId.empty ∨ ∃ name ∈ told, id = identityOf settings files name := by
  constructor
  · intro h
    obtain ⟨S, hS⟩ := Option.isSome_iff_exists.1 h
    exact hs.states id S hS
  · rintro (rfl | ⟨name, hname, rfl⟩)
    · rw [hs.canonical.empty]
      rfl
    · obtain ⟨S, hnamed, hid⟩ := Option.map_eq_some_iff.1 (hs.named name hname)
      have hstate := stateNamed?_registered hs.canonical.toSound hnamed
      rw [hid] at hstate
      rw [hstate]
      rfl

theorem Told.stored_iff (ho : Orderly settings files sources)
    (hs : Told settings files sources told s) (name : String) (w : WidgetId) :
    s.graph.widgetAlias? name = some w ↔ ∃ other ∈ told, ∃ r ∈ stateRows settings files other,
      namedBy name r = true ∧ identify r = w := by
  constructor
  · exact hs.stored name w
  · rintro ⟨other, hother, r, hr, hnamed, rfl⟩
    exact hs.widgetAlias? ho hother hr hnamed

theorem Told.named_iff (hs : Told settings files sources told s) {name : String}
    (hname : name ∉ told) (id : StateId) :
    (s.graph.stateNamed? name).map (·.id) = some id ↔
      Ident.read? name = some id ∧ (s.graph.state? id).isSome = true := by
  have halias : s.graph.stateAliases.find? name = none := by
    cases halias : s.graph.stateAliases.find? name with
    | none => rfl
    | some found => exact absurd (hs.aliased name found halias) hname
  constructor
  · intro h
    obtain ⟨S, hnamed, rfl⟩ := Option.map_eq_some_iff.1 h
    obtain ⟨hread, hstate⟩ :=
      Survey.stateNamed?_of_unaliased hs.canonical.toSound halias hnamed
    exact ⟨hread, by rw [hstate]; rfl⟩
  · rintro ⟨hread, hsome⟩
    obtain ⟨S, hS⟩ := Option.isSome_iff_exists.1 hsome
    have hid := hs.canonical.stateKey _ _ hS
    rw [← hid] at hread hS
    rw [Survey.stateNamed?_own hread hS, Option.map_some, hid]

/-- What was told decides on everything but the traces. -/
theorem Told.interchangeable (ho : Orderly settings files sources)
    (hs : Told settings files sources told s) (hs' : Told settings files sources told' s')
    (hsame : ∀ name, name ∈ told ↔ name ∈ told')
    (htraces : ∀ id, s.graph.trace? id = s'.graph.trace? id) :
    Interchangeable s.graph s'.graph where
  ids := by
    refine ⟨fun id => ?_, fun w => ?_⟩
    · rw [Registry.mem_keys_iff, Registry.mem_keys_iff]
      refine (hs'.state_isSome id).trans (Iff.trans ?_ (hs.state_isSome id).symm)
      simp only [hsame]
    · rw [Registry.mem_keys_iff, Registry.mem_keys_iff]
      refine (hs'.widgets w).trans (Iff.trans ?_ (hs.widgets w).symm)
      simp only [hsame]
  shown := by
    intro id S S' hS hS' w
    have hid := hs.canonical.stateKey _ _ hS
    have hid' := hs'.canonical.stateKey _ _ hS'
    obtain ⟨name, hname, hidentity⟩ : ∃ name, (name ∈ namesRead settings files sources ∨
        namesEmpty name) ∧ id = identityOf settings files name := by
      rcases hs.states id S hS with hempty | ⟨name, hname, hidentity⟩
      · have hread : namesEmpty StateId.empty.text := Ident.read?_text StateId.empty
        exact ⟨_, .inr hread, hempty.trans (identityOf_of_empty hread).symm⟩
      · exact ⟨name, .inl (hs.names.read name hname), hidentity⟩
    subst hid
    rw [Bool.eq_iff_iff, hs.contains_iff ho hname hS hidentity,
      hs'.contains_iff ho hname (hid' ▸ hS') (hid'.trans hidentity)]
  stored name := by
    refine Option.ext fun w => ?_
    rw [hs.stored_iff ho, hs'.stored_iff ho]
    simp only [hsame]
  named name := by
    by_cases hname : name ∈ told
    · rw [hs.named name hname, hs'.named name ((hsame name).1 hname)]
    · refine Option.ext fun id => ?_
      rw [hs.named_iff hname, hs'.named_iff fun h => hname ((hsame name).2 h), hs.state_isSome,
        hs'.state_isSome]
      simp only [hsame]
  traces := htraces

/-- The trace files processed in some order, with watchers that never break off. -/
theorem run_alone (ho : Orderly settings files sources) {watchers : List Watcher}
    (hlasting : ∀ w ∈ watchers, w.lasts = true) {order : List Source} (horder : order.Perm sources)
    (hnodup : (sources.map (·.trace)).Nodup) :
    let run := runSources settings files false (Session.new watchers) order
    AsAlone settings files order run ∧
      Told settings files sources (toldBy settings files order []) run.1.survey := by
  obtain ⟨hsession, hrest⟩ := runSources_new settings files false order hlasting
  obtain ⟨hleft, hreports, htraces, -, htold⟩ := runSources_alone ho
    (fun source h => horder.subset h) ((horder.map _).nodup_iff.2 hnodup)
    Session.quiet_new (told_new settings files sources) fun source _ h => by cases h
  rw [← hrest] at hleft hreports
  rw [← hsession] at htraces htold
  exact ⟨⟨hleft, hreports, htraces⟩, htold⟩

/-- Traces do not influence each other. In whichever order the trace files are processed, each one
has the report and the trace that it has alone, and the graphs have the same ids. A load takes them
in the order of their paths. -/
theorem runSources_perm (ho : Orderly settings files sources) {watchers : List Watcher}
    (hlasting : ∀ w ∈ watchers, w.lasts = true) (hnodup : (sources.map (·.trace)).Nodup)
    {order order' : List Source} (horder : order.Perm sources) (horder' : order'.Perm sources) :
    let run := runSources settings files false (Session.new watchers) order
    let run' := runSources settings files false (Session.new watchers) order'
    AsAlone settings files order run ∧ AsAlone settings files order' run' ∧
      Interchangeable run.1.model.graph run'.1.model.graph := by
  obtain ⟨halone, htold⟩ := run_alone ho hlasting horder hnodup
  obtain ⟨halone', htold'⟩ := run_alone ho hlasting horder' hnodup
  have hperm := horder.trans horder'.symm
  refine ⟨halone, halone', htold.interchangeable ho htold' ?_ ?_⟩
  · intro name
    rw [mem_toldBy, mem_toldBy]
    exact or_congr Iff.rfl (hperm.flatMap_right _).mem_iff
  · intro id
    refine Option.ext fun t => ?_
    rw [Model.trace?_eq_some_iff htold.canonical.toSound,
      Model.trace?_eq_some_iff htold'.canonical.toSound]
    refine and_congr_left fun _ => ?_
    have htraces := (hperm.flatMap_right
      fun source => (alone settings files source).1.model.graph.traces).mem_iff (a := t)
    rw [← halone.traces, ← halone'.traces] at htraces
    exact htraces

end

def twinSettings : Settings :=
  (Settings.ofBase ⟨"m"⟩).sequential

/-- Two traces over two sightings of one screen. The button shows another text in each. -/
def twinFiles : Tree where
  cwd := ["work"]
  nodes := [
    (["work"], .directory),
    (["work", "m"], .directory),
    (["work", "m", "states"], .directory),
    (["work", "m", "states", "s1.csv"],
      .file (Text.utf8 "b;Button;ok;app;/b;OK;true;;;;;1:1:2:2\n")),
    (["work", "m", "states", "s2.csv"],
      .file (Text.utf8 "b;Button;ok;app;/b;Yes;true;;;;;1:1:2:2\n")),
    (["work", "m", "trace00000000-0000-0000-0000-000000000001.csv"], .file (Text.utf8 <|
      "LaunchApp;da39a3ee-5e6b-4b0d-3255-bfef95601890;s1;;\n" ++
      "Click;s1;s1;b;\n")),
    (["work", "m", "trace00000000-0000-0000-0000-000000000002.csv"], .file (Text.utf8 <|
      "LaunchApp;da39a3ee-5e6b-4b0d-3255-bfef95601890;s2;;\n" ++
      "Click;s2;s2;b;\n"))]

def twinSources : List Source :=
  traceFiles twinSettings ["states", "trace00000000-0000-0000-0000-000000000001.csv",
    "trace00000000-0000-0000-0000-000000000002.csv"]

def twinButton (shown : String) : Record :=
  ⟨1, ["b", "Button", "ok", "app", "/b", shown, "true", "", "", "", "", "1:1:2:2"]⟩

def twinRecords (name : String) : List Record :=
  [⟨1, ["LaunchApp", "da39a3ee-5e6b-4b0d-3255-bfef95601890", name, "", ""]⟩,
    ⟨2, ["Click", name, name, "b", ""]⟩]

theorem twin_records : ∀ source ∈ twinSources, ∃ name ∈ ["s1", "s2"],
    recordsRead twinSettings twinFiles source = twinRecords name := by
  decide +kernel

theorem twin_rows : ∀ name ∈ ["s1", "s2"], ¬ namesEmpty name ∧ ∃ shown ∈ ["OK", "Yes"],
    readAll twinFiles (twinSettings.statePath name) twinSettings.widgetLayout
      twinSettings.separator = .ok [twinButton shown] := by
  decide +kernel

theorem twin_mem {name : String} (hname : name ∈ namesRead twinSettings twinFiles twinSources) :
    name ∈ ["s1", "s2"] := by
  obtain ⟨source, hsource, hread⟩ := List.mem_flatMap.1 hname
  obtain ⟨n, hn, hrecords⟩ := twin_records source hsource
  have hnames : ∀ n ∈ ["s1", "s2"], ∀ r ∈ twinRecords n, resultName r ∈ ["s1", "s2"] := by
    decide +kernel
  rw [resultNames, hrecords] at hread
  obtain ⟨r, hr, rfl⟩ := List.mem_map.1 hread
  exact hnames n hn r hr

def twinId : WidgetId :=
  WidgetKey.id ⟨"Button", "ok", "app", "/b"⟩

theorem twinButton_storedId (shown : String) : storedId (twinButton shown) = "b" := by
  have htrim : Text.trim "b" = "b" := by decide +kernel
  exact htrim

theorem twinButton_identify (shown : String) : identify (twinButton shown) = twinId :=
  rfl

theorem twin_stateRows {name : String} (hname : name ∈ ["s1", "s2"]) :
    ∃ shown, stateRows twinSettings twinFiles name = [twinButton shown] := by
  obtain ⟨hfull, shown, -, hrows⟩ := twin_rows name hname
  exact ⟨shown, stateRows_of_readAll hfull hrows⟩

/-- Every row is a sighting of the one button. -/
theorem twin_row {name : String} (hname : name ∈ namesRead twinSettings twinFiles twinSources)
    {r : Record} (hr : r ∈ stateRows twinSettings twinFiles name) :
    storedId r = "b" ∧ identify r = twinId := by
  obtain ⟨shown, hrows⟩ := twin_stateRows (twin_mem hname)
  rw [hrows, List.mem_singleton] at hr
  rw [hr]
  exact ⟨twinButton_storedId shown, twinButton_identify shown⟩

theorem twin_orderly : Orderly twinSettings twinFiles twinSources where
  readable name hname := by
    obtain ⟨-, shown, -, hrows⟩ := twin_rows name (twin_mem hname)
    exact .inr ⟨_, hrows⟩
  stateName name hname other hother hread := by
    have hnone : ∀ n ∈ ["s1", "s2"], (Ident.read? n : Option StateId) = none := by decide +kernel
    rw [hnone name (twin_mem hname)] at hread
    cases hread
  widgetName name hname r hr other hother r' hr' _ :=
    (twin_row hname hr).2.trans (twin_row hother hr').2.symm
  storedOnce name hname r hr other hother r' hr' _ _ :=
    (twin_row hname hr).2.trans (twin_row hother hr').2.symm
  samePairs name hname other hother _ r hr := by
    obtain ⟨shown, hrows⟩ := twin_stateRows (twin_mem hother)
    obtain ⟨hstored, hid⟩ := twin_row hname hr
    rw [hstored, hid, hrows]
    exact ⟨_, List.mem_singleton_self _, twinButton_storedId shown, twinButton_identify shown⟩
  sourceName source hsource r hr := by
    obtain ⟨n, hn, hrecords⟩ := twin_records source hsource
    rw [hrecords] at hr
    rw [resultNames, hrecords]
    have hknown : ∀ n ∈ ["s1", "s2"], ∀ r ∈ twinRecords n,
        namesEmpty (Text.trim (r.field TraceColumn.source)) ∨
          Text.trim (r.field TraceColumn.source) ∈ (twinRecords n).map resultName := by
      decide +kernel
    exact hknown n hn r hr
  targetName source hsource r hr htarget := by
    obtain ⟨n, hn, hrecords⟩ := twin_records source hsource
    obtain ⟨shown, hrows⟩ := twin_stateRows hn
    rw [hrecords] at hr
    rw [resultNames, hrecords]
    have hknown : ∀ n ∈ ["s1", "s2"], n ∈ (twinRecords n).map resultName ∧
        ∀ r ∈ twinRecords n, rawTarget r ≠ "" → rawTarget r = "b" := by
      decide +kernel
    obtain ⟨hmem, htargets⟩ := hknown n hn
    refine ⟨n, hmem, ?_⟩
    rw [htargets r hr htarget, hrows]
    exact ⟨_, List.mem_singleton_self _, .inl (twinButton_storedId shown)⟩
  distinguished := by
    have hids : ∀ ids ∈ [] :: (namesRead twinSettings twinFiles twinSources).map
        (rowIds twinSettings twinFiles), ids = [] ∨ ids = [twinId] := by
      intro ids hids
      refine (List.mem_cons.1 hids).imp_right fun hmem => ?_
      obtain ⟨name, hname, rfl⟩ := List.mem_map.1 hmem
      obtain ⟨shown, hrows⟩ := twin_stateRows (twin_mem hname)
      rw [rowIds, hrows, List.map_singleton, twinButton_identify]
    intro as has bs hbs hsame
    rcases hids as has with rfl | rfl
    · exact List.nil_subset _
    · rcases hids bs hbs with rfl | rfl
      · have hother : StateId.ofWidgets [twinId] ≠ StateId.ofWidgets [] := by decide +kernel
        exact absurd hsame hother
      · exact List.Subset.refl _

/-- The traces in both orders. -/
theorem runSources_perm_twin :
    Orderly twinSettings twinFiles twinSources ∧ (∀ w ∈ [Watcher.tally .empty], w.lasts = true) ∧
      (twinSources.map (·.trace)).Nodup ∧ twinSources.reverse.Perm twinSources ∧
      let run := runSources twinSettings twinFiles false (Session.new [.tally .empty]) twinSources
      let run' := runSources twinSettings twinFiles false (Session.new [.tally .empty])
        twinSources.reverse
      AsAlone twinSettings twinFiles twinSources run ∧
        AsAlone twinSettings twinFiles twinSources.reverse run' ∧
        Interchangeable run.1.model.graph run'.1.model.graph := by
  have hnodup : (twinSources.map (·.trace)).Nodup := by decide +kernel
  have hlasting : ∀ w ∈ [Watcher.tally .empty], w.lasts = true := by decide
  have hperm := twinSources.reverse_perm
  exact ⟨twin_orderly, hlasting, hnodup, hperm,
    runSources_perm twin_orderly hlasting hnodup (.refl _) hperm⟩

end Load
end ScreenGraph
