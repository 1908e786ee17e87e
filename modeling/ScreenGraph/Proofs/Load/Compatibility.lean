import ScreenGraph.Proofs.Load.Runs

/-!
# ScreenGraph.Proofs.Load.Compatibility

Legacy widget rows are accepted in addition to all others.

The legacy layout has the columns of the current one and asks for fewer fields. So a state file that
can be read as it is can be read in compatibility mode too, with the same rows. In a load that does
not fail every result state was found, hence every state file that was opened could be read. The
load in compatibility mode then takes the same steps.

* `readAll_relaxed`: files under a layout that asks for fewer fields.
* `attemptAll_lenient`, `processTrace_lenient`, `runSources_lenient`: the same steps, as long as no
  report has an error.
* `load_lenient`: whole loads.
-/

namespace ScreenGraph

open Files Graph Identity Record Screen Watch

/-! ## Files -/

namespace Record

/-- The layout `l'` has the columns of `l` and asks for no more fields. -/
structure Layout.Relaxes (l l' : Layout) : Prop where
  header : l'.header = l.header
  minFields : l'.minFields ≤ l.minFields

section

variable {l l' : Layout} {path : Path} {sep : Char}

theorem Layout.Relaxes.split (h : l.Relaxes l') (line : String) :
    l'.split sep line = l.split sep line := by
  rw [Layout.split, Layout.split, Layout.fieldCount, Layout.fieldCount, h.header]

theorem item?_none_relaxed (h : l.Relaxes l') {number : Nat} {line : String}
    (hitem : item? path l sep number line = none) : item? path l' sep number line = none := by
  unfold item? at hitem ⊢
  dsimp only at hitem ⊢
  rw [h.split, h.header]
  split at hitem
  · rename_i hblank
    rw [if_pos hblank]
  · rename_i hblank
    rw [if_neg hblank]
    split at hitem
    · rename_i hheader
      rw [if_pos hheader]
    · split at hitem <;> cases hitem

theorem item?_ok_relaxed (h : l.Relaxes l') {number : Nat} {line : String} {r : Record}
    (hitem : item? path l sep number line = some (.ok r)) :
    item? path l' sep number line = some (.ok r) := by
  unfold item? at hitem ⊢
  dsimp only at hitem ⊢
  rw [h.split, h.header]
  split at hitem
  · cases hitem
  · rename_i hblank
    rw [if_neg hblank]
    split at hitem
    · cases hitem
    · rename_i hheader
      rw [if_neg hheader]
      split at hitem
      · cases hitem
      · rename_i hfields
        have hfewer := h.minFields
        rw [if_neg (by omega)]
        exact hitem

theorem collect_relaxed (h : l.Relaxes l') {number : Nat} {lines : List (List UInt8)}
    {rows : List Record} (hrows : collect (itemsFrom path l sep number lines) = .ok rows) :
    collect (itemsFrom path l' sep number lines) = .ok rows := by
  induction lines generalizing number rows with
  | nil => exact hrows
  | cons line rest ih =>
    unfold itemsFrom at hrows ⊢
    cases hdecode : Text.decode line with
    | error e =>
      rw [hdecode] at hrows
      cases hrows
    | ok text =>
      simp only [hdecode] at hrows ⊢
      cases hitem : item? path l sep number text with
      | none =>
        rw [hitem] at hrows
        rw [item?_none_relaxed h hitem]
        exact ih hrows
      | some item =>
        rw [hitem] at hrows
        cases item with
        | error e => cases hrows
        | ok r =>
          rw [item?_ok_relaxed h hitem]
          simp only [collect] at hrows ⊢
          cases hrest : collect (itemsFrom path l sep (number + 1) rest) with
          | error e =>
            rw [hrest] at hrows
            cases hrows
          | ok rs =>
            rw [hrest] at hrows
            rw [ih hrest]
            exact hrows

/-- What can be read under a layout is read alike under one that asks for fewer fields. -/
theorem readAll_relaxed (h : l.Relaxes l') {files : Tree} {rows : List Record}
    (hread : readAll files path l sep = .ok rows) : readAll files path l' sep = .ok rows := by
  unfold readAll openFile at hread ⊢
  cases hfind : files.find path with
  | error e =>
    rw [hfind] at hread
    cases hread
  | ok node =>
    rw [hfind] at hread
    cases node with
    | directory => cases hread
    | file content => exact collect_relaxed h hread

end

end Record

/-- The settings in compatibility mode. -/
def Settings.lenient (settings : Settings) : Settings :=
  { settings with compatibility := true }

theorem Settings.lenient_widgetLayout (settings : Settings) :
    settings.widgetLayout.Relaxes settings.lenient.widgetLayout := by
  have hlegacy : settings.lenient.widgetLayout = .legacyWidget := if_pos rfl
  rw [hlegacy, Settings.widgetLayout]
  split
  · exact ⟨rfl, Nat.le_refl _⟩
  · exact ⟨rfl, by decide⟩

namespace Load

section

variable {settings : Settings} {files : Tree}

/-! ## Look-ups -/

theorem lookUp_lenient {g g' : Graph} {name : String} {S : State}
    (hlook : Survey.lookUp settings files g name = .ok (g', S)) :
    Survey.lookUp settings.lenient files g name = .ok (g', S) := by
  have hpath : settings.lenient.statePath name = settings.statePath name := rfl
  have hsep : settings.lenient.separator = settings.separator := rfl
  unfold Survey.lookUp at hlook ⊢
  cases hnamed : g.stateNamed? name with
  | some found =>
    rw [hnamed] at hlook
    exact hlook
  | none =>
    rw [hnamed] at hlook
    dsimp only at hlook ⊢
    rw [hpath, hsep]
    split at hlook
    · rename_i hexists
      rw [if_pos hexists]
      cases hread : readAll files (settings.statePath name) settings.widgetLayout
          settings.separator with
      | error e =>
        rw [hread] at hlook
        cases hlook
      | ok rows =>
        rw [hread] at hlook
        rw [readAll_relaxed settings.lenient_widgetLayout hread]
        exact hlook
    · cases hlook

theorem resolve_lenient {s : Survey} {raw : String} {S : State}
    (hfound : (s.resolve settings files raw).2 = .ok S) :
    s.resolve settings.lenient files raw = s.resolve settings files raw := by
  unfold Survey.resolve at hfound ⊢
  dsimp only at hfound ⊢
  cases hknown : s.known.find? (Text.trim raw) with
  | some found => rfl
  | none =>
    rw [hknown] at hfound
    cases hlook : Survey.lookUp settings files s.graph (Text.trim raw) with
    | error e =>
      rw [hlook] at hfound
      cases hfound
    | ok found => rw [lookUp_lenient hlook]

theorem attemptAll_lenient {s : Survey} {records : List Record}
    (hfound : ∀ attempt ∈ (attemptAll settings files s records).2, ∃ S, attempt.result = .ok S) :
    attemptAll settings.lenient files s records = attemptAll settings files s records := by
  induction records generalizing s with
  | nil => rfl
  | cons r records ih =>
    rw [attemptAll_cons] at hfound
    obtain ⟨S, hS⟩ := hfound _ List.mem_cons_self
    rw [attemptAll_cons, attemptAll_cons, resolve_lenient hS]
    dsimp only
    rw [ih fun attempt hmem => hfound attempt (List.mem_cons_of_mem _ hmem)]

theorem found_of_outcomes {s : Survey} {index : Nat} {attempts : List Attempt}
    (h : (outcomesFrom s index attempts).2 = none) :
    ∀ attempt ∈ attempts, ∃ S, attempt.result = .ok S := by
  induction attempts generalizing index with
  | nil => exact nofun
  | cons attempt attempts ih =>
    obtain ⟨r, result⟩ := attempt
    cases result with
    | error e => cases h
    | ok S =>
      intro other hmem
      rcases List.mem_cons.1 hmem with rfl | hmem
      · exact ⟨S, rfl⟩
      · exact ih h other hmem

/-! ## Reports without an error -/

theorem commitEach_error {h : TraceHandle} {m : Model} {report : TraceReport}
    {outcomes : List Outcome} (hok : (commitEach h m report outcomes).report.error = none) :
    report.error = none := by
  induction outcomes generalizing m report with
  | nil => exact hok
  | cons outcome outcomes ih =>
    have hkeeps := (report.addOutcome_keeps outcome).1
    unfold commitEach at hok
    dsimp only at hok
    split at hok
    · exact hkeeps.symm.trans (ih hok)
    · split at hok
      · cases hok
      · split at hok
        · exact hkeeps.symm.trans hok
        · have hrest := ih hok
          exact hkeeps.symm.trans hrest

theorem commitBatch_error {h : TraceHandle} {m : Model} {report : TraceReport}
    {outcomes : List Outcome} (hok : (commitBatch h m report outcomes).report.error = none) :
    report.error = none := by
  have hkeeps := (report.foldl_keeps outcomes).1
  unfold commitBatch at hok
  dsimp only at hok
  split at hok
  · cases hok
  · exact hkeeps.symm.trans hok

/-- All result states were found, if there is nothing else to be said. -/
theorem settle_found {s : Session} {h : TraceHandle} {report : TraceReport} {intake : Intake}
    (hok : (settle settings files s h report intake).2.error = none) :
    ∀ attempt ∈ (attemptAll settings files s.survey intake.records).2,
      ∃ S, attempt.result = .ok S := by
  simp only [settle] at hok
  generalize attemptAll settings files s.survey intake.records = attempted at hok ⊢
  obtain ⟨survey, attempts⟩ := attempted
  dsimp only at hok ⊢
  refine found_of_outcomes (?_ : (outcomesFrom survey 0 attempts).2 = none)
  generalize outcomesFrom survey 0 attempts = considered at hok ⊢
  obtain ⟨outcomes, failure⟩ := considered
  dsimp only at hok ⊢
  -- the way of the commits, then whether a watcher broke off
  split at hok
  · split at hok
    · cases hok
    · have herror := commitEach_error hok
      exact (Option.or_eq_none_iff.1 herror).1
  · split at hok
    · cases hok
    · have herror := commitBatch_error hok
      exact (Option.or_eq_none_iff.1 herror).1

theorem settle_lenient {s : Session} {h : TraceHandle} {report : TraceReport} {intake : Intake}
    (hok : (settle settings files s h report intake).2.error = none) :
    settle settings.lenient files s h report intake = settle settings files s h report intake := by
  have hperAction : ∀ watched, settings.lenient.perAction watched = settings.perAction watched :=
    fun _ => rfl
  simp only [settle, attemptAll_lenient (settle_found hok), hperAction]

/-! ## Runs -/

theorem processTrace_lenient {s : Session} {source : Source}
    (hok : (processTrace settings files s source).2.error = none) :
    processTrace settings.lenient files s source = processTrace settings files s source := by
  have hsep : settings.lenient.separator = settings.separator := rfl
  have hmalformed : settings.lenient.malformed = settings.malformed := rfl
  unfold processTrace at hok ⊢
  dsimp only at hok ⊢
  rw [hsep, hmalformed]
  split at hok
  · rfl
  · split at hok
    · rfl
    · exact settle_lenient hok

theorem runSources_lenient {s : Session} {stopped : Bool} {sources : List Source}
    (hok : ∀ r ∈ (runSources settings files stopped s sources).2.1, r.error = none) :
    runSources settings.lenient files stopped s sources =
      runSources settings files stopped s sources := by
  induction sources generalizing s stopped with
  | nil => cases stopped <;> rfl
  | cons source sources ih =>
    cases stopped with
    | true => rfl
    | false =>
      rw [runSources_cons] at hok
      have hfirst := processTrace_lenient (hok _ List.mem_cons_self)
      rw [runSources_cons, runSources_cons, hfirst]
      dsimp only at hok ⊢
      rw [ih fun r hr => hok r (List.mem_cons_of_mem _ hr)]

theorem errors_of_load {watchers : List Watcher} {names : List String} {cancelled : Bool}
    {l : Loaded}
    (hlist : files.list settings.baseDir = .ok names)
    (hload : load settings files watchers cancelled = .ok l) (hok : l.report.failed = false) :
    ∀ r ∈ (runSources settings files cancelled (Session.new watchers)
      (discover settings names).1).2.1, r.error = none := by
  simp only [load, hlist] at hload
  cases hload
  dsimp only at hok
  rw [Bool.or_eq_false_iff, List.any_eq_false] at hok
  exact fun r hr => error_of_not_failed (by simpa using hok.1 r hr)

end

/-- A load that does not fail is the same load in compatibility mode: it gives the same model, with
the same watchers in it, and the same report. -/
theorem load_lenient {settings : Settings} {files : Tree} {watchers : List Watcher}
    {cancelled : Bool} {l : Loaded} (hload : load settings files watchers cancelled = .ok l)
    (hok : l.report.failed = false) :
    load { settings with compatibility := true } files watchers cancelled = .ok l := by
  obtain ⟨names, hlist⟩ := list_of_load hload
  have hbase : settings.lenient.baseDir = settings.baseDir := rfl
  have hdiscover : discover settings.lenient names = discover settings names := rfl
  have hruns := runSources_lenient (errors_of_load hlist hload hok)
  have hsame : load settings.lenient files watchers cancelled =
      load settings files watchers cancelled := by
    simp only [load, hbase, hlist, hdiscover, hruns]
  exact hsame.trans hload

def plainSettings : Settings :=
  (Settings.ofBase ⟨"m"⟩).sequential

/-- A state file in the current layout. -/
def plainFiles : Tree where
  cwd := ["work"]
  nodes := [
    (["work"], .directory),
    (["work", "m"], .directory),
    (["work", "m", "states"], .directory),
    (["work", "m", "states", "s1.csv"],
      .file (Text.utf8 "b;Button;ok;app;/b;OK;true;;;;;1:1:2:2\n")),
    (["work", "m", "trace00000000-0000-0000-0000-000000000001.csv"],
      .file (Text.utf8 "LaunchApp;da39a3ee-5e6b-4b0d-3255-bfef95601890;s1;;\n"))]

theorem load_lenient_plain : plainSettings.compatibility = false ∧
    ∃ l, load plainSettings plainFiles [.tally .empty] false = .ok l ∧
      l.report.failed = false ∧ l.model.graph.widgets.size = 1 ∧
        load { plainSettings with compatibility := true } plainFiles [.tally .empty] false =
          .ok l := by
  have hloaded : (load plainSettings plainFiles [.tally .empty] false).toOption.any (fun l =>
      !l.report.failed && l.model.graph.widgets.size = 1) = true := by
    decide +kernel
  obtain ⟨l, hload, hfound⟩ := loads_of_any hloaded
  rw [Bool.and_eq_true, Bool.not_eq_true'] at hfound
  obtain ⟨hok, hsize⟩ := hfound
  exact ⟨rfl, l, hload, hok, of_decide_eq_true hsize, load_lenient hload hok⟩

end Load
end ScreenGraph
