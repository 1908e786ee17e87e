import ScreenGraph.Proofs.Load.Origins

/-!
# ScreenGraph.Proofs.Load.Targets

Which widget a target leads to that is written with its stored id.

The stored ids of all state files share one table, in which the first row counts, and an id of a
widget counts before all of them. So a stored id need not lead to the row of the source state's own
file: `load_target_missed` is a directory where it leads to a row of another file that was read
before, and the target is dropped. It does lead there if no other widget was read under that name.

* `ledTo_eq`: a name under which one widget was read only.
* `Survey.HasRead.shows`: a state shows the rows of every file that has its id.
* `target_iff`: the target of a single record.
* `load_targets`: the targets of a load.
-/

namespace ScreenGraph

open Files Graph Identity Record Screen Watch

namespace Load

variable {settings : Settings} {files : Tree} {done : FilesRead} {s : Survey} {rows : List Record}

/-- A name leads to the only widget that was read under it. -/
theorem ledTo_eq {name : String} {row : Record} (hnonempty : name ≠ "") (hrow : row ∈ rows)
    (hstored : storedId row = name)
    (honly : ∀ other ∈ rows, storedId other = name ∨ Ident.read? name = some (identify other) →
      identify other = identify row) : ledTo rows name = some (identify row) := by
  rw [ledTo, if_neg hnonempty]
  cases hown : rows.find? (fun r => Ident.read? name = some (identify r)) with
  | some other =>
    have hread := List.find?_some hown
    rw [Option.some_or, Option.map_some,
      honly other (List.mem_of_find?_eq_some hown) (.inr (by simpa using hread))]
  | none =>
    have hsome : (rows.find? (storedId · = name)).isSome = true :=
      List.find?_isSome.2 ⟨row, hrow, by simpa using hstored⟩
    obtain ⟨other, hother⟩ := Option.isSome_iff_exists.1 hsome
    have hname := List.find?_some hother
    rw [Option.none_or, hother, Option.map_some,
      honly other (List.mem_of_find?_eq_some hother) (.inl (by simpa using hname))]

/-- A state shows the rows of every file that has its id, unless other rows have the same. -/
theorem Survey.HasRead.shows (hs : s.HasRead done) {S : State}
    (hS : s.graph.state? S.id = some S) (hid : StateId.ofWidgets (rows.map identify) = S.id)
    (hdistinct : Distinguished ((rows :: [] :: done.map (·.2)).map (·.map identify)))
    {row : Record} (hrow : row ∈ rows) : S.contains (identify row) = true := by
  obtain ⟨own, hown, hshown⟩ := hs.shown S.id S hS
  rw [← hshown]
  have hsame : StateId.ofWidgets (rows.map identify) = StateId.ofWidgets (own.map identify) := by
    rw [hid, hs.canonical.state_id hS]
    refine StateId.ofWidgets_congr fun w => ?_
    rw [hshown, State.contains_iff, List.mem_map]
  exact hdistinct _ (List.mem_map_of_mem List.mem_cons_self) _
    (List.mem_map_of_mem (List.mem_cons_of_mem _ hown)) hsame (List.mem_map_of_mem hrow)

/-- The record of an action names its target by the stored id of a row in the file of its source
state. -/
structure Aimed (settings : Settings) (files : Tree) (r : Record) (a : Action)
    (rows : List Record) (row : Record) : Prop where
  notGlobal : a.kind.isGlobal = false
  file : readAll files (settings.statePath (Text.trim (r.field TraceColumn.source)))
    settings.widgetLayout settings.separator = .ok rows
  identity : StateId.ofWidgets (rows.map identify) = a.source
  nonempty : Text.trim (r.field TraceColumn.target) ≠ ""
  once : rows.filter (storedId · = Text.trim (r.field TraceColumn.target)) = [row]

theorem Aimed.row_mem {r row : Record} {a : Action} (h : Aimed settings files r a rows row) :
    row ∈ rows ∧ storedId row = Text.trim (r.field TraceColumn.target) := by
  have hmem : row ∈ rows.filter (storedId · = Text.trim (r.field TraceColumn.target)) := by
    rw [h.once]
    exact List.mem_cons_self
  simpa using hmem

/-- A target is found exactly if its name leads to it. -/
theorem target_iff (hs : s.HasRead done) {index : Nat} {r row : Record} {result : State}
    {resolution : Resolution} (h : resolve s index r result = .ok resolution)
    (haimed : Aimed settings files r resolution.action rows row)
    (hdistinct : Distinguished ((rows :: [] :: done.map (·.2)).map (·.map identify))) :
    resolution.action.target = some (identify row) ↔
      ledTo done.rows (Text.trim (r.field TraceColumn.target)) = some (identify row) := by
  obtain ⟨source, hsettled, -, hkind, hsource, -, htarget, -⟩ := resolve_ok h
  have hS := Survey.settled?_registered hs.toSound hsettled
  have hraw : rawTarget r = Text.trim (r.field TraceColumn.target) := by
    rw [rawTarget, ← hkind, haimed.notGlobal]
    rfl
  have hcontains := hs.shows hS (haimed.identity.trans hsource) hdistinct haimed.row_mem.1
  rw [htarget, hraw, hs.widgetNamed?, Text.trim_trim, Option.filter_eq_some_iff]
  exact and_iff_left hcontains

/-- Each action of a load goes back to the record at its index in the first trace file with the id
of its trace. If the record names its target by a stored id of the file of its source state, then
the target is the widget of that row exactly if its name leads to it among the rows that were read
by then, which are those of the result states up to that trace file. That is so if the file is one
of them and no other widget was read under the name. -/
theorem load_targets {watchers : List Watcher} {names : List String} {cancelled : Bool}
    {l : Loaded} (hlist : files.list settings.baseDir = .ok names)
    (hload : load settings files watchers cancelled = .ok l) :
    ∀ t ∈ l.model.graph.traces, ∀ a ∈ t.actions, ∃ earlier source later r,
      traceFiles settings names = earlier ++ source :: later ∧ source.trace = t.id ∧
      (∀ other ∈ earlier, other.trace ≠ t.id) ∧
      (recordsRead settings files source)[a.index]? = some r ∧
      let done := filesRead settings files (namesRead settings files (earlier ++ [source]))
      let name := Text.trim (r.field TraceColumn.target)
      ∀ rows row, Aimed settings files r a rows row →
        Distinguished ((rows :: [] :: done.map (·.2)).map (·.map identify)) →
        (a.target = some (identify row) ↔ ledTo done.rows name = some (identify row)) ∧
        ((Text.trim (r.field TraceColumn.source), rows) ∈ done →
          (∀ other ∈ done.rows, storedId other = name ∨
            Ident.read? name = some (identify other) → identify other = identify row) →
          a.target = some (identify row)) := by
  intro t ht a ha
  cases load_origins hlist hload t ht a ha with
  | @record earlier later source r result notes s hsources hid hfirst hrecord hread hresolved =>
    refine ⟨earlier, source, later, r, hsources, hid, hfirst, hrecord, ?_⟩
    intro done name rows row haimed hdistinct
    have hiff := target_iff hread hresolved haimed hdistinct
    refine ⟨hiff, fun hfile honly => hiff.2 ?_⟩
    obtain ⟨hrow, hstored⟩ := haimed.row_mem
    have hmem : row ∈ done.rows := List.mem_flatMap.2 ⟨_, hfile, hrow⟩
    exact ledTo_eq haimed.nonempty hmem hstored honly

/-! ## One stored id in two files -/

def sharedSettings : Settings :=
  (Settings.ofBase ⟨"m"⟩).sequential

def sharedSource : Source :=
  ⟨sharedSettings.baseDir.join "trace00000000-0000-0000-0000-000000000001.csv",
    ⟨List.replicate 15 0 ++ [1], Uuid.length_bytes_one⟩⟩

/-- Both states have a button that is stored under `b`. The one of `s2` is clicked, and another one
of `s1`. -/
def sharedFiles : Tree where
  cwd := ["work"]
  nodes := [
    (["work"], .directory),
    (["work", "m"], .directory),
    (["work", "m", "states"], .directory),
    (["work", "m", "states", "s1.csv"], .file (Text.utf8 <|
      "b;Button;ok;app;/b;OK;true;;;;;1:1:2:2\n" ++
      "d;Button;go;app;/d;GO;true;;;;;3:3:4:4\n")),
    (["work", "m", "states", "s2.csv"],
      .file (Text.utf8 "b;Button;no;app;/c;NO;true;;;;;1:1:2:2\n")),
    (["work", "m", "trace00000000-0000-0000-0000-000000000001.csv"], .file (Text.utf8 <|
      "Click;s1;s1;d;\n" ++
      "Click;s2;s2;b;\n"))]

def sharedNames : List String :=
  ["states", "trace00000000-0000-0000-0000-000000000001.csv"]

def sharedClicks : List Record :=
  [⟨1, ["Click", "s1", "s1", "d", ""]⟩, ⟨2, ["Click", "s2", "s2", "b", ""]⟩]

def sharedOk : Record :=
  ⟨1, ["b", "Button", "ok", "app", "/b", "OK", "true", "", "", "", "", "1:1:2:2"]⟩

def sharedGo : Record :=
  ⟨2, ["d", "Button", "go", "app", "/d", "GO", "true", "", "", "", "", "3:3:4:4"]⟩

def sharedNo : Record :=
  ⟨1, ["b", "Button", "no", "app", "/c", "NO", "true", "", "", "", "", "1:1:2:2"]⟩

theorem shared_list : sharedFiles.list sharedSettings.baseDir = .ok sharedNames := by
  decide +kernel

theorem shared_sources : traceFiles sharedSettings sharedNames = [sharedSource] := by
  decide +kernel

theorem shared_clicks : recordsRead sharedSettings sharedFiles sharedSource = sharedClicks := by
  decide +kernel

theorem shared_first : readAll sharedFiles (sharedSettings.statePath (Text.trim "s1"))
    sharedSettings.widgetLayout sharedSettings.separator = .ok [sharedOk, sharedGo] := by
  decide +kernel

theorem shared_second : readAll sharedFiles (sharedSettings.statePath (Text.trim "s2"))
    sharedSettings.widgetLayout sharedSettings.separator = .ok [sharedNo] := by
  decide +kernel

def sharedRead : FilesRead :=
  [("s1", [sharedOk, sharedGo]), ("s2", [sharedNo])]

theorem shared_read : filesRead sharedSettings sharedFiles
    (namesRead sharedSettings sharedFiles [sharedSource]) = sharedRead := by
  have hnames : namesRead sharedSettings sharedFiles [sharedSource] =
      [Text.trim "s1", Text.trim "s2"] := by
    rw [namesRead, List.flatMap_singleton, resultNames, shared_clicks]
    rfl
  have hfirst : FilesRead.knows [] (Text.trim "s1") = false := by decide +kernel
  have hsecond : FilesRead.knows [(Text.trim "s1", [sharedOk, sharedGo])] (Text.trim "s2") =
      false := by decide +kernel
  have htrim : Text.trim "s1" = "s1" ∧ Text.trim "s2" = "s2" := by decide +kernel
  simp only [hnames, filesRead, List.foldl_cons, List.foldl_nil, readNext, hfirst, shared_first,
    hsecond, shared_second, Bool.false_eq_true, if_false, List.nil_append, List.cons_append]
  rw [htrim.1, htrim.2, sharedRead]

def sharedStart : Survey :=
  ((Session.new []).begin sharedSource.trace).survey

def sharedHalfway : Survey :=
  sharedStart.readIn (Text.trim "s1") [sharedOk, sharedGo]

/-- Both files have been read. -/
def sharedSurvey : Survey :=
  sharedHalfway.readIn (Text.trim "s2") [sharedNo]

def sharedFirst : State :=
  (addStateRows sharedStart.graph [sharedOk, sharedGo]).2

def sharedSecond : State :=
  (addStateRows sharedHalfway.graph [sharedNo]).2

def sharedAttempts : List Attempt :=
  [⟨⟨1, ["Click", "s1", "s1", "d", ""]⟩, .ok sharedFirst⟩,
    ⟨⟨2, ["Click", "s2", "s2", "b", ""]⟩, .ok sharedSecond⟩]

theorem shared_attempts :
    attemptAll sharedSettings sharedFiles sharedStart sharedClicks =
      (sharedSurvey, sharedAttempts) := by
  have hfirst : sharedStart.resolve sharedSettings sharedFiles "s1" =
      (sharedHalfway, .ok sharedFirst) :=
    Survey.resolve_readIn (by decide +kernel) shared_first
  have hsecond : sharedHalfway.resolve sharedSettings sharedFiles "s2" =
      (sharedSurvey, .ok sharedSecond) :=
    Survey.resolve_readIn (by decide +kernel) shared_second
  have hs1 : Record.field ⟨1, ["Click", "s1", "s1", "d", ""]⟩ TraceColumn.result = "s1" := rfl
  have hs2 : Record.field ⟨2, ["Click", "s2", "s2", "b", ""]⟩ TraceColumn.result = "s2" := rfl
  simp only [sharedClicks, attemptAll_cons, hs1, hfirst, hs2, hsecond]
  rfl

def sharedClick (index : Nat) (state : State) (target : Option WidgetId) : Action :=
  ⟨index, .click, state.id, state.id, target, "", none, none, true, "", []⟩

def sharedActions : List Action :=
  [sharedClick 0 sharedFirst (some (identify sharedGo)), sharedClick 1 sharedSecond none]

theorem shared_actions :
    (consider sharedSettings sharedFiles sharedStart sharedClicks).actions = sharedActions := by
  have hactions : actionsOf (outcomesFrom sharedSurvey 0 sharedAttempts).1 = sharedActions := by
    decide +kernel
  simp only [consider, Considered.actions, shared_attempts, hactions]

theorem load_sharedFiles : ∃ l, load sharedSettings sharedFiles [] false = .ok l ∧
    l.model.graph.traces = [⟨sharedSource.trace, sharedActions⟩] := by
  obtain ⟨l, hload⟩ : ∃ l, load sharedSettings sharedFiles [] false = .ok l :=
    ⟨_, load_eq false shared_list nofun⟩
  have hnew : ∀ t ∈ (Session.new []).model.graph.traces, t.id ≠ sharedSource.trace := nofun
  have htraces := begin_commit_traces sharedSettings sharedFiles sharedClicks
    (Session.quiet_new.begin hnew)
  have hgraph := load_graph shared_list hload
  rw [shared_sources, runSources_single,
    processTrace_begun _ _ Session.quiet_new hnew] at hgraph
  dsimp only at hgraph htraces
  rw [reading_records, shared_clicks] at hgraph
  have hactions := shared_actions
  rw [sharedStart] at hactions
  rw [hactions] at htraces
  refine ⟨l, hload, ?_⟩
  rw [hgraph]
  exact htraces

/-- The clicks are on buttons that their states have in their files. -/
theorem shared_aimed :
    Aimed sharedSettings sharedFiles ⟨1, ["Click", "s1", "s1", "d", ""]⟩
        (sharedClick 0 sharedFirst (some (identify sharedGo))) [sharedOk, sharedGo] sharedGo ∧
      Aimed sharedSettings sharedFiles ⟨2, ["Click", "s2", "s2", "b", ""]⟩
        (sharedClick 1 sharedSecond none) [sharedNo] sharedNo :=
  ⟨⟨rfl, shared_first, by decide +kernel, by decide +kernel, by decide +kernel⟩,
    ⟨rfl, shared_second, by decide +kernel, by decide +kernel, by decide +kernel⟩⟩

theorem load_targets_shared : ∃ l, load sharedSettings sharedFiles [] false = .ok l ∧
    ∃ t ∈ l.model.graph.traces, ∃ a ∈ t.actions,
      Aimed sharedSettings sharedFiles ⟨1, ["Click", "s1", "s1", "d", ""]⟩ a
          [sharedOk, sharedGo] sharedGo ∧
        a.target = some (identify sharedGo) := by
  obtain ⟨l, hload, htraces⟩ := load_sharedFiles
  have ht : ⟨sharedSource.trace, sharedActions⟩ ∈ l.model.graph.traces := by
    rw [htraces]
    exact List.mem_cons_self
  obtain ⟨earlier, source, later, r, hsources, -, -, hrecord, htarget⟩ :=
    load_targets shared_list hload _ ht _ List.mem_cons_self
  rw [shared_sources] at hsources
  obtain ⟨rfl, hsource⟩ : earlier = [] ∧ source :: later = [sharedSource] := by
    cases earlier with
    | nil => exact ⟨rfl, hsources.symm⟩
    | cons first rest => simp at hsources
  cases hsource
  rw [shared_clicks] at hrecord
  cases hrecord
  rw [List.nil_append, shared_read] at htarget
  have hdistinct : Distinguished (([sharedOk, sharedGo] :: [] :: sharedRead.map (·.2)).map
      (·.map identify)) := distinguished_of_nodup (by decide +kernel)
  refine ⟨l, hload, _, ht, _, List.mem_cons_self, shared_aimed.1, ?_⟩
  refine (htarget _ _ shared_aimed.1 hdistinct).2 ?_ ?_
  · decide +kernel
  · decide +kernel

/-- The click on the button of `s2` has no target: its name leads to the button of `s1`. -/
theorem load_target_missed : sharedSettings.isSequential = true ∧
    ∃ l, load sharedSettings sharedFiles [] false = .ok l ∧
      ¬ ∀ t ∈ l.model.graph.traces, ∀ a ∈ t.actions,
        ∀ source ∈ traceFiles sharedSettings sharedNames, source.trace = t.id →
          ∀ r, (recordsRead sharedSettings sharedFiles source)[a.index]? = some r →
            ∀ rows row, Aimed sharedSettings sharedFiles r a rows row →
              a.target = some (identify row) := by
  obtain ⟨l, hload, htraces⟩ := load_sharedFiles
  refine ⟨rfl, l, hload, fun hall => ?_⟩
  have ht : ⟨sharedSource.trace, sharedActions⟩ ∈ l.model.graph.traces := by
    rw [htraces]
    exact List.mem_cons_self
  have hsource : sharedSource ∈ traceFiles sharedSettings sharedNames := by
    rw [shared_sources]
    exact List.mem_cons_self
  have hrecord : (recordsRead sharedSettings sharedFiles sharedSource)[1]? =
      some ⟨2, ["Click", "s2", "s2", "b", ""]⟩ := by
    rw [shared_clicks]
    rfl
  have hfound := hall _ ht (sharedClick 1 sharedSecond none)
    (List.mem_cons_of_mem _ List.mem_cons_self) _ hsource rfl _ hrecord _ _ shared_aimed.2
  cases hfound

end Load
end ScreenGraph
