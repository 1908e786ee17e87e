import ScreenGraph.Proofs.Export.Legible
import ScreenGraph.Proofs.Load.Origins
import ScreenGraph.Proofs.Screen.Label
import ScreenGraph.Proofs.Watch.Clicks
import ScreenGraph.Proofs.Watch.Reports

/-!
# ScreenGraph.Proofs.Load.Reports

The reports of the watchers of a load, as tables.

What is loaded was read line by line, so the texts of widgets and the names of kinds have no line
feed in them, whoever watches and breaks off. They may hold tabs, unless these separate the fields;
and a log that was written as a quoted string may hold both.

* `Watcher.Fed`: a watcher has been told of nothing but actions with a property.
* `load_fed`: the watchers of a load are told of kinds without a line feed.
* `load_reports`: when the reports of a load can be cut into their cells.
-/

namespace ScreenGraph

open Files Graph Identity Record Screen Text Watch

namespace Watch.Watcher

/-- A watcher after it was told of some commits, all of actions with a property. -/
def Fed (P : Action → Prop) (w w' : Watcher) : Prop :=
  ∃ cs, w' = w.observeAll cs ∧ ∀ c ∈ cs, ∀ p ∈ c.actions, P p.1

variable {P : Action → Prop} {w w' : Watcher} {ws vs : List Watcher} {c : Commit}

theorem Fed.refl (w : Watcher) : Fed P w w :=
  ⟨[], rfl, nofun⟩

theorem Fed.observe (h : Fed P w w') (hc : ∀ p ∈ c.actions, P p.1) : Fed P w (w'.observe c) := by
  obtain ⟨cs, rfl, hcs⟩ := h
  refine ⟨cs ++ [c], (observeAll_append cs [c] w).symm, fun d hd => ?_⟩
  rcases List.mem_append.1 hd with hd | hd
  · exact hcs d hd
  · rw [List.mem_singleton.1 hd]
    exact hc

/-- Some are told of the commit, and the others of nothing. -/
theorem notify_fed (h : List.Forall₂ (Fed P) ws vs) (hc : ∀ p ∈ c.actions, P p.1) :
    List.Forall₂ (Fed P) ws (notify c vs).1 := by
  induction h with
  | nil => exact .nil
  | cons hfirst hrest ih =>
    simp only [notify]
    split
    · exact .cons (hfirst.observe hc) hrest
    · exact .cons (hfirst.observe hc) ih

theorem Fed.clicks {l : ClickLog} (h : Fed P (.clicks l) w) : ∃ l', w = .clicks l' := by
  obtain ⟨cs, rfl, -⟩ := h
  exact ⟨_, observeAll_clicks cs l⟩

theorem Fed.tally (h : Fed P (.tally .empty) w) :
    ∃ t, w = .tally t ∧ t.Proper ∧ ∀ kind ∈ t.kinds, ∃ a, P a ∧ a.kind = kind := by
  obtain ⟨cs, rfl, hcs⟩ := h
  obtain ⟨t, ht, hcount, -⟩ := observeAll_tally cs .empty
  have hproper : t.Proper := Tally.proper_empty.observeAll ht
  refine ⟨t, ht, hproper, fun kind hkind => ?_⟩
  have hpos := hproper.mem_kinds_iff.1 hkind
  rw [hcount] at hpos
  obtain ⟨p, hp, hk⟩ := List.countP_pos_iff.1 ((Nat.zero_add _).symm ▸ hpos)
  obtain ⟨c, hc, hp⟩ := List.mem_flatMap.1 hp
  exact ⟨p.1, hcs c hc p hp, of_decide_eq_true hk⟩

end Watch.Watcher

namespace Model

variable {P : Action → Prop} {ws : List Watcher} {m : Model} {h : TraceHandle}
  {announced : Announced}

theorem append_fed {a : Action} (hm : List.Forall₂ (Watcher.Fed P) ws m.watchers) (ha : P a)
    (happend : m.append h a = .ok announced) :
    List.Forall₂ (Watcher.Fed P) ws announced.model.watchers := by
  unfold append at happend
  cases hg : m.graph.append h a with
  | error e => rw [hg] at happend; cases happend
  | ok g =>
    rw [hg] at happend
    dsimp only at happend
    split at happend
    · cases happend
      exact Watcher.notify_fed hm (by simpa [Commit.actions] using ha)
    · cases happend
      exact hm

theorem appendAll_fed {as : List Action} (hm : List.Forall₂ (Watcher.Fed P) ws m.watchers)
    (has : ∀ a ∈ as, P a) (happend : m.appendAll h as = .ok announced) :
    List.Forall₂ (Watcher.Fed P) ws announced.model.watchers := by
  unfold appendAll at happend
  split at happend
  · cases happend
    exact hm
  · cases hg : m.graph.appendAll h as with
    | error e => rw [hg] at happend; cases happend
    | ok g =>
      rw [hg] at happend
      cases happend
      refine Watcher.notify_fed hm fun p hp => ?_
      obtain ⟨a, ha, hresult⟩ := List.mem_filterMap.1 hp
      obtain ⟨s, -, rfl⟩ := Option.map_eq_some_iff.1 hresult
      exact has a ha

end Model

namespace Load

variable {settings : Settings} {files : Tree} {P : Action → Prop} {ws : List Watcher}

/-! ## What is told -/

theorem commitEach_fed {h : TraceHandle} {m : Model} {report : TraceReport}
    {outcomes : List Outcome} (hm : List.Forall₂ (Watcher.Fed P) ws m.watchers)
    (hall : ∀ a ∈ actionsOf outcomes, P a) :
    List.Forall₂ (Watcher.Fed P) ws (commitEach h m report outcomes).model.watchers := by
  induction outcomes generalizing m report with
  | nil => exact hm
  | cons outcome outcomes ih =>
    simp only [actionsOf, List.filterMap_cons] at hall ih
    simp only [commitEach]
    cases haction : outcome.action? with
    | none =>
      rw [haction] at hall
      exact ih hm hall
    | some a =>
      rw [haction] at hall
      obtain ⟨ha, hrest⟩ := List.forall_mem_cons.1 hall
      cases happend : m.append h a with
      | error e =>
        simp only [happend]
        exact hm
      | ok announced =>
        have hfirst := Model.append_fed hm ha happend
        obtain ⟨m', count, broken⟩ := announced
        simp only [happend]
        cases broken with
        | true => exact hfirst
        | false => exact ih hfirst hrest

theorem commitBatch_fed {h : TraceHandle} {m : Model} {report : TraceReport}
    {outcomes : List Outcome} (hm : List.Forall₂ (Watcher.Fed P) ws m.watchers)
    (hall : ∀ a ∈ actionsOf outcomes, P a) :
    List.Forall₂ (Watcher.Fed P) ws (commitBatch h m report outcomes).model.watchers := by
  simp only [commitBatch]
  cases happend : m.appendAll h (outcomes.filterMap (·.action?)) with
  | error e => exact hm
  | ok announced => exact Model.appendAll_fed hm hall happend

/-- The name of a kind that was read has no line feed if its column has none. -/
theorem lineFeed_kind {raw : String} (h : '\n' ∉ raw.toList) :
    '\n' ∉ (ActionKind.read raw).text.toList := by
  rcases ActionKind.read_cases raw with hnamed | ⟨-, hother⟩
  · exact fun hfeed => by cases ActionKind.named_plain hnamed _ hfeed
  · rw [hother]
    have hfits : Fits '\n' (trim raw) := trim_fits ⟨h, h⟩
    exact hfits.lineFeed

/-- A trace file proposes actions of kinds without a line feed. -/
theorem proposed_kinds {s : Session} {source : Source} {h : TraceHandle} {m : Model}
    {outcomes : List Outcome} (hp : Proposed settings files s source h m outcomes) :
    ∀ a ∈ actionsOf outcomes, '\n' ∉ a.kind.text.toList := by
  obtain ⟨-, items, hopen, -, rfl⟩ := hp
  intro a ha
  obtain ⟨attempt, hattempt, hstands⟩ := outcomesFrom_origin ha
  obtain ⟨result, notes, -, hresolved⟩ := hstands.resolved
  obtain ⟨-, -, -, hkind, -⟩ := resolve_ok hresolved
  have hrecord : attempt.record ∈ (Intake.ofItems settings.malformed items).records := by
    rw [← attemptAll_records settings files (s.begin source.trace).survey
      (Intake.ofItems settings.malformed items).records]
    exact List.mem_map_of_mem (List.mem_of_getElem? hattempt)
  have hlegible := openFile_legible hopen (ofItems_records hrecord)
  rw [hkind]
  exact lineFeed_kind (hlegible TraceColumn.action (by decide)).lineFeed

theorem processTrace_fed {s : Session} {source : Source}
    (hs : List.Forall₂ (Watcher.Fed fun a => '\n' ∉ a.kind.text.toList) ws s.model.watchers) :
    List.Forall₂ (Watcher.Fed fun a => '\n' ∉ a.kind.text.toList) ws
      (processTrace settings files s source).1.model.watchers := by
  rcases @processTrace_commits settings files s source with
    hsame | hbegun | ⟨h, m, outcomes, hp, report, heach | hbatch⟩
  · rw [hsame]
    exact hs
  · rw [hbegun]
    exact hs
  · rw [heach]
    refine commitEach_fed ?_ (proposed_kinds hp)
    obtain ⟨-, items, -, rfl, -⟩ := hp
    exact hs
  · rw [hbatch]
    refine commitBatch_fed ?_ (proposed_kinds hp)
    obtain ⟨-, items, -, rfl, -⟩ := hp
    exact hs

/-- Each watcher of a load has been told of some commits, and then that the load is finished. -/
theorem load_fed {watchers : List Watcher} {cancelled : Bool} {l : Loaded}
    (hload : load settings files watchers cancelled = .ok l) {i : Nat} {w : Watcher}
    (hw : watchers[i]? = some w) : ∃ w', Watcher.Fed (fun a => '\n' ∉ a.kind.text.toList) w w' ∧
      l.model.watchers[i]? = some (w'.finish l.model.graph) := by
  obtain ⟨names, hlist⟩ := list_of_load hload
  have hrun : List.Forall₂ (Watcher.Fed fun a => '\n' ∉ a.kind.text.toList) watchers
      (runSources settings files cancelled (Session.new watchers)
        (traceFiles settings names)).1.model.watchers := by
    refine runSources_induction settings files (P := fun s => List.Forall₂ _ _ s.model.watchers) _
      (List.forall₂_same.2 fun w _ => .refl w) fun s source => processTrace_fed
  obtain ⟨hi, rfl⟩ := List.getElem?_eq_some_iff.1 hw
  have hi' := hrun.length_eq ▸ hi
  simp only [load, hlist, discover_eq] at hload
  cases hload
  refine ⟨_, hrun.get hi hi', ?_⟩
  rw [Model.finish, List.getElem?_map]
  exact congrArg (Option.map _) (List.getElem?_eq_getElem hi')

/-! ## What is shown -/

/-- The texts of widgets are read from one line each. -/
theorem load_texts {watchers : List Watcher} {cancelled : Bool} {l : Loaded}
    (hload : load settings files watchers cancelled = .ok l) {id : WidgetId} {w : Widget}
    (hw : l.model.graph.widget? id = some w) : '\n' ∉ w.text.toList := by
  obtain ⟨names, hlist⟩ := list_of_load hload
  obtain ⟨known, hseen⟩ := load_seen hlist hload
  obtain ⟨rows, ⟨source, -, path, -, hread⟩, r, hr, rfl⟩ := hseen.widget id w hw
  exact (widgetOf_legible _ (readAll_legible hread hr)).text.lineFeed

/-- A label is the text of a registered widget, if it is not empty. -/
theorem label_of_widgets {P : String → Prop} {g : Graph} (hg : g.Canonical)
    (hwidgets : ∀ id w, g.widget? id = some w → P w.text) (hempty : P "") (c : Click) :
    P (c.label g) := by
  unfold Click.label
  split
  · exact hempty
  · split
    · rename_i s w hs hw
      rcases (labelled_unbounded s w).1 with hsame | hmem
      · rw [hsame]
        exact hwidgets _ _ hw
      · exact hwidgets _ _ (hg.member _ _ hs _ hmem)
    · exact hempty

theorem load_rows_text {watchers : List Watcher} {cancelled : Bool} {l : Loaded}
    (hload : load settings files watchers cancelled = .ok l) {log : ClickLog} {r : ClickRow}
    (hr : r ∈ (log.finish l.model.graph).rows) : '\n' ∉ r.text.toList := by
  obtain ⟨names, hlist⟩ := list_of_load hload
  obtain ⟨known, hseen⟩ := load_seen hlist hload
  obtain ⟨c, -, hr⟩ := List.mem_flatMap.1 ((sortBy_perm _ _).mem_iff.1 hr)
  obtain ⟨text, -, rfl⟩ := List.mem_map.1 hr
  exact label_of_widgets (P := fun text => '\n' ∉ text.toList) hseen.closed.toCanonical
    (fun id w => load_texts hload) (by simp) c

/-- After a load, the report of a click log is its header and a line for each of its rows, with the
cells of the row between the tabs, exactly if no text and no log of a row holds a tab and no log
holds a line feed. The report of a tally is its header and a line for each kind that was counted,
with its name and its count, exactly if no such name holds a tab. -/
theorem load_reports {watchers : List Watcher} {cancelled : Bool} {l : Loaded}
    (hload : load settings files watchers cancelled = .ok l) :
    (∀ i : Nat, watchers[i]? = some (.clicks .empty) →
      ∃ log, l.model.watchers[i]? = some (.clicks log) ∧
        (Tabulates log.report (ClickLog.header :: log.rows.map ClickRow.cells) ↔
          ∀ r ∈ log.rows, '\t' ∉ r.text.toList ∧ '\t' ∉ r.log.toList ∧ '\n' ∉ r.log.toList)) ∧
      ∀ i : Nat, watchers[i]? = some (.tally .empty) →
        ∃ (t : Tally) (kinds : List ActionKind), l.model.watchers[i]? = some (.tally t) ∧
          kinds.Nodup ∧ (∀ kind, kind ∈ kinds ↔ 0 < t.count kind) ∧
          (Tabulates t.report
              (Tally.header :: kinds.map fun kind => [kind.text, toString (t.count kind)]) ↔
            ∀ kind ∈ kinds, '\t' ∉ kind.text.toList) := by
  constructor
  · intro i hi
    obtain ⟨w, hfed, hfinal⟩ := load_fed hload hi
    obtain ⟨log, rfl⟩ := hfed.clicks
    refine ⟨log.finish l.model.graph, hfinal, ?_⟩
    rw [ClickLog.report_tabulates]
    refine forall₂_congr fun r hr => ?_
    have htext := load_rows_text hload hr
    exact ⟨fun h => ⟨h.1.separator, h.2.separator, h.2.lineFeed⟩,
      fun h => ⟨⟨h.1, htext⟩, ⟨h.2.1, h.2.2⟩⟩⟩
  · intro i hi
    obtain ⟨w, hfed, hfinal⟩ := load_fed hload hi
    obtain ⟨t, rfl, hproper, hkinds⟩ := hfed.tally
    refine ⟨t, t.kinds, hfinal, hproper.nodup, fun _ => hproper.mem_kinds_iff, ?_⟩
    refine hproper.report_tabulates.trans (forall₂_congr fun kind hkind => ?_)
    obtain ⟨a, hfeed, rfl⟩ := hkinds kind hkind
    exact ⟨Fits.separator, fun htab => ⟨htab, hfeed⟩⟩

/-! ## A table and no table -/

def reportSettings : Settings :=
  (Settings.ofBase ⟨"m"⟩).sequential

/-- A directory with one state file and one trace file. -/
def reportFiles (rows records : String) : Tree where
  cwd := ["work"]
  nodes := [
    (["work"], .directory),
    (["work", "m"], .directory),
    (["work", "m", "states"], .directory),
    (["work", "m", "states", "s1.csv"], .file (utf8 rows)),
    (["work", "m", "trace00000000-0000-0000-0000-000000000001.csv"], .file (utf8 records))]

def reportTrace : TraceId :=
  ⟨⟨List.replicate 15 0 ++ [1], Uuid.length_bytes_one⟩⟩

/-- A click on a button, with two logs. Neither report has to be repaired by a reader. -/
theorem load_reports_mail :
    let files := reportFiles "b;Button;ok;app;/b;Send mail;true;;;;;1:1:2:2\n"
      "Click;s1;s1;b;;;;;;[\"sent\", \"E/App: full\"]\nSwipe;s1;s1;;\n"
    let button := some (WidgetKey.id ⟨"Button", "ok", "app", "/b"⟩)
    let rows : List ClickRow := [⟨reportTrace, 0, "Send mail", button, "sent"⟩,
      ⟨reportTrace, 0, "Send mail", button, "E/App: full"⟩]
    ∃ l t log, load reportSettings files [.tally .empty, .clicks .empty] false = .ok l ∧
      l.model.watchers = [.tally t, .clicks log] ∧ log.rows = rows ∧
      Tabulates log.report (ClickLog.header :: rows.map ClickRow.cells) ∧
      ∃ kinds : List ActionKind, (∀ kind, kind ∈ kinds ↔ 0 < t.count kind) ∧
        Tabulates t.report
          (Tally.header :: kinds.map fun kind => [kind.text, toString (t.count kind)]) := by
  intro files button rows
  let t : Tally := ⟨[(.click, 1), (.swipe, 1)]⟩
  have hloaded : (load reportSettings files [.tally .empty, .clicks .empty] false).toOption.any
      (fun l => l.model.watchers = [.tally t, .clicks ⟨[], rows⟩]) = true := by
    decide +kernel
  obtain ⟨l, hload, hfinal⟩ := loads_of_any hloaded
  have hwatchers := of_decide_eq_true hfinal
  obtain ⟨hlogs, htallies⟩ := load_reports hload
  obtain ⟨log, hlog, hrows⟩ := hlogs 1 rfl
  obtain ⟨t', kinds, ht, -, hkinds, hcounts⟩ := htallies 0 rfl
  rw [hwatchers] at hlog ht
  cases hlog
  cases ht
  have hproper : t.Proper := ⟨by decide, by decide⟩
  refine ⟨l, t, _, hload, hwatchers, rfl, hrows.2 (by decide), kinds, hkinds,
    hcounts.2 fun kind hkind => ?_⟩
  have hcounted : kind ∈ [.click, .swipe] := hproper.mem_kinds_iff.2 ((hkinds kind).1 hkind)
  have hnames : ∀ kind ∈ [ActionKind.click, .swipe], '\t' ∉ kind.text.toList := by decide
  exact hnames kind hcounted

/-- A log with a line feed and a tab, and a kind with a tab in its name: neither report is the table
of what was collected. -/
theorem reports_untabulated :
    let files := reportFiles ""
      "Click;s1;s1;;;;;;;[\"E/App: crash\\n\\tat Main\"]\nLong\tPress;s1;s1;;\n"
    ∃ l t log, load reportSettings files [.tally .empty, .clicks .empty] false = .ok l ∧
      l.model.watchers = [.tally t, .clicks log] ∧
      ¬ Tabulates log.report (ClickLog.header :: log.rows.map ClickRow.cells) ∧
      ∀ kinds : List ActionKind, (∀ kind, kind ∈ kinds ↔ 0 < t.count kind) →
        ¬ Tabulates t.report
          (Tally.header :: kinds.map fun kind => [kind.text, toString (t.count kind)]) := by
  intro files
  let t : Tally := ⟨[(.click, 1), (.other "Long\tPress", 1)]⟩
  let row : ClickRow := ⟨reportTrace, 0, "", none, "E/App: crash\n\tat Main"⟩
  have hloaded : (load reportSettings files [.tally .empty, .clicks .empty] false).toOption.any
      (fun l => l.model.watchers = [.tally t, .clicks ⟨[], [row]⟩]) = true := by
    decide +kernel
  obtain ⟨l, hload, hfinal⟩ := loads_of_any hloaded
  refine ⟨l, t, ⟨[], [row]⟩, hload, of_decide_eq_true hfinal, fun htable => ?_,
    fun kinds hkinds htable => ?_⟩
  · have hlog := (ClickLog.report_tabulates _).1 htable row List.mem_cons_self
    exact absurd hlog.2.lineFeed (by decide)
  · have hkind : ActionKind.other "Long\tPress" ∈ kinds := (hkinds _).2 (by decide)
    have hname := htable.fits _ (List.mem_cons_of_mem _ (List.mem_map_of_mem hkind)) _
      List.mem_cons_self
    exact absurd hname.separator (by decide)

end Load
end ScreenGraph
