import ScreenGraph.Proofs.Watch.Delivery

/-!
# ScreenGraph.Proofs.Watch.Clicks

The rows of a click log, told by the traces alone.

Clicks are collected in the order in which they are announced, from traces that grow by turns, and
their rows are sorted once, when nothing more will be committed. Rows of one action are on a par,
and stay in the order of its logs because sorting is stable. Rows of different actions are never on
a par: a trace has an id of its own, and the indices of its actions grow.

* `rowsTold_trace`: before they are sorted, the rows of a trace are those of its clicks.
* `sortBy_rowsTold`: sorting puts them into the order of the traces and of their actions.
* `InFrontOf.run`: a watcher has been told everything if nobody in front of it broke off.
* `run_clicks`: the rows after a history, and those of two histories that end with the same
  contents.
-/

namespace ScreenGraph

open Graph Identity Screen Watch

namespace Watch

/-! ## The order of rows -/

namespace ClickRow

theorem le_iff {a b : ClickRow} : a.le b = true ↔
    (a.trace = b.trace ∧ a.index ≤ b.index) ∨ (a.trace ≠ b.trace ∧ a.trace.le b.trace = true) := by
  unfold le
  split
  · next h => simp [h]
  · next h => simp [h]

theorem le_trans (a b c : ClickRow) (h : a.le b = true) (h' : b.le c = true) :
    a.le c = true := by
  rw [le_iff] at h h' ⊢
  rcases h with ⟨htrace, hindex⟩ | ⟨hne, hle⟩ <;> rcases h' with ⟨htrace', hindex'⟩ | ⟨hne', hle'⟩
  · exact .inl ⟨htrace.trans htrace', Nat.le_trans hindex hindex'⟩
  · exact .inr ⟨htrace ▸ hne', htrace ▸ hle'⟩
  · exact .inr ⟨htrace' ▸ hne, htrace' ▸ hle⟩
  · refine .inr ⟨fun hac => hne ?_, Ident.le_trans _ _ _ hle hle'⟩
    exact Ident.le_antisymm _ _ hle (hac ▸ hle')

theorem le_total (a b : ClickRow) : a.le b = true ∨ b.le a = true := by
  simp only [le_iff]
  by_cases htrace : a.trace = b.trace
  · exact (Nat.le_total a.index b.index).imp (fun h => .inl ⟨htrace, h⟩)
      fun h => .inl ⟨htrace.symm, h⟩
  · exact (Ident.le_total a.trace b.trace).imp (fun h => .inr ⟨htrace, h⟩)
      fun h => .inr ⟨Ne.symm htrace, h⟩

theorem tie_iff {a b : ClickRow} : (a.le b && b.le a) = true ↔
    a.trace = b.trace ∧ a.index = b.index := by
  rw [Bool.and_eq_true, le_iff, le_iff]
  constructor
  · rintro ⟨⟨htrace, hindex⟩ | ⟨hne, hle⟩, ⟨htrace', hindex'⟩ | ⟨hne', hle'⟩⟩
    · exact ⟨htrace, by omega⟩
    · exact absurd htrace.symm hne'
    · exact absurd htrace'.symm hne
    · exact absurd (Ident.le_antisymm _ _ hle hle') hne
  · rintro ⟨htrace, hindex⟩
    exact ⟨.inl ⟨htrace, Nat.le_of_eq hindex⟩, .inl ⟨htrace.symm, Nat.le_of_eq hindex.symm⟩⟩

/-- The rows on a par with a row are among those of its trace. -/
theorem ties_eq (k : ClickRow) (rows : List ClickRow) :
    ties le k rows = (rows.filter fun r => decide (r.trace = k.trace)).filter fun r =>
      decide (r.index = k.index) := by
  rw [ties, List.filter_filter]
  refine List.filter_congr fun r _ => ?_
  rw [Bool.eq_iff_iff, tie_iff]
  simp [and_comm]

/-- Rows are sorted trace by trace. -/
theorem sortBy_congr {rows rows' : List ClickRow}
    (h : ∀ id, (rows.filter fun r => decide (r.trace = id)) =
      rows'.filter fun r => decide (r.trace = id)) : sortBy le rows = sortBy le rows' := by
  refine sortBy_eq_of_ties le_trans le_total (sortBy_pairwise le_trans le_total rows') fun k => ?_
  rw [ties_sortBy le_trans, ties_eq, ties_eq, h]

end ClickRow

/-! ## What is collected -/

/-- The clicks that commits tell of. -/
def clicksTold (cs : List Commit) : List Click :=
  cs.flatMap fun c =>
    ((c.actions.map Prod.fst).filter (·.kind.isClick)).map (Click.ofAction c.trace)

theorem observeAll_clicks (cs : List Commit) (l : ClickLog) : Watcher.observeAll cs (.clicks l) =
    .clicks { l with clicks := l.clicks ++ clicksTold cs } := by
  induction cs generalizing l with
  | nil => simp [Watcher.observeAll, clicksTold]
  | cons c cs ih =>
    refine (ih (l.observe c)).trans ?_
    simp [ClickLog.observe, clicksTold, List.append_assoc]

theorem ClickLog.report_congr {l l' : ClickLog} (h : l.rows = l'.rows) : l.report = l'.report := by
  unfold report
  rw [h]

/-- What is made from some of the elements is told by a property of these. -/
theorem filter_flatMap_of_forall {α β : Type} {p : β → Bool} {q : α → Bool} {f : α → List β}
    (h : ∀ a, ∀ b ∈ f a, p b = q a) (as : List α) :
    (as.flatMap f).filter p = (as.filter q).flatMap f := by
  induction as with
  | nil => rfl
  | cons a as ih =>
    rw [List.flatMap_cons, List.filter_append, ih, List.filter_cons]
    split
    · next hq =>
      rw [List.flatMap_cons, List.filter_eq_self.2 fun b hb => (h a b hb).trans hq]
    · next hq =>
      rw [List.filter_eq_nil_iff.2 fun b hb hp => hq ((h a b hb).symm.trans hp), List.nil_append]

theorem clicksTold_trace (cs : List Commit) (id : TraceId) :
    ((clicksTold cs).filter fun c => decide (c.trace = id)) =
      (((actionsTold cs id).map Prod.fst).filter (·.kind.isClick)).map (Click.ofAction id) := by
  have htrace : ∀ c : Commit, ∀ k ∈ ((c.actions.map Prod.fst).filter (·.kind.isClick)).map
      (Click.ofAction c.trace), decide (k.trace = id) = decide (c.trace = id) := by
    intro c k hk
    obtain ⟨a, -, rfl⟩ := List.mem_map.1 hk
    rfl
  rw [clicksTold, filter_flatMap_of_forall htrace, actionsTold, List.map_flatMap,
    List.filter_flatMap, List.map_flatMap]
  refine List.flatMap_congr fun c hc => ?_
  have hid : c.trace = id := by simpa using (List.mem_filter.1 hc).2
  rw [hid]

/-! ## The rows of a trace -/

/-- The logs of an action, or a single empty one. -/
def logLines (a : Action) : List String :=
  if a.deviceLogs = [] then [""] else a.deviceLogs

/-- One row for each log of each click, by action and then in the order of the logs. -/
def clickRows (label : Action → String) (t : Trace) : List ClickRow :=
  (t.actions.filter fun a => a.kind = .click ∨ a.kind = .longClick).flatMap fun a =>
    (logLines a).map fun log => ⟨t.id, a.index, label a, a.target, log⟩

/-- The text is that of the widget that names the target of the action in its source state. -/
def Names (g : Graph) (a : Action) (text : String) : Prop :=
  match a.target with
  | none => text = ""
  | some id => ∃ s w, g.state? a.source = some s ∧ g.widget? id = some w ∧
      s.contains id = true ∧ text = (labelled s w).text

def targetText (g : Graph) (a : Action) : String :=
  match g.state? a.source, a.target.bind g.widget? with
  | some s, some w => (labelled s w).text
  | _, _ => ""

theorem names_targetText {g : Graph} {a : Action} (h : g.Admits a) :
    Names g a (targetText g a) := by
  obtain ⟨s, -, hs, -, htarget⟩ := h
  unfold Names targetText
  cases hid : a.target with
  | none => simp
  | some id =>
    obtain ⟨hregistered, hcontains⟩ := htarget id hid
    obtain ⟨w, hw⟩ := Option.isSome_iff_exists.1 hregistered
    exact ⟨s, w, hs, hw, hcontains, by simp [hs, hw]⟩

theorem targetText_congr {g g' : Graph} (hwidget : ∀ id, g.widget? id = g'.widget? id)
    (hstate : ∀ id, g.state? id = g'.state? id) : targetText g = targetText g' := by
  have hwidgets : g.widget? = g'.widget? := funext hwidget
  funext a
  rw [targetText, targetText, hstate, hwidgets]

theorem rows_ofAction (g : Graph) (id : TraceId) (a : Action) : (Click.ofAction id a).rows g =
    (logLines a).map fun log => ⟨id, a.index, targetText g a, a.target, log⟩ := by
  have hlabel : (Click.ofAction id a).label g = targetText g a := by
    unfold Click.label targetText Click.ofAction
    cases a.target with
    | none => simp
    | some w => rfl
  simp only [Click.rows, hlabel, logLines, List.isEmpty_iff]
  rfl

theorem isClick_iff {kind : ActionKind} :
    kind.isClick = true ↔ kind = .click ∨ kind = .longClick := by
  cases kind <;> simp [ActionKind.isClick]

theorem clickRows_eq (g : Graph) (t : Trace) :
    ((t.actions.filter (·.kind.isClick)).map (Click.ofAction t.id)).flatMap (·.rows g) =
      clickRows (targetText g) t := by
  have hclick : (t.actions.filter fun a => a.kind.isClick) =
      t.actions.filter fun a => decide (a.kind = .click ∨ a.kind = .longClick) := by
    refine List.filter_congr fun a _ => ?_
    rw [Bool.eq_iff_iff, isClick_iff, decide_eq_true_eq]
  rw [List.flatMap_map, hclick, clickRows]
  exact List.flatMap_congr fun a _ => rows_ofAction g t.id a

theorem mem_clickRows {label : Action → String} {t : Trace} {r : ClickRow}
    (h : r ∈ clickRows label t) : r.trace = t.id ∧ ∃ a ∈ t.actions, r.index = a.index := by
  obtain ⟨a, ha, hr⟩ := List.mem_flatMap.1 h
  obtain ⟨log, -, rfl⟩ := List.mem_map.1 hr
  exact ⟨rfl, a, (List.mem_filter.1 ha).1, rfl⟩

theorem clickRows_pairwise (label : Action → String) {t : Trace}
    (h : t.actions.Pairwise fun a b => a.index < b.index) :
    (clickRows label t).Pairwise fun r q => r.le q = true := by
  refine List.pairwise_flatMap.2 ⟨fun a _ => ?_, (h.filter _).imp fun {a b} hlt r hr q hq => ?_⟩
  · refine List.pairwise_map.2 (List.pairwise_iff_forall_sublist.2 fun _ => ?_)
    exact ClickRow.le_iff.2 (.inl ⟨rfl, Nat.le_refl _⟩)
  · obtain ⟨log, -, rfl⟩ := List.mem_map.1 hr
    obtain ⟨log', -, rfl⟩ := List.mem_map.1 hq
    exact ClickRow.le_iff.2 (.inl ⟨rfl, Nat.le_of_lt hlt⟩)

/-- The rows of traces with different ids. -/
theorem flatMap_clickRows_pairwise (label : Action → String) {ts : List Trace}
    (hts : ts.Pairwise fun t u => t.id.le u.id = true ∧ t.id ≠ u.id)
    (hactions : ∀ t ∈ ts, t.actions.Pairwise fun a b => a.index < b.index) :
    (ts.flatMap (clickRows label)).Pairwise fun r q => r.le q = true := by
  refine List.pairwise_flatMap.2 ⟨fun t ht => clickRows_pairwise label (hactions t ht), ?_⟩
  refine hts.imp fun {t u} hlt r hr q hq => ClickRow.le_iff.2 (.inr ?_)
  rw [(mem_clickRows hr).1, (mem_clickRows hq).1]
  exact ⟨hlt.2, hlt.1⟩

end Watch

namespace Graph

/-- The traces in the order of their ids. -/
def sortedTraces (g : Graph) : List Trace :=
  sortBy (fun t u => t.id.le u.id) g.traces

theorem sortedTraces_pairwise {g : Graph} (hg : g.Sound) :
    g.sortedTraces.Pairwise fun t u => t.id.le u.id = true ∧ t.id ≠ u.id := by
  have hordered : g.sortedTraces.Pairwise fun t u => t.id.le u.id = true :=
    sortBy_pairwise (fun t u v => Ident.le_trans t.id u.id v.id)
      (fun t u => Ident.le_total t.id u.id) g.traces
  have hdistinct : (g.sortedTraces.map (·.id)).Nodup :=
    (((sortBy_perm _ g.traces).map (·.id)).nodup_iff).2 hg.traceIds
  exact hordered.and (List.pairwise_map.1 hdistinct)

theorem filter_sortedTraces (g : Graph) (id : TraceId) :
    (g.sortedTraces.filter fun t => decide (t.id = id)) =
      g.traces.filter fun t => decide (t.id = id) := by
  have hties : ∀ ts : List Trace, (ts.filter fun t => decide (t.id = id)) =
      ties (fun t u => t.id.le u.id) (Trace.new id) ts := by
    intro ts
    refine List.filter_congr fun t _ => ?_
    rw [Bool.eq_iff_iff, decide_eq_true_eq, Bool.and_eq_true]
    constructor
    · rintro rfl
      have hself : t.id.le t.id = true := or_self_iff.1 (Ident.le_total t.id t.id)
      exact ⟨hself, hself⟩
    · exact fun ⟨h, h'⟩ => Ident.le_antisymm _ _ h h'
  rw [hties, hties, sortedTraces, ties_sortBy fun t u v => Ident.le_trans t.id u.id v.id]

/-- The actions of the trace with an id, none if there is no such trace. -/
def actionsUnder (g : Graph) (id : TraceId) : List Action :=
  ((g.trace? id).map (·.actions)).getD []

/-- Two graphs with the same registered widgets and states, and the same actions under each trace
id. The order in which traces were begun, and the aliases, may differ. -/
structure SameContents (g g' : Graph) : Prop where
  widget : ∀ id, g.widget? id = g'.widget? id
  state : ∀ id, g.state? id = g'.state? id
  actions : ∀ id, g.actionsUnder id = g'.actionsUnder id

theorem filter_traces {g : Graph} (hg : g.Sound) (id : TraceId) :
    (g.traces.filter fun t => decide (t.id = id)) = (g.trace? id).toList := by
  have hids := hg.traceIds
  unfold trace?
  generalize g.traces = ts at hids
  induction ts with
  | nil => rfl
  | cons t ts ih =>
    obtain ⟨hnew, hrest⟩ := List.nodup_cons.1 hids
    by_cases hid : t.id = id
    · have hno : (ts.filter fun u => decide (u.id = id)) = [] := by
        refine List.filter_eq_nil_iff.2 fun u hu hsame => hnew (List.mem_map.2 ⟨u, hu, ?_⟩)
        exact (of_decide_eq_true hsame).trans hid.symm
      simp [hid, hno]
    · simp [hid, ih hrest]

end Graph

namespace Watch

variable {g g' : Graph} {cs : List Commit}

/-- The rows of the clicks that were told of, before they are sorted. -/
def rowsTold (g : Graph) (cs : List Commit) : List ClickRow :=
  (clicksTold cs).flatMap (·.rows g)

theorem rowsTold_trace (htold : Delivered cs g) (hg : g.Sound) (id : TraceId) :
    ((rowsTold g cs).filter fun r => decide (r.trace = id)) =
      clickRows (targetText g) ⟨id, g.actionsUnder id⟩ := by
  have hrows : ∀ c : Click, ∀ r ∈ c.rows g, decide (r.trace = id) = decide (c.trace = id) := by
    intro c r hr
    obtain ⟨log, -, rfl⟩ := List.mem_map.1 hr
    rfl
  rw [rowsTold, filter_flatMap_of_forall hrows, clicksTold_trace, htold.actions hg]
  exact clickRows_eq g ⟨id, g.actionsUnder id⟩

theorem flatMap_clickRows_trace (hg : g.Sound) (label : Action → String) (id : TraceId) :
    ((g.sortedTraces.flatMap (clickRows label)).filter fun r => decide (r.trace = id)) =
      clickRows label ⟨id, g.actionsUnder id⟩ := by
  have hrows : ∀ t : Trace, ∀ r ∈ clickRows label t,
      decide (r.trace = id) = decide (t.id = id) := by
    intro t r hr
    rw [(mem_clickRows hr).1]
  rw [filter_flatMap_of_forall hrows, filter_sortedTraces, filter_traces hg, actionsUnder]
  cases hfound : g.trace? id with
  | none => rfl
  | some t =>
    obtain ⟨-, rfl⟩ := (Model.trace?_eq_some_iff hg).1 hfound
    exact List.flatMap_singleton _ _

/-- Sorting puts the rows into the order of the traces and of their actions. -/
theorem sortBy_rowsTold (htold : Delivered cs g) (hg : g.Sound) :
    sortBy ClickRow.le (rowsTold g cs) = g.sortedTraces.flatMap (clickRows (targetText g)) := by
  have hordered : ∀ t ∈ g.sortedTraces, t.actions.Pairwise fun a b => a.index < b.index :=
    fun t ht => hg.ordered t ((sortBy_perm _ _).mem_iff.1 ht)
  refine sortBy_eq_of_ties ClickRow.le_trans ClickRow.le_total
    (flatMap_clickRows_pairwise _ (sortedTraces_pairwise hg) hordered) fun k => ?_
  rw [ClickRow.ties_eq, ClickRow.ties_eq, rowsTold_trace htold hg, flatMap_clickRows_trace hg]

/-- When sorted, the rows are told by the contents of the graph. -/
theorem sortBy_rowsTold_congr {cs' : List Commit} (htold : Delivered cs g) (hg : g.Sound)
    (htold' : Delivered cs' g') (hg' : g'.Sound) (hsame : g.SameContents g') :
    sortBy ClickRow.le (rowsTold g' cs') = sortBy ClickRow.le (rowsTold g cs) := by
  refine ClickRow.sortBy_congr fun id => ?_
  rw [rowsTold_trace htold' hg', rowsTold_trace htold hg, hsame.actions,
    targetText_congr hsame.widget hsame.state]

/-! ## In front and behind -/

/-- A watcher is told of a commit if nobody in front of it breaks off. -/
theorem Watcher.notify_behind {c : Commit} {front : List Watcher} (w : Watcher)
    (behind : List Watcher) (h : (notify c front).2 = false) :
    ∃ behind', (notify c (front ++ w :: behind)).1 =
      (notify c front).1 ++ w.observe c :: behind' := by
  induction front with
  | nil =>
    simp only [List.nil_append, notify]
    split
    · exact ⟨behind, rfl⟩
    · exact ⟨(notify c behind).1, rfl⟩
  | cons v front ih =>
    simp only [List.cons_append, notify] at h ⊢
    split at h
    · cases h
    · next hv =>
      obtain ⟨behind', hbehind⟩ := ih h
      rw [if_neg hv, if_neg hv]
      exact ⟨behind', congrArg (_ :: ·) hbehind⟩

end Watch

namespace Model

/-- The graph goes its way whoever watches. -/
theorem step_graph_congr {m m' : Model} (h : m.graph = m'.graph) (op : Operation) :
    (m.step op).1.graph = (m'.step op).1.graph ∧ m.told op = m'.told op := by
  obtain ⟨g, watchers⟩ := m
  obtain ⟨g', watchers'⟩ := m'
  cases h
  refine ⟨?_, by cases op <;> rfl⟩
  cases op with
  | registerWidget w => rfl
  | registerState ws => rfl
  | aliasWidget name id => rfl
  | aliasState name id => rfl
  | beginTrace id =>
    simp only [step, beginTrace]
    cases g.beginTrace id <;> rfl
  | append h a =>
    simp only [step, append]
    cases g.append h a with
    | error e => rfl
    | ok g' =>
      dsimp only
      cases g'.state? a.result <;> rfl
  | appendAll h as =>
    simp only [step, appendAll]
    split
    · rfl
    · cases g.appendAll h as <;> rfl

/-- The first model is the second one without a watcher and those behind it. -/
structure InFrontOf (front : Model) (w : Watcher) (m : Model) : Prop where
  graph : m.graph = front.graph
  watchers : ∃ behind, m.watchers = front.watchers ++ w :: behind

namespace InFrontOf

variable {front m : Model} {w : Watcher}

theorem new {watchers : List Watcher} {i : Nat} (h : watchers[i]? = some w) :
    InFrontOf (Model.new (watchers.take i)) w (Model.new watchers) := by
  obtain ⟨hlt, rfl⟩ := List.getElem?_eq_some_iff.1 h
  refine ⟨rfl, watchers.drop (i + 1), ?_⟩
  rw [Model.new, Model.new, ← List.drop_eq_getElem_cons hlt]
  exact (List.take_append_drop i watchers).symm

theorem step (h : InFrontOf front w m) (op : Operation)
    (hcalm : ∀ n, (front.step op).2 ≠ .committed n true) :
    InFrontOf (front.step op).1 (w.observeAll (front.told op)) (m.step op).1 := by
  obtain ⟨hgraph, behind, hwatchers⟩ := h
  obtain ⟨hgraph', htold⟩ := step_graph_congr hgraph op
  refine ⟨hgraph', ?_⟩
  rcases front.step_notified op with ⟨hnone, hsame⟩ | ⟨c, n, hone, hnotified, hanswer⟩ <;>
    rcases m.step_notified op with ⟨hnone', hsame'⟩ | ⟨c', n', hone', hnotified', -⟩
  · rw [hsame, hsame', hnone]
    exact ⟨behind, hwatchers⟩
  · rw [htold, hnone] at hone'
    cases hone'
  · rw [htold, hone] at hnone'
    cases hnone'
  · rw [htold, hone] at hone'
    cases hone'
    rw [hnotified, hnotified', hone, hwatchers]
    refine Watcher.notify_behind w behind (Bool.eq_false_iff.2 fun hbroken => ?_)
    rw [hbroken] at hanswer
    exact hcalm n hanswer

/-- A watcher has been told everything if nobody in front of it broke off. -/
theorem run (h : InFrontOf front w m) {ops : List Operation} (hcalm : front.Unbroken ops) :
    InFrontOf (front.run ops) (w.observeAll (front.toldAll ops)) (m.run ops) := by
  induction ops generalizing front w m with
  | nil => exact h
  | cons op ops ih =>
    have hstep := h.step op fun n hn => hcalm n (hn ▸ List.mem_cons_self)
    have hrest := ih hstep fun n hn => hcalm n (List.mem_cons_of_mem _ hn)
    rwa [← Watcher.observeAll_append] at hrest

end InFrontOf

/-- What a log has collected after a history, with nobody in front of it who breaks off. -/
theorem run_collected {watchers : List Watcher} {i : Nat} {ops : List Operation}
    (hlog : watchers[i]? = some (.clicks .empty))
    (hcalm : (Model.new (watchers.take i)).Unbroken ops) :
    let m := (Model.new watchers).run ops
    ∃ cs, Delivered cs m.graph ∧ m.finish.watchers[i]? =
      some (.clicks ⟨[], sortBy ClickRow.le (rowsTold m.graph cs)⟩) := by
  intro m
  obtain ⟨hgraph, behind, hwatchers⟩ := (InFrontOf.new hlog).run hcalm
  refine ⟨(Model.new (watchers.take i)).toldAll ops, ?_, ?_⟩
  · rw [hgraph]
    exact run_told (m := Model.new (watchers.take i)) delivered_initial sound_initial
  · have hlength : ((Model.new (watchers.take i)).run ops).watchers.length = i := by
      rw [run_watchers hcalm, List.length_map]
      exact List.length_take_of_le (Nat.le_of_lt (List.getElem?_eq_some_iff.1 hlog).1)
    rw [finish, List.getElem?_map, hwatchers, List.getElem?_append_right (Nat.le_of_eq hlength),
      hlength, Nat.sub_self, observeAll_clicks]
    rfl

/-- When nothing more will be committed, the rows of a log are, by trace and then by action, one for
each log of each committed click, with the text that names its target; whatever the other watchers
do behind it. So the rows and the report are the same after any two histories that end with the same
contents, no matter in which order and in what batches these were committed. -/
theorem run_clicks {watchers : List Watcher} {i : Nat} {ops : List Operation}
    (hlog : watchers[i]? = some (.clicks .empty))
    (hcalm : (Model.new (watchers.take i)).Unbroken ops) :
    let m := (Model.new watchers).run ops
    ∃ l, m.finish.watchers[i]? = some (.clicks l) ∧
      (∃ (ts : List Trace) (label : Action → String), ts.Perm m.graph.traces ∧
        ts.Pairwise (fun t u => t.id.le u.id = true ∧ t.id ≠ u.id) ∧
        (∀ t ∈ ts, t.actions.Pairwise fun a b => a.index < b.index) ∧
        (∀ t ∈ ts, ∀ a ∈ t.actions, Names m.graph a (label a)) ∧
        l.rows = ts.flatMap (clickRows label)) ∧
      ∀ (watchers' : List Watcher) (j : Nat) (ops' : List Operation),
        watchers'[j]? = some (.clicks .empty) →
        (Model.new (watchers'.take j)).Unbroken ops' →
        let m' := (Model.new watchers').run ops'
        m.graph.SameContents m'.graph →
        ∃ l', m'.finish.watchers[j]? = some (.clicks l') ∧
          l'.rows = l.rows ∧ l'.report = l.report := by
  intro m
  have hsound : m.graph.Sound := run_sound ops sound_initial
  obtain ⟨cs, htold, hfinal⟩ : ∃ cs, Delivered cs m.graph ∧ m.finish.watchers[i]? =
      some (.clicks ⟨[], sortBy ClickRow.le (rowsTold m.graph cs)⟩) := run_collected hlog hcalm
  have hsorted : m.graph.sortedTraces.Perm m.graph.traces := sortBy_perm _ m.graph.traces
  have hrows := sortBy_rowsTold htold hsound
  clear_value m
  refine ⟨_, hfinal, ⟨m.graph.sortedTraces, targetText m.graph, hsorted,
    sortedTraces_pairwise hsound, fun t ht => ?_, fun t ht a ha => ?_, hrows⟩, ?_⟩
  · exact hsound.ordered t (hsorted.mem_iff.1 ht)
  · exact names_targetText (hsound.committed t (hsorted.mem_iff.1 ht) a ha)
  · intro watchers' j ops' hlog' hcalm' m' hsame
    obtain ⟨cs', htold', hfinal'⟩ := run_collected hlog' hcalm'
    have hsound' : m'.graph.Sound := run_sound ops' sound_initial
    have hsameRows := sortBy_rowsTold_congr htold hsound htold' hsound' hsame
    exact ⟨_, hfinal', hsameRows, ClickLog.report_congr hsameRows⟩

/-- Two traces by turns, with a journal behind the log that breaks off at once; and the same traces
one after the other, the second of them in a batch. A button without a text is named by its
label. -/
theorem run_clicks_turns :
    let first : TraceId := ⟨⟨List.replicate 16 0, rfl⟩⟩
    let second : TraceId := ⟨⟨List.replicate 16 1, rfl⟩⟩
    let id : UInt8 → WidgetId := fun n => ⟨⟨List.replicate 16 n, rfl⟩⟩
    let widget : UInt8 → String → Option WidgetId → Widget := fun n text parent =>
      ⟨id n, "", "", "", "", text, false, false, false, false, parent, .zero⟩
    let button := widget 1 "" none
    let shown := [button, widget 2 "Send" (some (id 1))]
    let click : Nat → Option WidgetId → List String → Action := fun index target logs =>
      ⟨index, .click, .ofWidgets [id 1, id 2], .empty, target, "", none, none, true, "", logs⟩
    let registered : List Operation := [.registerWidget button, .registerState shown]
    let turns : List Operation := registered ++ [.beginTrace second, .beginTrace first,
      .append ⟨0, second⟩ (click 2 (some (id 1)) ["b", "a"]), .append ⟨1, first⟩ (click 5 none []),
      .append ⟨0, second⟩ (click 3 none ["c"])]
    let blocks : List Operation := registered ++ [.beginTrace first,
      .append ⟨0, first⟩ (click 5 none []), .beginTrace second,
      .appendAll ⟨1, second⟩ [click 2 (some (id 1)) ["b", "a"], click 3 none ["c"]]]
    let watchers : List Watcher := [.tally .empty, .clicks .empty, .journal (.empty (some 1))]
    let m := (Model.new watchers).run turns
    let m' := (Model.new [.clicks .empty]).run blocks
    (Model.new (watchers.take 1)).Unbroken turns ∧ m.graph.SameContents m'.graph ∧
      ∃ l l', m.finish.watchers[1]? = some (.clicks l) ∧
        m'.finish.watchers[0]? = some (.clicks l') ∧ l'.rows = l.rows ∧ l'.report = l.report ∧
        l.rows = [⟨first, 5, "", none, ""⟩, ⟨second, 2, "Send", some (id 1), "b"⟩,
          ⟨second, 2, "Send", some (id 1), "a"⟩, ⟨second, 3, "", none, "c"⟩] := by
  intro first second id widget button shown click registered turns blocks watchers m m'
  have hanswers : (Model.new (watchers.take 1)).answers turns = [.done, .done,
      .begun ⟨0, second⟩, .begun ⟨1, first⟩, .committed 1 false, .committed 1 false,
      .committed 1 false] := by decide +kernel
  have hanswers' : (Model.new []).answers blocks = [.done, .done, .begun ⟨0, first⟩,
      .committed 1 false, .begun ⟨1, second⟩, .committed 2 false] := by decide +kernel
  have hcalm : (Model.new (watchers.take 1)).Unbroken turns := by
    intro n
    rw [hanswers]
    simp
  have hcalm' : (Model.new []).Unbroken blocks := by
    intro n
    rw [hanswers']
    simp
  have hwidgets : m.graph.widgets = m'.graph.widgets := by decide +kernel
  have hstates : m.graph.states = m'.graph.states := by decide +kernel
  let ones : List Action := [click 5 none []]
  let others : List Action := [click 2 (some (id 1)) ["b", "a"], click 3 none ["c"]]
  have htraces : m.graph.traces = [⟨second, others⟩, ⟨first, ones⟩] := by decide +kernel
  have htraces' : m'.graph.traces = [⟨first, ones⟩, ⟨second, others⟩] := by decide +kernel
  have hsame : m.graph.SameContents m'.graph := by
    refine ⟨fun w => by rw [widget?, widget?, hwidgets], fun s => by rw [state?, state?, hstates],
      fun t => ?_⟩
    rw [actionsUnder, actionsUnder, trace?, trace?, htraces, htraces']
    have hne : first ≠ second := by decide
    by_cases hfirst : first = t
    · subst hfirst
      simp [Ne.symm hne]
    · by_cases hsecond : second = t <;> simp [hfirst, hsecond]
  have hlog : watchers[1]? = some (.clicks .empty) := rfl
  obtain ⟨l, hl, -, hothers⟩ := run_clicks hlog hcalm
  obtain ⟨l', hl', hrows, hreport⟩ := hothers [.clicks .empty] 0 blocks rfl hcalm' hsame
  refine ⟨hcalm, hsame, l, l', hl, hl', hrows, hreport, ?_⟩
  have hfinal : m.finish.watchers[1]? = some (.clicks ⟨[], [⟨first, 5, "", none, ""⟩,
      ⟨second, 2, "Send", some (id 1), "b"⟩, ⟨second, 2, "Send", some (id 1), "a"⟩,
      ⟨second, 3, "", none, "c"⟩]⟩) := by decide +kernel
  have hlog : l = ⟨[], _⟩ := Watcher.clicks.inj (Option.some.inj (hl.symm.trans hfinal))
  rw [hlog]

end Model
end ScreenGraph
