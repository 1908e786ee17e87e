import ScreenGraph.Proofs.Graph.History

/-!
# ScreenGraph.Proofs.Watch.Delivery

What watchers are told of a history, against the traces that it leaves.

A commit is stored first and announced then, one action at a time or in a batch. So what was told
has to be compared with what is stored, over traces that grow in any interleaving, with commits in
between that are refused.

* `step_notified`, `step_watchers`, `step_effect`: what one operation tells, next to what it does to
  the traces.
* `Delivered.commit`, `Delivered.step`: what was told and what is stored stay together.
* `run_delivered`: each watcher has been told the actions of every trace, once and in their order,
  with the states that they led to; and the counts of a tally.
-/

namespace ScreenGraph

open Graph Identity Screen Watch

/-! ## What is told -/

namespace Watch

namespace Watcher

/-- A watcher after some commits, told in order. -/
def observeAll (cs : List Commit) (w : Watcher) : Watcher :=
  cs.foldl (fun w c => w.observe c) w

theorem observeAll_append (cs ds : List Commit) (w : Watcher) :
    w.observeAll (cs ++ ds) = (w.observeAll cs).observeAll ds :=
  List.foldl_append

/-- Everybody is told, unless somebody breaks off. -/
theorem notify_unbroken {c : Commit} {ws : List Watcher} (h : (notify c ws).2 = false) :
    (notify c ws).1 = ws.map (observe c) := by
  induction ws with
  | nil => rfl
  | cons w ws ih =>
    simp only [notify] at h ⊢
    split at h
    · cases h
    · rename_i hw
      rw [if_neg hw]
      exact congrArg _ (ih h)

end Watcher

/-- The commits of a journal are those it was told. -/
theorem observeAll_journal (cs : List Commit) (j : Journal) :
    ∃ j', Watcher.observeAll cs (.journal j) = .journal j' ∧ j'.commits = j.commits ++ cs := by
  induction cs generalizing j with
  | nil => exact ⟨j, rfl, (List.append_nil _).symm⟩
  | cons c cs ih =>
    obtain ⟨j', hj', hcommits⟩ := ih (j.observe c)
    refine ⟨j', hj', ?_⟩
    rw [hcommits]
    simp [Journal.commits, Journal.observe, List.filterMap_append]

theorem Tally.count_observe (t : Tally) (c : Commit) (kind : ActionKind) :
    (t.observe c).count kind = t.count kind + c.actions.countP (·.1.kind = kind) := by
  unfold Tally.observe
  generalize c.actions = as
  induction as generalizing t with
  | nil => rfl
  | cons a as ih =>
    rw [List.foldl_cons, ih, Tally.count_bump, List.countP_cons]
    by_cases hkind : a.1.kind = kind
    · simp [hkind]; omega
    · simp [hkind, Ne.symm hkind]

theorem Tally.total_observe (t : Tally) (c : Commit) :
    (t.observe c).total = t.total + c.actions.length := by
  unfold Tally.observe
  generalize c.actions = as
  induction as generalizing t with
  | nil => rfl
  | cons a as ih =>
    rw [List.foldl_cons, ih, Tally.total_bump, List.length_cons]
    omega

theorem observeAll_tally (cs : List Commit) (t : Tally) :
    ∃ t', Watcher.observeAll cs (.tally t) = .tally t' ∧
      (∀ kind, t'.count kind =
        t.count kind + (cs.flatMap (·.actions)).countP (·.1.kind = kind)) ∧
      t'.total = t.total + (cs.flatMap (·.actions)).length := by
  induction cs generalizing t with
  | nil => exact ⟨t, rfl, fun _ => rfl, rfl⟩
  | cons c cs ih =>
    obtain ⟨t', ht', hcount, htotal⟩ := ih (t.observe c)
    refine ⟨t', ht', fun kind => ?_, ?_⟩
    · rw [hcount, Tally.count_observe, List.flatMap_cons, List.countP_append, Nat.add_assoc]
    · rw [htotal, Tally.total_observe, List.flatMap_cons, List.length_append, Nat.add_assoc]

/-- The actions that commits tell of a trace, with the states that these led to. -/
def actionsTold (cs : List Commit) (id : TraceId) : List (Action × State) :=
  (cs.filter (·.trace = id)).flatMap (·.actions)

theorem actionsTold_append (cs ds : List Commit) (id : TraceId) :
    actionsTold (cs ++ ds) id = actionsTold cs id ++ actionsTold ds id := by
  simp [actionsTold]

end Watch

namespace Model

/-- The commits that an operation tells the watchers of. -/
def told (m : Model) : Operation → List Commit
  | .append h a =>
    match m.graph.append h a with
    | .error _ => []
    | .ok g => ((g.state? a.result).map (Commit.single h.id a)).toList
  | .appendAll h as =>
    if as.isEmpty then []
    else
      match m.graph.appendAll h as with
      | .error _ => []
      | .ok g => [.batch h.id (g.withResults as)]
  | _ => []

def toldAll (m : Model) : List Operation → List Commit
  | [] => []
  | op :: ops => m.told op ++ (m.step op).1.toldAll ops

/-- The answers to the operations of a history. -/
def answers (m : Model) : List Operation → List Answer
  | [] => []
  | op :: ops => (m.step op).2 :: (m.step op).1.answers ops

/-- No commit of a history is met by a watcher that breaks off. -/
def Unbroken (m : Model) (ops : List Operation) : Prop :=
  ∀ n, .committed n true ∉ m.answers ops

/-- An operation tells the watchers nothing, or of one commit. -/
theorem step_notified (m : Model) (op : Operation) :
    m.told op = [] ∧ (m.step op).1.watchers = m.watchers ∨
      ∃ c n, m.told op = [c] ∧ (m.step op).1.watchers = (Watcher.notify c m.watchers).1 ∧
        (m.step op).2 = .committed n (Watcher.notify c m.watchers).2 := by
  cases op with
  | registerWidget w => exact .inl ⟨rfl, rfl⟩
  | registerState ws => exact .inl ⟨rfl, rfl⟩
  | aliasWidget name id => exact .inl ⟨rfl, rfl⟩
  | aliasState name id => exact .inl ⟨rfl, rfl⟩
  | beginTrace id =>
    refine .inl ⟨rfl, ?_⟩
    simp only [step]
    cases hb : m.beginTrace id with
    | error e => rfl
    | ok begun =>
      unfold beginTrace at hb
      split at hb <;> cases hb
      rfl
  | append h a =>
    simp only [step, told, append]
    cases m.graph.append h a with
    | error e => exact .inl ⟨rfl, rfl⟩
    | ok g =>
      dsimp only
      cases g.state? a.result with
      | none => exact .inl ⟨rfl, rfl⟩
      | some result => exact .inr ⟨.single h.id a result, 1, rfl, rfl, rfl⟩
  | appendAll h as =>
    simp only [step, told, appendAll]
    split
    · exact .inl ⟨rfl, rfl⟩
    · cases m.graph.appendAll h as with
      | error e => exact .inl ⟨rfl, rfl⟩
      | ok g => exact .inr ⟨.batch h.id (g.withResults as), _, rfl, rfl, rfl⟩

/-- Every watcher is told what an operation tells. -/
theorem step_watchers {m : Model} {op : Operation}
    (hcalm : ∀ n, (m.step op).2 ≠ .committed n true) :
    (m.step op).1.watchers = m.watchers.map (Watcher.observeAll (m.told op)) := by
  rcases m.step_notified op with ⟨hnothing, hsame⟩ | ⟨c, n, hone, hnotified, hanswer⟩
  · rw [hnothing, hsame]
    exact (List.map_id _).symm
  · rw [hone, hnotified]
    refine Watcher.notify_unbroken (Bool.eq_false_iff.2 fun hbroken => ?_)
    rw [hbroken] at hanswer
    exact hcalm n hanswer

/-- All that an operation can do to the traces, with what it tells. -/
inductive Effect (g : Graph) : Graph → List Commit → Prop where
  | none {g' : Graph} (hkept : g.KeptIn g') (htraces : g'.traces = g.traces) : Effect g g' []
  | begun {g' : Graph} {id : TraceId} (hkept : g.KeptIn g') (hnew : ∀ t ∈ g.traces, t.id ≠ id)
    (htraces : g'.traces = g.traces ++ [Trace.new id]) : Effect g g' []
  | committed {h : TraceHandle} {t : Trace} {as : List Action} {c : Commit}
    (ht : g.traceOf? h = some t) (hadmits : ∀ a ∈ as, g.Admits a) (htrace : c.trace = h.id)
    (hactions : c.actions = g.withResults as) : Effect g (g.extendTrace h.slot as) [c]

theorem step_effect (m : Model) (op : Operation) :
    Effect m.graph (m.step op).1.graph (m.told op) := by
  have hkept := (m.step_change op).kept
  cases op with
  | registerWidget w => exact .none hkept rfl
  | registerState ws => exact .none hkept rfl
  | aliasWidget name id => exact .none hkept rfl
  | aliasState name id => exact .none hkept rfl
  | beginTrace id =>
    simp only [step] at hkept ⊢
    cases hb : m.beginTrace id with
    | error e => exact .none (.refl _) rfl
    | ok begun =>
      obtain ⟨hnew, hg, -⟩ := beginTrace_ok (beginTrace_graph hb)
      rw [hb] at hkept
      exact .begun hkept hnew (congrArg Graph.traces hg)
  | append h a =>
    simp only [step, told, append]
    cases happend : m.graph.append h a with
    | error e => exact .none (.refl _) rfl
    | ok g =>
      obtain ⟨t, ht, -, hadmits, rfl⟩ := append_ok_iff.1 happend
      obtain ⟨source, result, hsource, hresult, htarget⟩ := hadmits
      have hstate : (m.graph.extendTrace h.slot [a]).state? a.result = some result := by
        rw [extendTrace_state?, hresult]
      simp only [hstate, Option.map_some, Option.toList_some]
      refine .committed ht (List.forall_mem_singleton.2 ⟨source, result, hsource, hresult, htarget⟩)
        rfl ?_
      simp [Commit.actions, withResults, hresult]
  | appendAll h as =>
    simp only [step, told, appendAll]
    split
    · exact .none (.refl _) rfl
    · rename_i hne
      cases happend : m.graph.appendAll h as with
      | error e => exact .none (.refl _) rfl
      | ok g =>
        obtain ⟨t, ht, -, hadmits, rfl⟩ := (appendAll_ok_iff (by simpa using hne)).1 happend
        exact .committed ht hadmits rfl rfl

end Model

/-! ## What is stored -/

namespace Graph

section

variable {g g' : Graph} {as : List Action}

theorem withResults_kept (hkept : g.KeptIn g') (h : ∀ a ∈ as, g.Admits a) :
    g'.withResults as = g.withResults as := by
  refine List.filterMap_congr fun a ha => ?_
  obtain ⟨source, result, -, hresult, -⟩ := h a ha
  rw [hresult, hkept.state _ _ hresult]

/-- A commit leaves every trace with another id alone. -/
theorem mem_extendTrace_other {slot : Nat} {t u : Trace} (hg : g.Sound)
    (ht : g.traces[slot]? = some t) (hu : u ∈ (g.extendTrace slot as).traces) :
    u ∈ g.traces ∧ u.id ≠ t.id ∨ u = t.extend as := by
  obtain ⟨i, hi⟩ := List.getElem?_of_mem hu
  rw [extendTrace_getElem?] at hi
  split at hi
  · rename_i hslot
    subst hslot
    rw [ht] at hi
    exact .inr (Option.some.inj hi).symm
  · rename_i hslot
    refine .inl ⟨List.mem_of_getElem? hi, fun hid => hslot ?_⟩
    have hlt : slot < (g.traces.map (·.id)).length := by
      rw [List.length_map]
      exact (List.getElem?_eq_some_iff.1 ht).1
    refine (List.getElem?_inj hlt hg.traceIds).1 ?_
    rw [List.getElem?_map, List.getElem?_map, ht, hi, Option.map_some, Option.map_some, hid]

/-- A commit adds its actions to those of all traces. -/
theorem extendTrace_actions {slot : Nat} {t : Trace} (ht : g.traces[slot]? = some t)
    (as : List Action) : ((g.extendTrace slot as).traces.flatMap (·.actions)).Perm
      (g.traces.flatMap (·.actions) ++ as) := by
  unfold extendTrace
  dsimp only
  generalize g.traces = ts at ht
  induction ts generalizing slot with
  | nil => cases ht
  | cons u ts ih =>
    cases slot with
    | zero =>
      simp only [List.modify_zero_cons, List.flatMap_cons, Trace.extend, List.append_assoc]
      exact (List.perm_append_comm).append_left _
    | succ slot =>
      rw [List.getElem?_cons_succ] at ht
      simp only [List.modify_succ_cons, List.flatMap_cons, List.append_assoc]
      exact (ih ht).append_left _

end

/-- The commits in a list tell of the actions in a graph: of each trace, in order and with the
results, and of nothing else. -/
structure Delivered (cs : List Commit) (g : Graph) : Prop where
  trace : ∀ t ∈ g.traces, actionsTold cs t.id = g.withResults t.actions
  begun : ∀ c ∈ cs, ∃ t ∈ g.traces, t.id = c.trace
  all : ((cs.flatMap (·.actions)).map Prod.fst).Perm (g.traces.flatMap (·.actions))

theorem actionsTold_of_unknown {cs : List Commit} {id : TraceId} (h : ∀ c ∈ cs, c.trace ≠ id) :
    actionsTold cs id = [] := by
  rw [actionsTold, List.filter_eq_nil_iff.2, List.flatMap_nil]
  intro c hc
  simpa using h c hc

theorem delivered_initial : Delivered [] initial where
  trace := by
    intro t ht
    cases ht
  begun := by
    intro c hc
    cases hc
  all := .nil

namespace Delivered

variable {g g' : Graph} {cs ds : List Commit}

/-- A change that no trace has part in. -/
theorem kept (h : Delivered cs g) (hg : g.Sound) (hkept : g.KeptIn g')
    (htraces : g'.traces = g.traces) : Delivered cs g' where
  trace t ht := by
    rw [htraces] at ht
    rw [h.trace t ht, withResults_kept hkept (hg.committed t ht)]
  begun := htraces ▸ h.begun
  all := htraces ▸ h.all

theorem begin {id : TraceId} (h : Delivered cs g) (hg : g.Sound) (hkept : g.KeptIn g')
    (hnew : ∀ t ∈ g.traces, t.id ≠ id) (htraces : g'.traces = g.traces ++ [Trace.new id]) :
    Delivered cs g' where
  trace t ht := by
    rw [htraces] at ht
    rcases List.mem_append.1 ht with ht | ht
    · rw [h.trace t ht, withResults_kept hkept (hg.committed t ht)]
    · rw [List.mem_singleton.1 ht]
      refine actionsTold_of_unknown fun c hc => ?_
      obtain ⟨u, hu, hid⟩ := h.begun c hc
      rw [← hid]
      exact hnew u hu
  begun c hc := by
    obtain ⟨t, ht, hid⟩ := h.begun c hc
    exact ⟨t, htraces ▸ List.mem_append_left _ ht, hid⟩
  all := by
    rw [htraces, List.flatMap_append]
    simpa [Trace.new] using h.all

theorem commit {handle : TraceHandle} {t : Trace} {as : List Action} {c : Commit}
    (h : Delivered cs g) (hg : g.Sound) (ht : g.traceOf? handle = some t)
    (hadmits : ∀ a ∈ as, g.Admits a) (htrace : c.trace = handle.id)
    (hactions : c.actions = g.withResults as) :
    Delivered (cs ++ [c]) (g.extendTrace handle.slot as) := by
  obtain ⟨hslot, hid⟩ := traceOf?_eq_some_iff.1 ht
  have hmem : t ∈ g.traces := List.mem_of_getElem? hslot
  have hkept := g.kept_extendTrace handle.slot as
  refine ⟨fun u hu => ?_, fun d hd => ?_, ?_⟩
  · rw [actionsTold_append]
    rcases mem_extendTrace_other hg hslot hu with ⟨hold, hother⟩ | rfl
    -- another trace, of which nothing more was told
    · have hnot : actionsTold [c] u.id = [] := by
        refine actionsTold_of_unknown fun d hd => ?_
        rw [List.mem_singleton.1 hd, htrace, ← hid]
        exact hother.symm
      rw [hnot, List.append_nil, h.trace u hold, withResults_kept hkept (hg.committed u hold)]
    -- the trace of the handle
    · have hself : actionsTold [c] (t.extend as).id = c.actions := by
        have hsame : c.trace = (t.extend as).id := htrace.trans hid.symm
        simp [actionsTold, hsame]
      have hall : ∀ a ∈ t.actions ++ as, g.Admits a := by
        intro a ha
        exact (List.mem_append.1 ha).elim (hg.committed t hmem a) (hadmits a)
      have hold : actionsTold cs (t.extend as).id = g.withResults t.actions := h.trace t hmem
      rw [hself, hactions, hold, ← withResults_append]
      exact (withResults_kept hkept hall).symm
  · have hids : ∃ u ∈ g.traces, u.id = d.trace := by
      rcases List.mem_append.1 hd with hd | hd
      · exact h.begun d hd
      · rw [List.mem_singleton.1 hd, htrace]
        exact ⟨t, hmem, hid⟩
    have hmap : d.trace ∈ (g.extendTrace handle.slot as).traces.map (·.id) := by
      rw [extendTrace_ids]
      exact List.mem_map.2 hids
    exact List.mem_map.1 hmap
  · rw [List.flatMap_append, List.map_append, List.flatMap_singleton, hactions,
      withResults_fst hadmits]
    exact (h.all.append_right as).trans (extendTrace_actions hslot as).symm

/-- What was told and what is stored stay together. -/
theorem step (h : Delivered cs g) (hg : g.Sound) (heffect : Model.Effect g g' ds) :
    Delivered (cs ++ ds) g' := by
  cases heffect with
  | none hkept htraces => exact (List.append_nil cs).symm ▸ h.kept hg hkept htraces
  | begun hkept hnew htraces => exact (List.append_nil cs).symm ▸ h.begin hg hkept hnew htraces
  | committed ht hadmits htrace hactions => exact h.commit hg ht hadmits htrace hactions

/-- What was told of a trace are its actions, and nothing is told of a trace that is not there. -/
theorem actions (h : Delivered cs g) (hg : g.Sound) (id : TraceId) :
    (actionsTold cs id).map Prod.fst = ((g.trace? id).map (·.actions)).getD [] := by
  cases hfound : g.trace? id with
  | some t =>
    obtain ⟨ht, rfl⟩ := (Model.trace?_eq_some_iff hg).1 hfound
    rw [h.trace t ht, withResults_fst (hg.committed t ht)]
    rfl
  | none =>
    rw [actionsTold_of_unknown]
    · rfl
    · intro c hc hid
      obtain ⟨t, ht, htrace⟩ := h.begun c hc
      have hthere : g.trace? id = some t := (Model.trace?_eq_some_iff hg).2 ⟨ht, htrace.trans hid⟩
      rw [hfound] at hthere
      cases hthere

/-- The states that were told of are registered, and are those the actions led to. -/
theorem results (h : Delivered cs g) (hg : g.Sound) {id : TraceId} {a : Action} {s : State}
    (hp : (a, s) ∈ actionsTold cs id) : g.state? a.result = some s ∧ s.id = a.result := by
  obtain ⟨c, hc, -⟩ := List.mem_flatMap.1 hp
  obtain ⟨hc, htrace⟩ := List.mem_filter.1 hc
  obtain ⟨t, ht, hid⟩ := h.begun c hc
  have hsame : t.id = id := hid.trans (by simpa using htrace)
  rw [← hsame, h.trace t ht] at hp
  have hresult : g.state? a.result = some s := mem_withResults hp
  exact ⟨hresult, hg.stateKey _ _ hresult⟩

end Delivered

theorem actionCount_eq (g : Graph) : g.actionCount = (g.traces.flatMap (·.actions)).length := by
  rw [List.length_flatMap]
  rfl

end Graph

/-! ## Whole histories -/

namespace Model

/-- Nothing is told when an operation is refused, and nothing is changed. -/
theorem step_refused {m : Model} {op : Operation} {e : GraphError}
    (hrefused : (m.step op).2 = .refused e) : (m.step op).1 = m ∧ m.told op = [] := by
  cases op with
  | registerWidget w => cases hrefused
  | registerState ws => cases hrefused
  | aliasWidget name id => cases hrefused
  | aliasState name id => cases hrefused
  | beginTrace id =>
    simp only [step] at hrefused ⊢
    cases hb : m.beginTrace id with
    | error e => exact ⟨rfl, rfl⟩
    | ok begun => rw [hb] at hrefused; cases hrefused
  | append h a =>
    simp only [step] at hrefused ⊢
    cases happend : m.append h a with
    | error e =>
      refine ⟨rfl, ?_⟩
      simp only [told, append_error happend]
    | ok announced => rw [happend] at hrefused; cases hrefused
  | appendAll h as =>
    simp only [step] at hrefused ⊢
    cases happend : m.appendAll h as with
    | error e =>
      refine ⟨rfl, ?_⟩
      simp only [told, appendAll_error happend, ite_self]
    | ok announced => rw [happend] at hrefused; cases hrefused

variable {m : Model} {ops : List Operation}

theorem run_watchers (hcalm : m.Unbroken ops) :
    (m.run ops).watchers = m.watchers.map (Watcher.observeAll (m.toldAll ops)) := by
  induction ops generalizing m with
  | nil => exact (List.map_id _).symm
  | cons op ops ih =>
    have hstep : (m.step op).1.watchers = m.watchers.map (Watcher.observeAll (m.told op)) :=
      step_watchers fun n hn => hcalm n (hn ▸ List.mem_cons_self)
    have hrest : (m.step op).1.Unbroken ops := fun n hn => hcalm n (List.mem_cons_of_mem _ hn)
    refine (ih hrest).trans ?_
    rw [hstep, List.map_map]
    exact List.map_congr_left fun w _ => (Watcher.observeAll_append _ _ w).symm

theorem run_told {cs : List Commit} (h : Delivered cs m.graph) (hm : m.graph.Sound) :
    Delivered (cs ++ m.toldAll ops) (m.run ops).graph := by
  induction ops generalizing m cs with
  | nil => exact (List.append_nil cs).symm ▸ h
  | cons op ops ih =>
    have hstep := h.step hm (m.step_effect op)
    have hrun := ih hstep ((m.step_change op).sound hm)
    rwa [List.append_assoc] at hrun

/-- After any history in which nobody breaks off, every watcher has been told the actions of each
trace, each once and in their order, with the registered states that they led to; and a tally that
started empty counts the actions of all traces. A refused operation tells nothing. -/
theorem run_delivered {watchers : List Watcher} {ops : List Operation}
    (hcalm : (Model.new watchers).Unbroken ops) :
    let m := (Model.new watchers).run ops
    let cs := (Model.new watchers).toldAll ops
    m.watchers = watchers.map (Watcher.observeAll cs) ∧
      (∀ id, (actionsTold cs id).map Prod.fst = ((m.graph.trace? id).map (·.actions)).getD []) ∧
      (∀ id a s, (a, s) ∈ actionsTold cs id →
        m.graph.state? a.result = some s ∧ s.id = a.result) ∧
      (∀ op e, (m.step op).2 = .refused e → (m.step op).1 = m ∧ m.told op = []) ∧
      (∀ (i : Nat) j, watchers[i]? = some (.journal j) →
        ∃ j', m.watchers[i]? = some (.journal j') ∧ j'.commits = j.commits ++ cs) ∧
      ∀ (i : Nat), watchers[i]? = some (.tally .empty) →
        ∃ t, m.watchers[i]? = some (.tally t) ∧
          (∀ kind, t.count kind =
            (m.graph.traces.flatMap (·.actions)).countP (·.kind = kind)) ∧
          t.total = m.graph.actionCount := by
  intro m cs
  have hwatchers : m.watchers = watchers.map (Watcher.observeAll cs) := run_watchers hcalm
  have hsound : m.graph.Sound := run_sound ops sound_initial
  have htold : Delivered cs m.graph :=
    run_told (m := Model.new watchers) delivered_initial sound_initial
  refine ⟨hwatchers, htold.actions hsound, fun id a s => htold.results hsound,
    fun op e => step_refused, ?_, ?_⟩
  · intro i j hj
    obtain ⟨j', hj', hcommits⟩ := observeAll_journal cs j
    exact ⟨j', by rw [hwatchers, List.getElem?_map, hj, ← hj']; rfl, hcommits⟩
  · intro i ht
    obtain ⟨t, ht', hcount, htotal⟩ := observeAll_tally cs .empty
    refine ⟨t, by rw [hwatchers, List.getElem?_map, ht, ← ht']; rfl, fun kind => ?_, ?_⟩
    · rw [hcount, ← htold.all.countP_eq, List.countP_map]
      exact Nat.zero_add _
    · rw [htotal, actionCount_eq, ← htold.all.length_eq, List.length_map]
      exact Nat.zero_add _

/-- Two traces by turns. The batch in between is refused for its second action. -/
theorem run_delivered_turns :
    let first : TraceId := ⟨⟨List.replicate 16 0, rfl⟩⟩
    let second : TraceId := ⟨⟨List.replicate 16 1, rfl⟩⟩
    let watchers : List Watcher := [.tally .empty, .journal (.empty none)]
    let action : ActionKind → Nat → Action := fun kind index =>
      ⟨index, kind, .empty, .empty, none, "", none, none, true, "", []⟩
    let ops : List Operation := [.beginTrace first, .append ⟨0, first⟩ (action .launchApp 0),
      .beginTrace second, .appendAll ⟨1, second⟩ [action .launchApp 0, action .swipe 3],
      .appendAll ⟨0, first⟩ [action .swipe 1, action .swipe 1],
      .append ⟨0, first⟩ (action .swipe 2)]
    let m := (Model.new watchers).run ops
    (Model.new watchers).Unbroken ops ∧
      (Model.new watchers).answers ops = [.begun ⟨0, first⟩, .committed 1 false,
        .begun ⟨1, second⟩, .committed 2 false, .refused (.outOfOrder first 1 1),
        .committed 1 false] ∧
      m.graph.traces = [⟨first, [action .launchApp 0, action .swipe 2]⟩,
        ⟨second, [action .launchApp 0, action .swipe 3]⟩] ∧
      ∃ t, m.watchers[0]? = some (.tally t) ∧ t.count .swipe = 2 ∧ t.total = 4 := by
  intro first second watchers action ops m
  have hanswers : (Model.new watchers).answers ops = [.begun ⟨0, first⟩, .committed 1 false,
      .begun ⟨1, second⟩, .committed 2 false, .refused (.outOfOrder first 1 1),
      .committed 1 false] := by decide
  have hcalm : (Model.new watchers).Unbroken ops := by
    intro n
    rw [hanswers]
    simp
  have htraces : m.graph.traces = [⟨first, [action .launchApp 0, action .swipe 2]⟩,
      ⟨second, [action .launchApp 0, action .swipe 3]⟩] := by decide
  obtain ⟨t, ht, hcount, htotal⟩ := (run_delivered hcalm).2.2.2.2.2 0 rfl
  refine ⟨hcalm, hanswers, htraces, t, ht, ?_, ?_⟩
  · rw [hcount, htraces]
    decide
  · rw [htotal, actionCount_eq, htraces]
    decide

end Model
end ScreenGraph
