import Mathlib.Data.List.Nodup
import ScreenGraph.Proofs.Graph.Sound
import ScreenGraph.Watch.Model

/-!
# ScreenGraph.Proofs.Graph.History

Histories of a model: any sequence of operations, with any arguments, accepted or refused.

Nothing is assumed of the arguments. Widgets may carry ids that are not theirs, states may show
widgets that were never registered, aliases may denote nothing, and handles may come from another
model or from nowhere.

* `step_change`: all that one operation can do to the graph.
* `Change.sound`, `Change.kept`: what one operation preserves.
* `run_sound`, `run_kept`: what a history preserves.
* `run_invariant`: the invariant of every reachable model, what later operations leave alone, and
  what becomes of a handle.
-/

namespace ScreenGraph

open Identity Screen Graph Watch

namespace Model

/-- What may be asked of a model. -/
inductive Operation where
  | registerWidget (w : Widget)
  /-- Registers the state that shows the widgets. -/
  | registerState (ws : List Widget)
  | aliasWidget (name : String) (id : WidgetId)
  | aliasState (name : String) (id : StateId)
  | beginTrace (id : TraceId)
  | append (h : TraceHandle) (a : Action)
  | appendAll (h : TraceHandle) (as : List Action)

inductive Answer where
  | done
  | begun (h : TraceHandle)
  | committed (count : Nat) (broken : Bool)
  | refused (e : GraphError)
deriving DecidableEq

/-- The answer to a commit. A refused one leaves the model as it is. -/
def commitAnswer (m : Model) : Except GraphError Announced → Model × Answer
  | .error e => (m, .refused e)
  | .ok announced => (announced.model, .committed announced.committed announced.broken)

def step (m : Model) : Operation → Model × Answer
  | .registerWidget w => ({ m with graph := m.graph.addWidget w }, .done)
  | .registerState ws => ({ m with graph := m.graph.addState (State.ofWidgets ws) }, .done)
  | .aliasWidget name id => ({ m with graph := m.graph.aliasWidget name id }, .done)
  | .aliasState name id => ({ m with graph := m.graph.aliasState name id }, .done)
  | .beginTrace id =>
    match m.beginTrace id with
    | .error e => (m, .refused e)
    | .ok (m', h) => (m', .begun h)
  | .append h a => m.commitAnswer (m.append h a)
  | .appendAll h as => m.commitAnswer (m.appendAll h as)

def run (m : Model) (ops : List Operation) : Model :=
  ops.foldl (fun m op => (m.step op).1) m

/-! ## The graph behind the answers -/

theorem beginTrace_graph {m m' : Model} {id : TraceId} {h : TraceHandle}
    (hb : m.beginTrace id = .ok (m', h)) : m.graph.beginTrace id = .ok (m'.graph, h) := by
  unfold beginTrace at hb
  cases hg : m.graph.beginTrace id with
  | error e => rw [hg] at hb; cases hb
  | ok begun => rw [hg] at hb; cases hb; rfl

theorem append_graph {m : Model} {h : TraceHandle} {a : Action} {announced : Announced}
    (happend : m.append h a = .ok announced) :
    m.graph.append h a = .ok announced.model.graph := by
  unfold append at happend
  cases hg : m.graph.append h a with
  | error e => rw [hg] at happend; cases happend
  | ok graph =>
    rw [hg] at happend
    dsimp only at happend
    split at happend <;> cases happend <;> rfl

theorem appendAll_graph {m : Model} {h : TraceHandle} {as : List Action} {announced : Announced}
    (happend : m.appendAll h as = .ok announced) :
    m.graph.appendAll h as = .ok announced.model.graph := by
  unfold appendAll at happend
  split at happend
  · rename_i hempty
    cases happend
    exact if_pos hempty
  · cases hg : m.graph.appendAll h as with
    | error e => rw [hg] at happend; cases happend
    | ok graph => rw [hg] at happend; cases happend; rfl

theorem append_error {m : Model} {h : TraceHandle} {a : Action} {e : GraphError}
    (happend : m.append h a = .error e) : m.graph.append h a = .error e := by
  unfold append at happend
  cases hg : m.graph.append h a with
  | error e' => rw [hg] at happend; cases happend; rfl
  | ok graph =>
    rw [hg] at happend
    dsimp only at happend
    split at happend <;> cases happend

theorem appendAll_error {m : Model} {h : TraceHandle} {as : List Action} {e : GraphError}
    (happend : m.appendAll h as = .error e) : m.graph.appendAll h as = .error e := by
  unfold appendAll at happend
  split at happend
  · cases happend
  · cases hg : m.graph.appendAll h as with
    | error e' => rw [hg] at happend; cases happend; rfl
    | ok graph => rw [hg] at happend; cases happend

/-! ## One operation -/

/-- All that one operation can do to a graph. -/
inductive Change (g : Graph) : Graph → Prop where
  | none : Change g g
  | widget (w : Widget) : Change g (g.addWidget w)
  | state (s : State) : Change g (g.addState s)
  | widgetAlias (name : String) (id : WidgetId) : Change g (g.aliasWidget name id)
  | stateAlias (name : String) (id : StateId) : Change g (g.aliasState name id)
  | trace {g' : Graph} {id : TraceId} {h : TraceHandle} :
    g.beginTrace id = .ok (g', h) → Change g g'
  | single {g' : Graph} {h : TraceHandle} {a : Action} : g.append h a = .ok g' → Change g g'
  | batch {g' : Graph} {h : TraceHandle} {as : List Action} :
    g.appendAll h as = .ok g' → Change g g'

theorem step_change (m : Model) (op : Operation) : Change m.graph (m.step op).1.graph := by
  cases op with
  | registerWidget w => exact .widget w
  | registerState ws => exact .state _
  | aliasWidget name id => exact .widgetAlias name id
  | aliasState name id => exact .stateAlias name id
  | beginTrace id =>
    simp only [step]
    cases hb : m.beginTrace id with
    | error e => exact .none
    | ok begun => exact .trace (beginTrace_graph hb)
  | append h a =>
    simp only [step]
    cases happend : m.append h a with
    | error e => exact .none
    | ok announced => exact .single (append_graph happend)
  | appendAll h as =>
    simp only [step]
    cases happend : m.appendAll h as with
    | error e => exact .none
    | ok announced => exact .batch (appendAll_graph happend)

theorem Change.sound {g g' : Graph} (h : Change g g') (hg : g.Sound) : g'.Sound := by
  cases h with
  | none => exact hg
  | widget w => exact hg.addWidget w
  | state s => exact hg.addState s
  | widgetAlias name id => exact hg.aliasWidget name id
  | stateAlias name id => exact hg.aliasState name id
  | trace hb => exact hg.beginTrace hb
  | single happend => exact hg.append happend
  | batch happend => exact hg.appendAll happend

theorem Change.kept {g g' : Graph} (h : Change g g') : g.KeptIn g' := by
  cases h with
  | none => exact .refl g
  | widget w => exact g.kept_addWidget w
  | state s => exact g.kept_addState s
  | widgetAlias name id => exact g.kept_aliasWidget name id
  | stateAlias name id => exact g.kept_aliasState name id
  | trace hb => exact kept_beginTrace hb
  | single happend => exact kept_append happend
  | batch happend => exact kept_appendAll happend

/-! ## A whole history -/

theorem run_sound {m : Model} (ops : List Operation) (hm : m.graph.Sound) :
    (m.run ops).graph.Sound := by
  induction ops generalizing m with
  | nil => exact hm
  | cons op ops ih => exact ih ((m.step_change op).sound hm)

theorem run_kept (m : Model) (ops : List Operation) : m.graph.KeptIn (m.run ops).graph := by
  induction ops generalizing m with
  | nil => exact .refl _
  | cons op ops ih => exact (m.step_change op).kept.trans (ih _)

theorem traceOf?_kept {g g' : Graph} {h : TraceHandle} {t : Trace} (hkept : g.KeptIn g')
    (ht : g.traceOf? h = some t) : ∃ more, g'.traceOf? h = some (t.extend more) := by
  obtain ⟨hslot, hid⟩ := traceOf?_eq_some_iff.1 ht
  obtain ⟨more, hmore⟩ := hkept.trace _ _ hslot
  exact ⟨more, traceOf?_eq_some_iff.2 ⟨hmore, hid⟩⟩

/-- In a sound graph the trace of a handle is the one that has its id. -/
theorem trace?_of_mem {g : Graph} {t : Trace} (hg : g.Sound) (ht : t ∈ g.traces) :
    g.trace? t.id = some t := by
  unfold trace?
  cases hfound : g.traces.find? (·.id = t.id) with
  | none =>
    have hother := List.find?_eq_none.1 hfound t ht
    simp at hother
  | some u =>
    have hu : u.id = t.id := by simpa using List.find?_some hfound
    have hsame : u = t :=
      List.inj_on_of_nodup_map hg.traceIds (List.mem_of_find?_eq_some hfound) ht hu
    rw [hsame]

theorem trace?_eq_some_iff {g : Graph} {id : TraceId} {t : Trace} (hg : g.Sound) :
    g.trace? id = some t ↔ t ∈ g.traces ∧ t.id = id := by
  constructor
  · intro h
    exact ⟨List.mem_of_find?_eq_some h, by simpa using List.find?_some h⟩
  · rintro ⟨ht, rfl⟩
    exact trace?_of_mem hg ht

theorem trace?_of_traceOf? {g : Graph} {h : TraceHandle} {t : Trace} (hg : g.Sound)
    (ht : g.traceOf? h = some t) : g.trace? h.id = some t := by
  obtain ⟨hslot, hid⟩ := traceOf?_eq_some_iff.1 ht
  rw [← hid]
  exact trace?_of_mem hg (List.mem_of_getElem? hslot)

theorem begun_traceOf? {m : Model} {id : TraceId} {h : TraceHandle}
    (hb : (m.step (.beginTrace id)).2 = .begun h) :
    (m.step (.beginTrace id)).1.graph.traceOf? h = some (Trace.new id) ∧ h.id = id := by
  cases hm : m.beginTrace id with
  | error e => simp only [step, hm] at hb; cases hb
  | ok begun =>
    obtain ⟨m', h'⟩ := begun
    simp only [step, hm] at hb ⊢
    cases hb
    obtain ⟨-, hg, rfl⟩ := beginTrace_ok (beginTrace_graph hm)
    refine ⟨traceOf?_eq_some_iff.2 ⟨?_, rfl⟩, rfl⟩
    rw [hg]
    simp

/-- A history never leaves a model unsound and never loses or changes what an earlier one made. A
handle given out on the way denotes the trace that was begun with it for ever after, and no commit
to it is refused for want of that trace. -/
theorem run_invariant (watchers : List Watcher) (ops more : List Operation) :
    let m := (Model.new watchers).run ops
    m.graph.Sound ∧ m.graph.KeptIn (m.run more).graph ∧
      ∀ id h, (m.step (.beginTrace id)).2 = .begun h →
        let m' := (m.step (.beginTrace id)).1.run more
        (∃ t, m'.graph.traceOf? h = some t ∧ m'.graph.trace? id = some t ∧ t.id = id) ∧
          (∀ a id', (m'.step (.append h a)).2 ≠ .refused (.unknownTrace id')) ∧
          ∀ as id', (m'.step (.appendAll h as)).2 ≠ .refused (.unknownTrace id') := by
  intro m
  have hsound : m.graph.Sound := run_sound ops sound_initial
  refine ⟨hsound, run_kept m more, ?_⟩
  intro id h hbegun m'
  obtain ⟨hnew, hid⟩ := begun_traceOf? hbegun
  obtain ⟨actions, ht⟩ := traceOf?_kept (run_kept _ more) hnew
  have hsound' : m'.graph.Sound := run_sound more ((m.step_change _).sound hsound)
  have hnamed := trace?_of_traceOf? hsound' ht
  rw [hid] at hnamed
  refine ⟨⟨_, ht, hnamed, rfl⟩, ?_, ?_⟩
  · intro a id'
    cases happend : m'.append h a with
    | error e =>
      simp only [step, commitAnswer, happend]
      intro he
      cases he
      exact append_ne_unknownTrace a id' ht (append_error happend)
    | ok announced =>
      simp only [step, commitAnswer, happend]
      intro he
      cases he
  · intro as id'
    cases happend : m'.appendAll h as with
    | error e =>
      simp only [step, commitAnswer, happend]
      intro he
      cases he
      exact appendAll_ne_unknownTrace as id' ht (appendAll_error happend)
    | ok announced =>
      simp only [step, commitAnswer, happend]
      intro he
      cases he

/-- A trace is begun, an action is committed to it, and another one is refused. -/
theorem run_invariant_launch :
    let id : TraceId := ⟨⟨List.replicate 16 0, rfl⟩⟩
    let launch : Action := ⟨0, .launchApp, .empty, .empty, none, "", none, none, true, "", []⟩
    let begun := ((Model.new []).run []).step (.beginTrace id)
    begun.2 = .begun ⟨0, id⟩ ∧
      let m := begun.1.run [.append ⟨0, id⟩ launch, .append ⟨0, id⟩ launch]
      m.graph.traceOf? ⟨0, id⟩ = some ⟨id, [launch]⟩ ∧
        ∀ a id', (m.step (.append ⟨0, id⟩ a)).2 ≠ .refused (.unknownTrace id') := by
  refine ⟨by decide, by decide, ?_⟩
  exact ((run_invariant [] [] _).2.2 _ _ (by decide)).2.1

end Model
end ScreenGraph
