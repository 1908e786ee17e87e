import ScreenGraph.Proofs.Load.Commits
import ScreenGraph.Proofs.Watch.Delivery

/-!
# ScreenGraph.Proofs.Watch.Batches

A batch is its actions appended one after another, all of them or none.

The actions of a batch are checked against a trace that does not change, each with the index of the
one before it. Appended one by one, each is checked against the trace that those before it have
extended. The verdicts are the same, because a check looks at the last index and at the registries,
and extending a trace leaves the registries alone.

* `appendAll_cons`: a batch is its first action and then the rest as a batch.
* `appends_refused`, `appends_accepted`: what a verdict on a batch says of its actions one by one.
* `append_extendedBy`, `appendAll_extendedBy`: all that an accepted commit changes.
* `appendAll_atomic`: a batch does what its actions would do one by one, or nothing.
-/

namespace ScreenGraph

open Identity Screen Graph Watch

namespace Graph

theorem checkAll_extendTrace (g : Graph) (slot : Nat) (more : List Action) (id : TraceId)
    (last : Option Nat) (as : List Action) :
    (g.extendTrace slot more).checkAll id last as = g.checkAll id last as := by
  induction as generalizing last with
  | nil => rfl
  | cons a as ih =>
    -- one check looks at the registries alone, which both graphs share
    have hcheck : (g.extendTrace slot more).check id last a = g.check id last a := rfl
    simp only [checkAll, hcheck, ih]

/-- The rest of a batch meets the trace that the first action has extended. -/
theorem appendAll_cons (g : Graph) (h : TraceHandle) (a : Action) (as : List Action) :
    g.appendAll h (a :: as) =
      match g.append h a with
      | .error e => .error e
      | .ok g' => g'.appendAll h as := by
  unfold append
  cases ht : g.traceOf? h with
  | none => simp only [appendAll, ht, List.isEmpty_cons]; rfl
  | some t =>
    cases hcheck : g.check t.id t.lastIndex? a with
    | error e => simp only [appendAll, ht, checkAll, hcheck, List.isEmpty_cons]; rfl
    | ok u =>
      have hrest : (t.extend [a]).lastIndex? = some a.index := by
        simp [Trace.extend, Trace.lastIndex?, Trace.last?]
      cases as with
      | nil => simp only [appendAll, ht, checkAll, hcheck]; rfl
      | cons b bs =>
        have ht' := traceOf?_extendTrace [a] ht
        have hid : (t.extend [a]).id = t.id := rfl
        simp only [appendAll, ht, ht', hid, checkAll.eq_2 g t.id t.lastIndex? a, hcheck,
          checkAll_extendTrace, hrest, extendTrace_append, List.isEmpty_cons]
        rfl

/-- The handle denotes a trace, and `g'` is `g` with these actions behind those of that trace. -/
def ExtendedBy (g : Graph) (h : TraceHandle) (as : List Action) (g' : Graph) : Prop :=
  ∃ t, g.traceOf? h = some t ∧
    g' = { g with traces := g.traces.set h.slot { t with actions := t.actions ++ as } }

theorem extendTrace_eq_set {g : Graph} {h : TraceHandle} {t : Trace} (as : List Action)
    (ht : g.traceOf? h = some t) :
    g.extendTrace h.slot as =
      { g with traces := g.traces.set h.slot { t with actions := t.actions ++ as } } := by
  obtain ⟨hslot, -⟩ := traceOf?_eq_some_iff.1 ht
  obtain ⟨hlt, hget⟩ := List.getElem?_eq_some_iff.1 hslot
  rw [extendTrace, List.modify_eq_set_getElem?, hslot]
  rfl

end Graph

namespace Model

variable {m : Model} {h : TraceHandle} {g : Graph} {e : GraphError}

/-! ## The verdict of the graph -/

theorem step_append_refused {a : Action} (hrefused : m.graph.append h a = .error e) :
    m.step (.append h a) = (m, .refused e) := by
  simp only [step, append, hrefused, commitAnswer]

theorem step_append_accepted {a : Action} (haccepted : m.graph.append h a = .ok g) :
    ∃ broken, (m.step (.append h a)).2 = .committed 1 broken ∧
      (m.step (.append h a)).1.graph = g := by
  simp only [step, append, haccepted]
  cases g.state? a.result with
  | none => exact ⟨false, rfl, rfl⟩
  | some result => exact ⟨_, rfl, rfl⟩

theorem step_appendAll_refused {as : List Action} (hrefused : m.graph.appendAll h as = .error e) :
    m.step (.appendAll h as) = (m, .refused e) := by
  have hne : as.isEmpty = false := by
    cases as with
    | nil => cases hrefused
    | cons a as => rfl
  simp only [step, appendAll, hrefused, hne, commitAnswer]
  rfl

theorem step_appendAll_accepted {as : List Action} (haccepted : m.graph.appendAll h as = .ok g) :
    ∃ broken, (m.step (.appendAll h as)).2 = .committed as.length broken ∧
      (m.step (.appendAll h as)).1.graph = g := by
  by_cases hne : as = []
  · subst hne
    cases haccepted
    exact ⟨false, rfl, rfl⟩
  · obtain ⟨t, -, -, hadmits, hg⟩ := (appendAll_ok_iff hne).1 haccepted
    have hlength : (g.withResults as).length = as.length :=
      withResults_length fun a ha => (hadmits a ha).mono (kept_appendAll haccepted)
    have hempty : as.isEmpty = false := by simpa using hne
    simp only [step, appendAll, haccepted, hempty, announce, commitAnswer, Commit.actions, hlength]
    exact ⟨_, rfl, rfl⟩

/-- With watchers that never break off, and that do not tell a batch from single actions. -/
theorem step_append_steady {a : Action} (haccepted : m.graph.append h a = .ok g)
    (hsteady : ∀ w ∈ m.watchers, w.isSteady = true) :
    (m.step (.append h a)).1 = m.committed h [a] := by
  obtain ⟨t, ht, hfollows, hadmits, -⟩ := append_ok_iff.1 haccepted
  rw [step, append_eq ht hfollows hadmits hsteady]
  rfl

theorem step_appendAll_steady {as : List Action} (haccepted : m.graph.appendAll h as = .ok g)
    (hsteady : ∀ w ∈ m.watchers, w.isSteady = true) :
    (m.step (.appendAll h as)).1 = m.committed h as := by
  by_cases hne : as = []
  · subst hne
    exact (committed_nil hsteady).symm
  · obtain ⟨t, ht, hfollows, hadmits, -⟩ := (appendAll_ok_iff hne).1 haccepted
    rw [step, appendAll_eq ht hfollows hadmits hsteady]
    rfl

/-! ## One by one -/

/-- The actions of a batch as commits of their own. -/
def appends (h : TraceHandle) (as : List Action) : List Operation :=
  as.map (.append h)

def Answer.refusal? : Answer → Option GraphError
  | .refused e => some e
  | _ => none

/-- The refusal that a history meets first. -/
def firstRefusal? (m : Model) (ops : List Operation) : Option GraphError :=
  (m.answers ops).findSome? (·.refusal?)

theorem appends_refused {as : List Action} (hrefused : m.graph.appendAll h as = .error e) :
    m.firstRefusal? (appends h as) = some e := by
  induction as generalizing m with
  | nil => cases hrefused
  | cons a as ih =>
    rw [appendAll_cons] at hrefused
    simp only [firstRefusal?, appends, List.map_cons, answers, List.findSome?_cons]
    cases ha : m.graph.append h a with
    | error e' =>
      rw [ha] at hrefused
      cases hrefused
      rw [step_append_refused ha]
      rfl
    | ok g =>
      rw [ha] at hrefused
      obtain ⟨broken, hanswer, hgraph⟩ := step_append_accepted ha
      rw [hanswer]
      exact ih (hgraph ▸ hrefused)

/-- When the batch is accepted, so is every one of its actions, and the traces end up the same. -/
theorem appends_accepted {as : List Action} (haccepted : m.graph.appendAll h as = .ok g) :
    (∀ answer ∈ m.answers (appends h as), ∃ broken, answer = .committed 1 broken) ∧
      (m.run (appends h as)).graph = g := by
  induction as generalizing m with
  | nil =>
    cases haccepted
    exact ⟨fun answer ha => absurd ha List.not_mem_nil, rfl⟩
  | cons a as ih =>
    rw [appendAll_cons] at haccepted
    cases ha : m.graph.append h a with
    | error e => rw [ha] at haccepted; cases haccepted
    | ok g' =>
      rw [ha] at haccepted
      obtain ⟨broken, hanswer, hgraph⟩ := step_append_accepted ha
      obtain ⟨hanswers, hrun⟩ := ih (m := (m.step (.append h a)).1) (hgraph ▸ haccepted)
      exact ⟨List.forall_mem_cons.2 ⟨⟨broken, hanswer⟩, hanswers⟩, hrun⟩

theorem appends_steady {as : List Action} (haccepted : m.graph.appendAll h as = .ok g)
    (hsteady : ∀ w ∈ m.watchers, w.isSteady = true) :
    m.run (appends h as) = m.committed h as := by
  induction as generalizing m with
  | nil => exact (committed_nil hsteady).symm
  | cons a as ih =>
    rw [appendAll_cons] at haccepted
    cases ha : m.graph.append h a with
    | error e => rw [ha] at haccepted; cases haccepted
    | ok g' =>
      rw [ha] at haccepted
      have hfirst : (m.step (.append h a)).1 = m.committed h [a] := step_append_steady ha hsteady
      have hgraph : (m.committed h [a]).graph = g' := by
        obtain ⟨-, -, hgraph⟩ := step_append_accepted ha
        rw [← hfirst, hgraph]
      calc m.run (appends h (a :: as))
          = (m.committed h [a]).run (appends h as) := by rw [← hfirst]; rfl
        _ = (m.committed h [a]).committed h as :=
          ih (hgraph ▸ haccepted) (steady_committed [a] hsteady)
        _ = m.committed h (a :: as) := committed_append [a] as hsteady

theorem firstRefusal?_eq_none {ops : List Operation}
    (h : ∀ answer ∈ m.answers ops, ∃ broken, answer = .committed 1 broken) :
    m.firstRefusal? ops = none := by
  refine List.findSome?_eq_none_iff.2 fun answer ha => ?_
  obtain ⟨broken, rfl⟩ := h answer ha
  rfl

/-! ## What a commit leaves alone -/

theorem append_extendedBy {a : Action} (haccepted : m.graph.append h a = .ok g) :
    m.graph.ExtendedBy h [a] g := by
  obtain ⟨t, ht, -, -, rfl⟩ := append_ok_iff.1 haccepted
  exact ⟨t, ht, extendTrace_eq_set [a] ht⟩

theorem appendAll_extendedBy {as : List Action} (hne : as ≠ [])
    (haccepted : m.graph.appendAll h as = .ok g) : m.graph.ExtendedBy h as g := by
  obtain ⟨t, ht, -, -, rfl⟩ := (appendAll_ok_iff hne).1 haccepted
  exact ⟨t, ht, extendTrace_eq_set as ht⟩

theorem step_append_extendedBy {a : Action} {n : Nat} {broken : Bool}
    (hcommitted : (m.step (.append h a)).2 = .committed n broken) :
    m.graph.ExtendedBy h [a] (m.step (.append h a)).1.graph := by
  cases ha : m.graph.append h a with
  | error e =>
    rw [step_append_refused ha] at hcommitted
    cases hcommitted
  | ok g =>
    obtain ⟨-, -, hgraph⟩ := step_append_accepted ha
    rw [hgraph]
    exact append_extendedBy ha

/-- A batch stands for its actions appended one by one. It is accepted if none of these would be
refused, and does then to the traces what they would do; otherwise it is refused for the same
reason as the first of them that would be, and leaves the model as it is. Neither a batch nor a
single action changes more than the end of the trace of its handle. -/
theorem appendAll_atomic (m : Model) (h : TraceHandle) (as : List Action) (hne : as ≠ []) :
    let batch := m.step (.appendAll h as)
    let one := fun a => m.step (.append h a)
    ((∃ n broken, batch.2 = .committed n broken) ↔
        ∀ answer ∈ m.answers (appends h as), ∃ n broken, answer = .committed n broken) ∧
      (m.firstRefusal? (appends h as) = none →
        (∃ broken, batch.2 = .committed as.length broken) ∧
        batch.1.graph = (m.run (appends h as)).graph ∧
        ((∀ w ∈ m.watchers, w.isSteady = true) → batch.1 = m.run (appends h as))) ∧
      (∀ e, m.firstRefusal? (appends h as) = some e → batch = (m, .refused e)) ∧
      (∀ n broken, batch.2 = .committed n broken → m.graph.ExtendedBy h as batch.1.graph) ∧
      (∀ a e, (one a).2 = .refused e → one a = (m, .refused e)) ∧
      ∀ a n broken, (one a).2 = .committed n broken → m.graph.ExtendedBy h [a] (one a).1.graph := by
  intro batch one
  have hrefusal : ∀ a e, (one a).2 = .refused e → one a = (m, .refused e) := fun a e he =>
    Prod.ext (step_refused he).1 he
  have hsingle : ∀ a n broken, (one a).2 = .committed n broken →
      m.graph.ExtendedBy h [a] (one a).1.graph := fun a n broken => step_append_extendedBy
  cases has : m.graph.appendAll h as with
  | error e =>
    have hbatch : batch = (m, .refused e) := step_appendAll_refused has
    have hfirst := appends_refused has
    refine ⟨⟨?_, ?_⟩, ?_, ?_, ?_, hrefusal, hsingle⟩
    · rintro ⟨n, broken, hcommitted⟩
      rw [hbatch] at hcommitted
      cases hcommitted
    · intro hall
      obtain ⟨answer, hanswer, he⟩ := List.exists_of_findSome?_eq_some hfirst
      obtain ⟨n, broken, rfl⟩ := hall answer hanswer
      cases he
    · intro hnone
      rw [hfirst] at hnone
      cases hnone
    · intro e' he'
      rw [hfirst] at he'
      cases he'
      exact hbatch
    · intro n broken hcommitted
      rw [hbatch] at hcommitted
      cases hcommitted
  | ok g =>
    obtain ⟨broken, hanswer, hgraph⟩ := step_appendAll_accepted has
    have hgraph' : batch.1.graph = g := hgraph
    obtain ⟨hanswers, hrun⟩ := appends_accepted has
    refine ⟨⟨?_, ?_⟩, ?_, ?_, ?_, hrefusal, hsingle⟩
    · rintro - answer ha
      exact ⟨1, hanswers answer ha⟩
    · exact fun _ => ⟨_, broken, hanswer⟩
    · refine fun _ => ⟨⟨broken, hanswer⟩, hgraph'.trans hrun.symm, fun hsteady => ?_⟩
      exact (step_appendAll_steady has hsteady).trans (appends_steady has hsteady).symm
    · intro e he
      rw [firstRefusal?_eq_none hanswers] at he
      cases he
    · rintro - - -
      rw [hgraph']
      exact appendAll_extendedBy hne has

/-- Behind a launch, a batch that repeats an index and one that does not. -/
theorem appendAll_atomic_swipes :
    let id : TraceId := ⟨⟨List.replicate 16 0, rfl⟩⟩
    let action : ActionKind → Nat → Action := fun kind index =>
      ⟨index, kind, .empty, .empty, none, "", none, none, true, "", []⟩
    let m := (Model.new [.tally .empty]).run
      [.beginTrace id, .append ⟨0, id⟩ (action .launchApp 0)]
    let refused := [action .swipe 1, action .swipe 1]
    let accepted := [action .swipe 1, action .swipe 4]
    m.step (.appendAll ⟨0, id⟩ refused) = (m, .refused (.outOfOrder id 1 1)) ∧
      (m.step (.appendAll ⟨0, id⟩ accepted)).1 = m.run (appends ⟨0, id⟩ accepted) ∧
      m.graph.ExtendedBy ⟨0, id⟩ accepted (m.step (.appendAll ⟨0, id⟩ accepted)).1.graph := by
  intro id action m refused accepted
  have hatomic := appendAll_atomic m ⟨0, id⟩
  refine ⟨(hatomic refused (by decide)).2.2.1 _ (by decide), ?_, ?_⟩
  · exact ((hatomic accepted (by decide)).2.1 (by decide)).2.2 (by decide)
  · exact (hatomic accepted (by decide)).2.2.2.1 2 false (by decide)

end Model
end ScreenGraph
