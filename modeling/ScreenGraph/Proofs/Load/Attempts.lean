import ScreenGraph.Load.TraceFile
import ScreenGraph.Proofs.Load.Registration

/-!
# ScreenGraph.Proofs.Load.Attempts

From result states to actions that a graph admits.

A survey is sound if its graph is canonical and every settled name stands for a registered state.
Look-ups keep it so, whatever the files hold. What the records of a trace are resolved to is
therefore never refused: the indices grow, the states are registered, and a target is a widget of
its source state.

* `lookUp_cases`, `resolve_cases`: all that a look-up can do.
* `attemptAll_spec`: what attempting the result states of a file does.
* `resolve_ok`: what a record is resolved to.
* `outcomesFrom_actions`: the actions of a file can be committed.
-/

namespace ScreenGraph

open Files Identity Screen Graph Record

namespace Graph

theorem stateNamed?_registered {g : Graph} (hg : g.Sound) {name : String} {s : State}
    (h : g.stateNamed? name = some s) : g.state? s.id = some s := by
  have key : ∀ id, g.state? id = some s → g.state? s.id = some s := by
    intro id hid
    rw [hg.stateKey id s hid]
    exact hid
  unfold stateNamed? at h
  split at h
  · rename_i u hu
    cases h
    obtain ⟨id, -, hid⟩ := Option.bind_eq_some_iff.1 hu
    exact key id hid
  · obtain ⟨id, -, hid⟩ := Option.bind_eq_some_iff.1 h
    exact key id hid

end Graph

namespace Load

namespace Survey

structure Sound (s : Survey) : Prop where
  canonical : s.graph.Canonical
  known : ∀ name state, s.known.find? name = some state → s.graph.state? state.id = some state

variable {settings : Settings} {files : Tree}

/-- A look-up finds a state of the graph, or reads a file and adds what it says. -/
theorem lookUp_cases {g g' : Graph} {name : String} {state : State} (hg : g.Canonical)
    (h : lookUp settings files g name = .ok (g', state)) :
    (g' = g ∧ g.stateNamed? name = some state) ∨
      ∃ rows g₁, g.stateNamed? name = none ∧
        readAll files (settings.statePath name) settings.widgetLayout settings.separator =
          .ok rows ∧
        StateAdded g rows g₁ state ∧
        (g' = g₁ ∨ g' = g₁.aliasState name state.id) := by
  unfold lookUp at h
  cases hnamed : g.stateNamed? name with
  | some found =>
    rw [hnamed] at h
    cases h
    exact .inl ⟨rfl, rfl⟩
  | none =>
    rw [hnamed] at h
    dsimp only at h
    split at h
    · cases hread : readAll files (settings.statePath name) settings.widgetLayout
          settings.separator with
      | error e => rw [hread] at h; cases h
      | ok rows =>
        rw [hread] at h
        have hadded := addStateRows_spec hg rows
        dsimp only at h
        generalize addStateRows g rows = added at hadded h
        obtain ⟨g₁, state₁⟩ := added
        refine .inr ⟨rows, g₁, rfl, rfl, ?_⟩
        split at h
        · cases h
          exact ⟨hadded, .inr rfl⟩
        · cases h
          exact ⟨hadded, .inl rfl⟩
    · cases h

theorem lookUp_spec {g g' : Graph} {name : String} {state : State} (hg : g.Canonical)
    (h : lookUp settings files g name = .ok (g', state)) :
    g'.Canonical ∧ g.KeptIn g' ∧ g'.state? state.id = some state ∧ g'.traces = g.traces := by
  rcases lookUp_cases hg h with ⟨rfl, hnamed⟩ | ⟨rows, g₁, -, -, hadded, hg'⟩
  · exact ⟨hg, .refl _, stateNamed?_registered hg.toSound hnamed, rfl⟩
  · have hself : g₁.state? state.id = some state := by rw [hadded.state?, if_pos rfl]
    rcases hg' with rfl | rfl
    · exact ⟨hadded.canonical, hadded.kept, hself, hadded.traces⟩
    · exact ⟨hadded.canonical.aliasState _ _, hadded.kept.trans (g₁.kept_aliasState _ _), hself,
        hadded.traces⟩

theorem resolve_cases {s s' : Survey} {raw : String} {state : State}
    (h : s.resolve settings files raw = (s', .ok state)) :
    (s' = s ∧ s.known.find? (Text.trim raw) = some state) ∨
      ∃ g', s.known.find? (Text.trim raw) = none ∧
        lookUp settings files s.graph (Text.trim raw) = .ok (g', state) ∧
        s' = ⟨g', s.known.register (Text.trim raw) state⟩ := by
  unfold resolve at h
  cases hknown : s.known.find? (Text.trim raw) with
  | some found =>
    simp only [hknown] at h
    cases h
    exact .inl ⟨rfl, rfl⟩
  | none =>
    simp only [hknown] at h
    split at h
    · cases h
    · rename_i g' found hlook
      cases h
      exact .inr ⟨g', rfl, hlook, rfl⟩

theorem resolve_spec {s s' : Survey} {raw : String} {state : State} (hs : s.Sound)
    (h : s.resolve settings files raw = (s', .ok state)) :
    s'.Sound ∧ s.graph.KeptIn s'.graph ∧ s'.graph.state? state.id = some state ∧
      s'.graph.traces = s.graph.traces := by
  rcases resolve_cases h with ⟨rfl, hknown⟩ | ⟨g', hunknown, hlook, rfl⟩
  · exact ⟨hs, .refl _, hs.known _ _ hknown, rfl⟩
  · obtain ⟨hcanonical, hkept, hself, htraces⟩ := lookUp_spec hs.canonical hlook
    refine ⟨⟨hcanonical, ?_⟩, hkept, hself, htraces⟩
    intro name found hfound
    rcases Registry.find?_register_cases hfound with hold | ⟨-, rfl⟩
    · exact hkept.state _ _ (hs.known name found hold)
    · exact hself

/-- A failed look-up leaves the survey as it is, and one that succeeds leaves it sound. -/
theorem resolve_sound (settings : Settings) (files : Tree) {s : Survey} (raw : String)
    (hs : s.Sound) :
    (s.resolve settings files raw).1.Sound ∧
      s.graph.KeptIn (s.resolve settings files raw).1.graph ∧
      (s.resolve settings files raw).1.graph.traces = s.graph.traces ∧
      ∀ state, (s.resolve settings files raw).2 = .ok state →
        (s.resolve settings files raw).1.graph.state? state.id = some state := by
  cases hr : (s.resolve settings files raw).2 with
  | error e =>
    rw [resolve_error hr]
    exact ⟨hs, .refl _, rfl, fun state h => by cases h⟩
  | ok state =>
    obtain ⟨hsound, hkept, hself, htraces⟩ := resolve_spec hs (Prod.ext rfl hr)
    refine ⟨hsound, hkept, htraces, ?_⟩
    intro state' h
    cases h
    exact hself

theorem settled?_registered {s : Survey} {raw : String} {state : State} (hs : s.Sound)
    (h : s.settled? raw = some state) : s.graph.state? state.id = some state := by
  unfold settled? at h
  dsimp only at h
  split at h
  · rename_i found hfound
    cases h
    exact hs.known _ _ hfound
  · exact stateNamed?_registered hs.canonical.toSound h

theorem ofGraph_sound {g : Graph} (hg : g.Canonical) : (ofGraph g).Sound := by
  have hgraph : (ofGraph g).graph = g := addState_empty hg.toSound
  refine ⟨by rw [hgraph]; exact hg, ?_⟩
  intro name state h
  rw [hgraph]
  rcases Registry.find?_register_cases h with hold | ⟨-, rfl⟩
  · cases hold
  · rw [stateFor_empty hg.toSound]
    exact hg.empty

end Survey

/-! ## The records of a trace -/

theorem attemptAll_cons {settings : Settings} {files : Tree} (s : Survey) (r : Record)
    (rs : List Record) :
    attemptAll settings files s (r :: rs) =
      let first := s.resolve settings files (r.field TraceColumn.result)
      let rest := attemptAll settings files first.1 rs
      (rest.1, ⟨r, first.2⟩ :: rest.2) := by
  rw [attemptAll]

theorem attemptAll_spec (settings : Settings) (files : Tree) {s : Survey} (rs : List Record)
    (hs : s.Sound) :
    (attemptAll settings files s rs).1.Sound ∧
      s.graph.KeptIn (attemptAll settings files s rs).1.graph ∧
      (attemptAll settings files s rs).1.graph.traces = s.graph.traces ∧
      ∀ attempt ∈ (attemptAll settings files s rs).2, ∀ state, attempt.result = .ok state →
        (attemptAll settings files s rs).1.graph.state? state.id = some state := by
  induction rs generalizing s with
  | nil => exact ⟨hs, .refl _, rfl, fun _ h => by cases h⟩
  | cons r rs ih =>
    rw [attemptAll_cons]
    obtain ⟨hsound, hkept, htraces, hfirst⟩ :=
      Survey.resolve_sound settings files (r.field TraceColumn.result) hs
    generalize s.resolve settings files (r.field TraceColumn.result) = first at *
    obtain ⟨hsound', hkept', htraces', hall⟩ := ih hsound
    dsimp only
    generalize attemptAll settings files first.1 rs = rest at *
    refine ⟨hsound', hkept.trans hkept', htraces'.trans htraces, ?_⟩
    intro attempt hmem state hok
    rcases List.mem_cons.1 hmem with rfl | hmem
    · exact hkept'.state _ _ (hfirst state hok)
    · exact hall attempt hmem state hok

theorem attemptAll_records (settings : Settings) (files : Tree) (s : Survey)
    (rs : List Record) : (attemptAll settings files s rs).2.map (·.record) = rs := by
  induction rs generalizing s with
  | nil => rfl
  | cons r rs ih => rw [attemptAll_cons, List.map_cons, ih]

/-- What a record is resolved to. -/
theorem resolve_ok {s : Survey} {index : Nat} {r : Record} {result : State}
    {resolution : Resolution} (h : resolve s index r result = .ok resolution) :
    ∃ source, s.settled? (Text.trim (r.field TraceColumn.source)) = some source ∧
      let found := s.graph.widgetNamed? (rawTarget r)
      let target := found.filter source.contains
      resolution.action.index = index ∧
        resolution.action.kind = ActionKind.read (r.field TraceColumn.action) ∧
        resolution.action.source = source.id ∧ resolution.action.result = result.id ∧
        resolution.action.target = target ∧
        resolution.notes = notesOf r (repair r source result target) found target := by
  unfold resolve at h
  dsimp only at h
  split at h
  · cases h
  · rename_i source hsettled
    cases h
    refine ⟨source, hsettled, ?_⟩
    dsimp only
    exact ⟨rfl, rfl, rfl, rfl, rfl, rfl⟩

/-- What a record is resolved to can be committed. -/
theorem resolve_admits {s : Survey} {index : Nat} {r : Record} {result : State}
    {resolution : Resolution} (hs : s.Sound) (hresult : s.graph.state? result.id = some result)
    (h : resolve s index r result = .ok resolution) :
    s.graph.Admits resolution.action ∧ resolution.action.index = index := by
  obtain ⟨source, hsettled, hindex, -, hsource, hresult', htarget, -⟩ := resolve_ok h
  have hregistered := Survey.settled?_registered hs hsettled
  refine ⟨⟨source, result, by rw [hsource, hregistered], by rw [hresult', hresult], ?_⟩, hindex⟩
  intro w hw
  rw [htarget] at hw
  obtain ⟨-, hcontains⟩ := Option.filter_eq_some_iff.1 hw
  obtain ⟨v, hv, hid⟩ := State.contains_iff.1 hcontains
  rw [← hid, hs.canonical.member _ _ hregistered v hv]
  exact ⟨rfl, hid ▸ hcontains⟩

theorem widgetNamed?_empty (g : Graph) : g.widgetNamed? "" = none := by
  unfold Graph.widgetNamed?
  rfl

/-- A global action has no target, whatever was recorded as one. -/
theorem resolve_global {s : Survey} {index : Nat} {r : Record} {result : State}
    {resolution : Resolution} (h : resolve s index r result = .ok resolution)
    (hglobal : resolution.action.kind.isGlobal = true) : resolution.action.target = none := by
  obtain ⟨source, -, -, hkind, -, -, htarget, -⟩ := resolve_ok h
  rw [hkind] at hglobal
  rw [htarget, rawTarget, if_pos hglobal, widgetNamed?_empty]
  rfl

/-- The outcome of a record whose result state is known. -/
def outcomeOf (s : Survey) (index : Nat) (r : Record) (result : State) : Outcome :=
  match resolve s index r result with
  | .error e => .dropped r.line e
  | .ok resolution => .resolved r.line resolution

theorem outcomesFrom_ok (s : Survey) (index : Nat) (r : Record) (result : State)
    (attempts : List Attempt) :
    outcomesFrom s index (⟨r, .ok result⟩ :: attempts) =
      (outcomeOf s index r result :: (outcomesFrom s (index + 1) attempts).1,
        (outcomesFrom s (index + 1) attempts).2) := rfl

theorem outcomeOf_action? {s : Survey} {index : Nat} {r : Record} {result : State} {a : Action}
    (hs : s.Sound) (hresult : s.graph.state? result.id = some result)
    (h : (outcomeOf s index r result).action? = some a) :
    s.graph.Admits a ∧ a.index = index := by
  unfold outcomeOf at h
  cases hr : resolve s index r result with
  | error e => rw [hr] at h; cases h
  | ok resolution =>
    rw [hr] at h
    cases h
    exact resolve_admits hs hresult hr

/-- The actions that a list of outcomes holds. -/
def actionsOf (outcomes : List Outcome) : List Action :=
  outcomes.filterMap (·.action?)

theorem outcomesFrom_actions {s : Survey} (index : Nat) {attempts : List Attempt} (hs : s.Sound)
    (hknown : ∀ attempt ∈ attempts, ∀ state, attempt.result = .ok state →
      s.graph.state? state.id = some state) :
    (∀ a ∈ actionsOf (outcomesFrom s index attempts).1, index ≤ a.index ∧ s.graph.Admits a) ∧
      (actionsOf (outcomesFrom s index attempts).1).Pairwise fun a b => a.index < b.index := by
  induction attempts generalizing index with
  | nil => simp [outcomesFrom, actionsOf]
  | cons attempt attempts ih =>
    obtain ⟨r, result⟩ := attempt
    cases result with
    | error e => simp [outcomesFrom, actionsOf]
    | ok result =>
      have hresult := hknown _ List.mem_cons_self result rfl
      obtain ⟨hrest, hpair⟩ := ih (index + 1)
        fun attempt hmem => hknown attempt (List.mem_cons_of_mem _ hmem)
      rw [outcomesFrom_ok]
      simp only [actionsOf, List.filterMap_cons]
      cases haction : (outcomeOf s index r result).action? with
      | none =>
        refine ⟨?_, hpair⟩
        intro a ha
        obtain ⟨hle, hadmits⟩ := hrest a ha
        exact ⟨by omega, hadmits⟩
      | some b =>
        obtain ⟨hadmits, hindex⟩ := outcomeOf_action? hs hresult haction
        refine ⟨?_, List.pairwise_cons.2 ⟨?_, hpair⟩⟩
        · intro a ha
          rcases List.mem_cons.1 ha with rfl | ha
          · exact ⟨by omega, hadmits⟩
          · obtain ⟨hle, hadmits'⟩ := hrest a ha
            exact ⟨by omega, hadmits'⟩
        · intro a ha
          have := (hrest a ha).1
          omega

end Load
end ScreenGraph
