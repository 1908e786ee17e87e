import ScreenGraph.Proofs.Load.Runs
import ScreenGraph.Proofs.Text.Plain

/-!
# ScreenGraph.Proofs.Load.Names

What the names of states in trace files denote.

A name that reads as the id of a registered state denotes that state, and any other one the state of
its file. Whichever it is when the name is first looked up, it stays so until the load is over, for
every trace file alike.

* `settled?_denotes`: a settled name denotes its state.
* `resolve_settledIn`, `processTrace_settledIn`: settled names stay settled.
* `runSources_settledIn`: the same over a run.
-/

namespace ScreenGraph

open Files Graph Identity Record Screen Watch

namespace Load

/-- The ids that a trimmed name of a state can stand for. -/
inductive Denotes (settings : Settings) (files : Tree) (name : String) : StateId → Prop where
  | own {id : StateId} (h : Ident.read? name = some id) : Denotes settings files name id
  | file {rows : List Record}
    (h : readAll files (settings.statePath name) settings.widgetLayout settings.separator =
      .ok rows) : Denotes settings files name (StateId.ofWidgets (rows.map identify))

namespace Survey

variable {settings : Settings} {files : Tree} {s s' : Survey} {raw : String} {state : State}

/-- A survey in which settled names denote their states. Only settled names have aliases. -/
structure Grounded (settings : Settings) (files : Tree) (s : Survey) : Prop extends s.Sound where
  denoted : ∀ name state, s.known.find? name = some state → Denotes settings files name state.id
  aliased : ∀ name id, s.graph.stateAliases.find? name = some id →
    (s.known.find? name).isSome = true

/-- Settled names stay settled. -/
def SettledIn (s s' : Survey) : Prop :=
  ∀ raw state, s.settled? raw = some state → s'.settled? raw = some state

theorem SettledIn.refl (s : Survey) : s.SettledIn s :=
  fun _ _ h => h

theorem SettledIn.trans {s'' : Survey} (h : s.SettledIn s') (h' : s'.SettledIn s'') :
    s.SettledIn s'' :=
  fun raw state hsettled => h' raw state (h raw state hsettled)

theorem settled?_trim (s : Survey) (raw : String) :
    s.settled? (Text.trim raw) = s.settled? raw := by
  unfold settled?
  rw [Text.trim_trim]

/-- Without an alias, a name can only be the id of a state. -/
theorem stateNamed?_of_unaliased {g : Graph} (hg : g.Sound) {name : String}
    (halias : g.stateAliases.find? name = none) (h : g.stateNamed? name = some state) :
    Ident.read? name = some state.id ∧ g.state? state.id = some state := by
  unfold Graph.stateNamed? at h
  split at h
  · rename_i hread
    cases h
    obtain ⟨id, hid, hstate⟩ := Option.bind_eq_some_iff.1 hread
    rw [hg.stateKey _ _ hstate]
    exact ⟨hid, hstate⟩
  · rw [halias] at h
    cases h

theorem Grounded.unaliased (hs : s.Grounded settings files) {name : String}
    (hknown : s.known.find? name = none) : s.graph.stateAliases.find? name = none := by
  cases halias : s.graph.stateAliases.find? name with
  | none => rfl
  | some id =>
    have hsome := hs.aliased _ _ halias
    rw [hknown] at hsome
    cases hsome

theorem Grounded.stateNamed? (hs : s.Grounded settings files) {name : String}
    (hknown : s.known.find? name = none) (h : s.graph.stateNamed? name = some state) :
    Ident.read? name = some state.id ∧ s.graph.state? state.id = some state :=
  stateNamed?_of_unaliased hs.canonical.toSound (hs.unaliased hknown) h

theorem stateNamed?_own {g : Graph} {name : String} (hread : Ident.read? name = some state.id)
    (hstate : g.state? state.id = some state) : g.stateNamed? name = some state := by
  unfold Graph.stateNamed?
  rw [hread, Option.bind_some, hstate]

/-- A later graph finds the same state under a name, unless one that has it as its id has come. -/
theorem stateNamed?_kept {g g' : Graph} (hkept : g.KeptIn g') {name : String}
    (h : g.stateNamed? name = some state) : g'.stateNamed? name = some state ∨
      ∃ id new, Ident.read? name = some id ∧ g.state? id = none ∧ g'.state? id = some new ∧
        g'.stateNamed? name = some new := by
  have halias : ∀ id, g.stateAliases.find? name = some id → g.state? id = some state →
      (g'.stateAliases.find? name).bind g'.state? = some state := by
    intro id hid hstate
    rw [hkept.stateAlias _ _ hid, Option.bind_some]
    exact hkept.state _ _ hstate
  unfold Graph.stateNamed? at h ⊢
  cases hread : (Ident.read? name : Option StateId) with
  | none =>
    rw [hread] at h
    obtain ⟨id, hid, hstate⟩ := Option.bind_eq_some_iff.1 h
    exact .inl (halias id hid hstate)
  | some own =>
    rw [hread] at h
    simp only [Option.bind_some] at h ⊢
    cases hown : g.state? own with
    | some old =>
      rw [hown] at h
      cases h
      rw [hkept.state _ _ hown]
      exact .inl rfl
    | none =>
      rw [hown] at h
      obtain ⟨id, hid, hstate⟩ := Option.bind_eq_some_iff.1 h
      cases hnew : g'.state? own with
      | none => exact .inl (halias id hid hstate)
      | some new => exact .inr ⟨own, new, rfl, hown, hnew, rfl⟩

theorem settled?_denotes (hs : s.Grounded settings files) (h : s.settled? raw = some state) :
    Denotes settings files (Text.trim raw) state.id := by
  unfold settled? at h
  dsimp only at h
  split at h
  · rename_i found hfound
    cases h
    exact hs.denoted _ _ hfound
  · rename_i hnone
    exact .own (hs.stateNamed? hnone h).1

theorem settled?_of_known (h : s.known.find? (Text.trim raw) = some state) :
    s.settled? raw = some state := by
  unfold settled?
  simp only [h]

theorem settled?_of_unknown (h : s.known.find? (Text.trim raw) = none) :
    s.settled? raw = s.graph.stateNamed? (Text.trim raw) := by
  unfold settled?
  simp only [h]

/-- What a name was looked up to is what it is found under from then on. -/
theorem lookUp_named {g g' : Graph} (hg : g.Canonical) {name : String}
    (halias : g.stateAliases.find? name = none)
    (h : lookUp settings files g name = .ok (g', state)) : g'.stateNamed? name = some state := by
  have hkept := (lookUp_spec hg h).2.1
  unfold lookUp at h
  cases hnamed : g.stateNamed? name with
  | some found =>
    rw [hnamed] at h
    cases h
    exact hnamed
  | none =>
    rw [hnamed] at h
    dsimp only at h
    split at h
    · split at h
      · cases h
      · rename_i rows hrows
        have hadded := addStateRows_spec hg rows
        generalize addStateRows g rows = added at hadded h
        obtain ⟨g₁, found⟩ := added
        dsimp only at h hadded
        have hself := hadded.state? found.id
        rw [if_pos rfl] at hself
        split at h
        · cases h
          unfold Graph.stateNamed?
          split
          · rename_i new hnew
            obtain ⟨id, hid, hstate⟩ := Option.bind_eq_some_iff.1 hnew
            have hadd : g₁.state? id = some new := hstate
            rw [hadded.state?] at hadd
            split at hadd
            · exact hadd.symm ▸ rfl
            · -- the name was no id of a state before
              unfold Graph.stateNamed? at hnamed
              simp [hid, hadd] at hnamed
          · rw [aliasState, Registry.find?_register_self, hadded.stateAliases, halias]
            exact hself
        · rename_i hname
          cases h
          have hread := state.id.read?_text
          rw [of_not_not hname] at hread
          exact stateNamed?_own hread hself
    · cases h

theorem lookUp_denotes {g : Graph} (hs : s.Grounded settings files) {name : String}
    (hknown : s.known.find? name = none)
    (h : lookUp settings files s.graph name = .ok (g, state)) :
    Denotes settings files name state.id ∧ ∀ other id,
      g.stateAliases.find? other = some id → s.graph.stateAliases.find? other = some id ∨
        other = name := by
  rcases lookUp_cases hs.canonical h with ⟨rfl, hnamed⟩ | ⟨rows, g₁, -, hrows, hadded, hg⟩
  · exact ⟨.own (hs.stateNamed? hknown hnamed).1, fun other id hid => .inl hid⟩
  · refine ⟨hadded.identity ▸ .file hrows, ?_⟩
    intro other id hid
    rcases hg with rfl | rfl
    · rw [hadded.stateAliases] at hid
      exact .inl hid
    · rcases Registry.find?_register_cases hid with hold | ⟨hname, -⟩
      · rw [hadded.stateAliases] at hold
        exact .inl hold
      · exact .inr hname

theorem resolve_grounded (hs : s.Grounded settings files)
    (h : s.resolve settings files raw = (s', .ok state)) : s'.Grounded settings files := by
  refine { toSound := (resolve_spec hs.toSound h).1, denoted := ?_, aliased := ?_ }
  · rcases resolve_cases h with ⟨rfl, -⟩ | ⟨g, hunknown, hlook, rfl⟩
    · exact hs.denoted
    · intro name found hfound
      rcases Registry.find?_register_cases hfound with hold | ⟨rfl, rfl⟩
      · exact hs.denoted name found hold
      · exact (lookUp_denotes hs hunknown hlook).1
  · rcases resolve_cases h with ⟨rfl, -⟩ | ⟨g, hunknown, hlook, rfl⟩
    · exact hs.aliased
    · intro name id halias
      rcases (lookUp_denotes hs hunknown hlook).2 name id halias with hold | rfl
      · obtain ⟨found, hfound⟩ := Option.isSome_iff_exists.1 (hs.aliased name id hold)
        rw [Registry.find?_register_of_find? hfound]
        rfl
      · rw [Registry.find?_register_self]
        rfl

theorem resolve_settled (hs : s.Grounded settings files)
    (h : s.resolve settings files raw = (s', .ok state)) :
    s'.settled? raw = some state ∧ s.SettledIn s' := by
  rcases resolve_cases h with ⟨rfl, hknown⟩ | ⟨g, hunknown, hlook, rfl⟩
  · exact ⟨settled?_of_known hknown, .refl s'⟩
  · refine ⟨settled?_of_known ?_, ?_⟩
    · rw [Registry.find?_register_self, hunknown]
      rfl
    · intro other found hfound
      unfold settled? at hfound
      dsimp only at hfound
      split at hfound
      · rename_i found' hfound'
        cases hfound
        exact settled?_of_known (Registry.find?_register_of_find? hfound')
      · rename_i hnone
        obtain ⟨hread, hstate⟩ := hs.stateNamed? hnone hfound
        by_cases hname : Text.trim other = Text.trim raw
        · -- the look-up has found the state with this id
          rw [hname] at hread
          unfold lookUp at hlook
          rw [stateNamed?_own hread hstate] at hlook
          cases hlook
          refine settled?_of_known ?_
          rw [hname, Registry.find?_register_self, hunknown]
          rfl
        · obtain ⟨-, hkept, -, -⟩ := lookUp_spec hs.canonical hlook
          have hother :
              (s.known.register (Text.trim raw) state).find? (Text.trim other) = none := by
            rw [Registry.find?_register, if_neg hname, hnone]
          rw [settled?_of_unknown hother]
          exact stateNamed?_own hread (hkept.state _ _ hstate)

/-- What a look-up leaves, whether it finds a state or not. -/
theorem resolve_settledIn (settings : Settings) (files : Tree) {s : Survey} (raw : String)
    (hs : s.Grounded settings files) :
    let after := s.resolve settings files raw
    after.1.Grounded settings files ∧ s.SettledIn after.1 ∧
      ∀ state, after.2 = .ok state → after.1.settled? raw = some state := by
  intro after
  cases hr : after.2 with
  | error e =>
    have hsame : after.1 = s := resolve_error hr
    rw [hsame]
    exact ⟨hs, .refl s, fun state h => by cases h⟩
  | ok state =>
    have hpair : s.resolve settings files raw = (after.1, .ok state) := Prod.ext rfl hr
    obtain ⟨hsettled, hin⟩ := resolve_settled hs hpair
    refine ⟨resolve_grounded hs hpair, hin, ?_⟩
    intro found h
    cases h
    exact hsettled

theorem grounded_new (settings : Settings) (files : Tree) (watchers : List Watcher) :
    (Session.new watchers).survey.Grounded settings files := by
  refine { toSound := Survey.ofGraph_sound canonical_initial, denoted := ?_, aliased := ?_ }
  · intro name state h
    rcases Registry.find?_register_cases h with hold | ⟨rfl, rfl⟩
    · cases hold
    · exact .own (Ident.read?_text StateId.empty)
  · intro name id h
    cases h

end Survey

/-! ## Trace files -/

variable (settings : Settings) (files : Tree)

theorem attemptAll_settledIn {s : Survey} (records : List Record)
    (hs : s.Grounded settings files) :
    let after := attemptAll settings files s records
    after.1.Grounded settings files ∧ s.SettledIn after.1 ∧
      ∀ attempt ∈ after.2, ∀ state, attempt.result = .ok state →
        after.1.settled? (attempt.record.field TraceColumn.result) = some state := by
  induction records generalizing s with
  | nil => exact ⟨hs, .refl s, fun _ h => by cases h⟩
  | cons r records ih =>
    obtain ⟨hfirst, hin, hsettled⟩ :=
      Survey.resolve_settledIn settings files (r.field TraceColumn.result) hs
    rw [attemptAll_cons]
    generalize s.resolve settings files (r.field TraceColumn.result) = first at *
    obtain ⟨hrest, hin', hall⟩ := ih hfirst
    refine ⟨hrest, hin.trans hin', ?_⟩
    intro attempt hmem state hok
    rcases List.mem_cons.1 hmem with rfl | hmem
    · exact hin' _ _ (hsettled state hok)
    · exact hall attempt hmem state hok

theorem consider_settledIn {s : Survey} (records : List Record)
    (hs : s.Grounded settings files) :
    (consider settings files s records).survey.Grounded settings files ∧
      s.SettledIn (consider settings files s records).survey := by
  obtain ⟨hgrounded, hin, -⟩ := attemptAll_settledIn settings files records hs
  exact ⟨hgrounded, hin⟩

/-- Two surveys that differ in their traces only. -/
structure Survey.Retraced (s s' : Survey) : Prop where
  known : s'.known = s.known
  widgets : s'.graph.widgets = s.graph.widgets
  widgetAliases : s'.graph.widgetAliases = s.graph.widgetAliases
  states : s'.graph.states = s.graph.states
  stateAliases : s'.graph.stateAliases = s.graph.stateAliases

namespace Survey.Retraced

theorem refl (s : Survey) : s.Retraced s :=
  ⟨rfl, rfl, rfl, rfl, rfl⟩

theorem trans {s s' s'' : Survey} (h : s.Retraced s') (h' : s'.Retraced s'') : s.Retraced s'' where
  known := h'.known.trans h.known
  widgets := h'.widgets.trans h.widgets
  widgetAliases := h'.widgetAliases.trans h.widgetAliases
  states := h'.states.trans h.states
  stateAliases := h'.stateAliases.trans h.stateAliases

variable {s s' : Survey} (h : s.Retraced s')

include h

theorem widget? (id : WidgetId) : s'.graph.widget? id = s.graph.widget? id := by
  rw [Graph.widget?, h.widgets, Graph.widget?]

theorem widgetAlias? (name : String) : s'.graph.widgetAlias? name = s.graph.widgetAlias? name := by
  rw [Graph.widgetAlias?, h.widgetAliases, Graph.widgetAlias?]

theorem state? (id : StateId) : s'.graph.state? id = s.graph.state? id := by
  rw [Graph.state?, h.states, Graph.state?]

theorem stateNamed? (name : String) : s'.graph.stateNamed? name = s.graph.stateNamed? name := by
  have hstate : s'.graph.state? = s.graph.state? := funext h.state?
  rw [Graph.stateNamed?, hstate, h.stateAliases, Graph.stateNamed?]

theorem settledIn : s.SettledIn s' := by
  intro raw state hsettled
  unfold settled? at hsettled ⊢
  simp only [h.known, h.stateNamed?]
  exact hsettled

variable {settings : Settings} {files : Tree}

theorem grounded (hsound : s'.Sound) (hs : s.Grounded settings files) :
    s'.Grounded settings files where
  toSound := hsound
  denoted := by
    rw [h.known]
    exact hs.denoted
  aliased := by
    rw [h.known, h.stateAliases]
    exact hs.aliased

end Survey.Retraced

theorem begin_retraced (s : Session) (id : TraceId) : s.survey.Retraced (s.begin id).survey :=
  ⟨rfl, rfl, rfl, rfl, rfl⟩

theorem commit_retraced (s : Session) (h : TraceHandle) (c : Considered) :
    c.survey.Retraced (s.commit h c).survey :=
  ⟨rfl, rfl, rfl, rfl, rfl⟩

theorem processTrace_settledIn {s : Session} (source : Source) (hquiet : s.Quiet)
    (hs : s.survey.Grounded settings files) :
    let after := (processTrace settings files s source).1.survey
    after.Grounded settings files ∧ s.survey.SettledIn after := by
  have hafter := hquiet.processTrace settings files source
  rw [processTrace_eq settings files source hquiet] at hafter ⊢
  dsimp only at hafter ⊢
  split at hafter
  · rename_i hold
    rw [if_pos hold]
    exact ⟨hs, .refl _⟩
  · rename_i hnew
    have hsame := begin_retraced s source.trace
    have hbegun := hsame.grounded (hquiet.begin (by simpa using hnew)).sound hs
    rw [if_neg hnew]
    split at hafter
    · exact ⟨hbegun, hsame.settledIn⟩
    · rename_i items hopen
      obtain ⟨hgrounded, hin⟩ := consider_settledIn settings files
        (Intake.ofItems settings.malformed items).records hbegun
      have hcommitted := commit_retraced (s.begin source.trace)
        ⟨s.model.graph.traces.length, source.trace⟩ (consider settings files
          (s.begin source.trace).survey (Intake.ofItems settings.malformed items).records)
      exact ⟨hcommitted.grounded hafter.sound hgrounded,
        (hsame.settledIn.trans hin).trans hcommitted.settledIn⟩

theorem runSources_settledIn {s : Session} (stopped : Bool) (sources : List Source)
    (hquiet : s.Quiet) (hs : s.survey.Grounded settings files) :
    let after := (runSources settings files stopped s sources).1.survey
    after.Grounded settings files ∧ s.survey.SettledIn after := by
  let P := fun s' : Session =>
    s'.Quiet ∧ s'.survey.Grounded settings files ∧ s.survey.SettledIn s'.survey
  have hstep : ∀ s' source, P s' → P (processTrace settings files s' source).1 := by
    intro s' source ⟨hquiet', hs', hin⟩
    obtain ⟨hafter, hin'⟩ := processTrace_settledIn settings files source hquiet' hs'
    exact ⟨hquiet'.processTrace settings files source, hafter, hin.trans hin'⟩
  have hall : P (runSources settings files stopped s sources).1 :=
    runSources_induction settings files sources ⟨hquiet, hs, .refl _⟩ hstep
  exact hall.2

end Load
end ScreenGraph
