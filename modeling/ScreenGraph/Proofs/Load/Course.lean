import ScreenGraph.Proofs.Load.History
import ScreenGraph.Proofs.Load.Names

/-!
# ScreenGraph.Proofs.Load.Course

What a name denotes in the course of events.

Three places are asked for a name of a state, one after another: the settled names, the ids of
registered states, and the aliases. A settled name is `Anchored` in the graph below: the name is the
id of its state or an alias of it. So the graph goes on giving the same answer once the settled
names are forgotten, until a state comes that has the name as its own id. Names of widgets have only
the ids and the aliases.

* `after_anchored`: what one event leaves.
* `course_known`: settled names stay settled until they are forgotten.
* `stateNamed?_heir`, `widgetNamed?_kept`: what a name denotes that denoted something before.
* `lookups_stable`: all three together, after any course of events.
-/

namespace ScreenGraph

open Files Graph Identity Record Screen

namespace Graph

/-- What a name denotes that has denoted `S`: the state whose own id it is, if one is registered,
and else still `S`. -/
inductive Heir (g : Graph) (name : String) (S : State) : State → Prop where
  | same (h : ∀ id : StateId, Ident.read? name = some id → id ≠ S.id → g.state? id = none) :
    Heir g name S S
  | own {id : StateId} {T : State} (hread : Ident.read? name = some id) (hne : id ≠ S.id)
    (hT : g.state? id = some T) : Heir g name S T

variable {g g' : Graph}

/-- A later graph finds the same widget under a name, unless one that has it as its id has come. -/
theorem widgetNamed?_kept (hkept : g.KeptIn g') {raw : String} {id : WidgetId}
    (h : g.widgetNamed? raw = some id) :
    (g'.widgetNamed? raw = some id ∧ ∀ own : WidgetId, Ident.read? (Text.trim raw) = some own →
      own ≠ id → g'.widget? own = none) ∨
    ∃ own : WidgetId, Ident.read? (Text.trim raw) = some own ∧ own ≠ id ∧ g.widget? own = none ∧
      (g'.widget? own).isSome = true ∧ g'.widgetNamed? raw = some own := by
  unfold widgetNamed? at h ⊢
  dsimp only at h ⊢
  split at h
  · cases h
  · rename_i hne
    simp only [if_neg hne]
    cases hread : (Ident.read? (Text.trim raw) : Option WidgetId) with
    | none =>
      rw [hread] at h
      exact .inl ⟨hkept.widgetAlias _ _ h, fun own hown => by cases hown⟩
    | some own =>
      rw [hread] at h
      dsimp only at h ⊢
      cases hold : g.widget? own with
      | some w =>
        rw [hold] at h
        cases h
        rw [hkept.widget _ _ hold]
        refine .inl ⟨rfl, fun other hother hdiffers => ?_⟩
        cases hother
        exact absurd rfl hdiffers
      | none =>
        rw [hold] at h
        have halias : g'.widgetAlias? (Text.trim raw) = some id := hkept.widgetAlias _ _ h
        cases hnew : g'.widget? own with
        | none =>
          refine .inl ⟨halias, fun other hother _ => ?_⟩
          cases hother
          exact hnew
        | some w =>
          by_cases hsame : own = id
          · subst hsame
            refine .inl ⟨rfl, fun other hother hdiffers => ?_⟩
            cases hother
            exact absurd rfl hdiffers
          · exact .inr ⟨own, rfl, hsame, hold, by rw [hnew]; rfl, rfl⟩

end Graph

namespace Load
namespace Survey

/-! ## Events -/

/-- What may happen to a survey while its graph is in use. -/
inductive Event where
  | asked (op : Operation)
  /-- Registers the widget of a row that stands among others. -/
  | rowAmong (siblings : Siblings) (r : Record)
  | begun (id : TraceId)
  | committed (h : TraceHandle) (as : List Action)

/-- What an event leaves. One that is refused leaves everything as it was. -/
def after (s : Survey) : Event → Survey
  | .asked op => (s.step op).1
  | .rowAmong siblings r => { s with graph := (Load.addRow s.graph siblings r).1 }
  | .begun id =>
    match s.graph.beginTrace id with
    | .ok (g, _) => { s with graph := g }
    | .error _ => s
  | .committed h as =>
    match s.graph.appendAll h as with
    | .ok g => { s with graph := g }
    | .error _ => s

def course (s : Survey) (events : List Event) : Survey :=
  events.foldl after s

/-- Every settled name is the id of its state or an alias of it. -/
structure Anchored (s : Survey) : Prop extends s.Sound where
  anchor : ∀ name S, s.known.find? name = some S →
    Ident.read? name = some S.id ∨ s.graph.stateAliases.find? name = some S.id
  aliased : ∀ name id, s.graph.stateAliases.find? name = some id →
    (s.graph.state? id).isSome = true

variable {s : Survey} {settings : Settings} {files : Tree} {raw : String}

theorem ofGraph_anchored {g : Graph} (hg : g.Canonical)
    (haliased : ∀ name id, g.stateAliases.find? name = some id → (g.state? id).isSome = true) :
    (ofGraph g).Anchored := by
  have hgraph : (ofGraph g).graph = g := addState_empty hg.toSound
  refine { toSound := ofGraph_sound hg, anchor := ?_, aliased := by rwa [hgraph] }
  intro name S h
  rcases Registry.find?_register_cases h with hold | ⟨rfl, rfl⟩
  · cases hold
  · rw [stateFor_empty hg.toSound]
    exact .inl (Ident.read?_text StateId.empty)

theorem Anchored.grow {g : Graph} (hs : s.Anchored) (hg : g.Canonical)
    (hkept : s.graph.KeptIn g) (haliases : g.stateAliases = s.graph.stateAliases) :
    Anchored { s with graph := g } where
  canonical := hg
  known name S h := hkept.state _ _ (hs.known name S h)
  anchor name S h := by
    rw [haliases]
    exact hs.anchor name S h
  aliased name id h := by
    rw [haliases] at h
    exact hkept.state_isSome (hs.aliased name id h)

/-- A name that denotes nothing in the graph has no alias. -/
theorem Anchored.unaliased (hs : s.Anchored) {name : String}
    (h : s.graph.stateNamed? name = none) : s.graph.stateAliases.find? name = none := by
  cases halias : s.graph.stateAliases.find? name with
  | none => rfl
  | some id =>
    obtain ⟨S, hS⟩ := Option.isSome_iff_exists.1 (hs.aliased name id halias)
    unfold Graph.stateNamed? at h
    rw [halias] at h
    split at h
    · cases h
    · rw [Option.bind_some, hS] at h
      cases h

theorem stateNamed?_anchor {g : Graph} {name : String} {S : State} (hg : g.Sound)
    (h : g.stateNamed? name = some S) :
    Ident.read? name = some S.id ∨ g.stateAliases.find? name = some S.id := by
  unfold Graph.stateNamed? at h
  split at h
  · rename_i hread
    cases h
    obtain ⟨id, hid, hstate⟩ := Option.bind_eq_some_iff.1 hread
    rw [hg.stateKey _ _ hstate]
    exact .inl hid
  · obtain ⟨id, hid, hstate⟩ := Option.bind_eq_some_iff.1 h
    rw [hg.stateKey _ _ hstate]
    exact .inr hid

/-- A look-up anchors the name that it settles. -/
theorem lookUp_anchored {g : Graph} {name : String} {S : State} (hs : s.Anchored)
    (h : lookUp settings files s.graph name = .ok (g, S)) :
    (Ident.read? name = some S.id ∨ g.stateAliases.find? name = some S.id) ∧
      ∀ other id, g.stateAliases.find? other = some id → (g.state? id).isSome = true := by
  obtain ⟨hcanonical, hkept, hself, -⟩ := lookUp_spec hs.canonical h
  cases hnamed : s.graph.stateNamed? name with
  | some found =>
    rcases lookUp_cases hs.canonical h with ⟨rfl, hfound⟩ | ⟨rows, g₁, hnone, -⟩
    · exact ⟨stateNamed?_anchor hs.canonical.toSound hfound, hs.aliased⟩
    · rw [hnamed] at hnone
      cases hnone
  | none =>
    have hfound := lookUp_named hs.canonical (hs.unaliased hnamed) h
    refine ⟨stateNamed?_anchor hcanonical.toSound hfound, ?_⟩
    intro other id halias
    rcases lookUp_cases hs.canonical h with ⟨rfl, -⟩ | ⟨rows, g₁, -, -, hadded, hg⟩
    · exact hs.aliased other id halias
    · have hold : s.graph.stateAliases.find? other = some id ∨ id = S.id := by
        rcases hg with rfl | rfl
        · rw [hadded.stateAliases] at halias
          exact .inl halias
        · rcases Registry.find?_register_cases halias with hold | ⟨-, hid⟩
          · rw [hadded.stateAliases] at hold
            exact .inl hold
          · exact .inr hid
      rcases hold with hold | rfl
      · exact hkept.state_isSome (hs.aliased other id hold)
      · rw [hself]
        rfl

/-- A look-up anchors what it settles and unsettles nothing. -/
theorem resolve_anchored (settings : Settings) (files : Tree) (raw : String) (hs : s.Anchored) :
    (s.resolve settings files raw).1.Anchored ∧
      ∀ name S, s.known.find? name = some S →
        (s.resolve settings files raw).1.known.find? name = some S := by
  cases hr : (s.resolve settings files raw).2 with
  | error e =>
    rw [resolve_error hr]
    exact ⟨hs, fun _ _ h => h⟩
  | ok state =>
    have hpair : s.resolve settings files raw = ((s.resolve settings files raw).1, .ok state) :=
      Prod.ext rfl hr
    have hsound := (resolve_spec hs.toSound hpair).1
    rcases resolve_cases hpair with ⟨hsame, -⟩ | ⟨g, -, hlook, hsame⟩
    · rw [hsame]
      exact ⟨hs, fun _ _ h => h⟩
    · obtain ⟨hanchor, haliased⟩ := lookUp_anchored hs hlook
      have hkept := (lookUp_spec hs.canonical hlook).2.1
      rw [hsame] at hsound ⊢
      refine ⟨{ toSound := hsound, anchor := ?_, aliased := haliased },
        fun name S h => Registry.find?_register_of_find? h⟩
      intro name S h
      rcases Registry.find?_register_cases h with hold | ⟨rfl, rfl⟩
      · exact (hs.anchor name S hold).imp_right (hkept.stateAlias _ _)
      · exact hanchor

/-- The widget of a single row changes no name of a state. -/
theorem addRow_anchored (siblings : Siblings) (r : Record) (hs : s.Anchored) :
    Anchored { s with graph := (Load.addRow s.graph siblings r).1 } := by
  have hcanonical : (Load.addRow s.graph siblings r).1.Canonical :=
    Canonical.addRows siblings hs.canonical [r]
  refine hs.grow hcanonical (kept_addRow s.graph siblings r) ?_
  rw [addRow_fst, addWidget_stateAliases, aliasRow_stateAliases]

/-- What one event leaves: nothing registered is lost, and no settled name is forgotten unless all
of them are. -/
theorem after_anchored (e : Event) (hs : s.Anchored) :
    (s.after e).Anchored ∧ s.graph.KeptIn (s.after e).graph ∧
      (e ≠ .asked .clear → ∀ name S, s.known.find? name = some S →
        (s.after e).known.find? name = some S) := by
  cases e with
  | asked op =>
    cases op with
    | resolve settings files raw =>
      obtain ⟨hanchored, hknown⟩ := resolve_anchored settings files raw hs
      exact ⟨hanchored, (resolve_sound settings files raw hs.toSound).2.1, fun _ => hknown⟩
    | settled raw => exact ⟨hs, .refl _, fun _ _ _ h => h⟩
    | addStateRows rows =>
      have hadded := addStateRows_spec hs.canonical rows
      exact ⟨hs.grow hadded.canonical hadded.kept hadded.stateAliases, hadded.kept,
        fun _ _ _ h => h⟩
    | clear =>
      have hgraph : (ofGraph s.graph).graph = s.graph := addState_empty hs.canonical.toSound
      refine ⟨ofGraph_anchored hs.canonical hs.aliased, ?_, fun h => absurd rfl h⟩
      exact hgraph.symm ▸ KeptIn.refl s.graph
    | addRow r =>
      simp only [after, step]
      exact ⟨addRow_anchored [] r hs, kept_addRow s.graph [] r, fun _ _ _ h => h⟩
    | widgetNamed raw => exact ⟨hs, .refl _, fun _ _ _ h => h⟩
    | action index r result => exact ⟨hs, .refl _, fun _ _ _ h => h⟩
  | rowAmong siblings r =>
    simp only [after]
    exact ⟨addRow_anchored siblings r hs, kept_addRow s.graph siblings r, fun _ _ _ h => h⟩
  | begun id =>
    simp only [after]
    cases hb : s.graph.beginTrace id with
    | error e => exact ⟨hs, .refl _, fun _ _ _ h => h⟩
    | ok begun =>
      have hkept := kept_beginTrace hb
      have hcanonical := hs.canonical.beginTrace hb
      obtain ⟨-, hsame, -⟩ := beginTrace_ok hb
      refine ⟨hs.grow hcanonical hkept ?_, hkept, fun _ _ _ h => h⟩
      rw [hsame]
  | committed h as =>
    simp only [after]
    cases happend : s.graph.appendAll h as with
    | error e => exact ⟨hs, .refl _, fun _ _ _ h => h⟩
    | ok g =>
      have hkept := kept_appendAll happend
      have hsound := hs.canonical.toSound.appendAll happend
      have hsame : g.widgets = s.graph.widgets ∧ g.states = s.graph.states ∧
          g.stateAliases = s.graph.stateAliases := by
        by_cases hne : as = []
        · subst hne
          cases happend
          exact ⟨rfl, rfl, rfl⟩
        · obtain ⟨t, -, -, -, rfl⟩ := (appendAll_ok_iff hne).1 happend
          exact ⟨rfl, rfl, rfl⟩
      obtain ⟨hwidgets, hstates, haliases⟩ := hsame
      exact ⟨hs.grow (hs.canonical.of_eq hsound hwidgets hstates) hkept haliases, hkept,
        fun _ _ _ h => h⟩

/-! ## Courses -/

theorem course_anchored (events : List Event) (hs : s.Anchored) :
    (s.course events).Anchored ∧ s.graph.KeptIn (s.course events).graph := by
  induction events generalizing s with
  | nil => exact ⟨hs, .refl _⟩
  | cons e events ih =>
    obtain ⟨hafter, hkept, -⟩ := after_anchored e hs
    obtain ⟨hrest, hkept'⟩ := ih hafter
    exact ⟨hrest, hkept.trans hkept'⟩

theorem course_known {events : List Event} (hs : s.Anchored) (hkeep : .asked .clear ∉ events)
    {name : String} {S : State} (h : s.known.find? name = some S) :
    (s.course events).known.find? name = some S := by
  induction events generalizing s with
  | nil => exact h
  | cons e events ih =>
    rw [List.mem_cons, not_or] at hkeep
    obtain ⟨hfirst, hrest⟩ := hkeep
    obtain ⟨hafter, -, hknown⟩ := after_anchored e hs
    exact ih hafter hrest (hknown (fun he => hfirst he.symm) name S h)

/-- A survey after a course of events from the start. -/
theorem initial_anchored (events : List Event) :
    ((ofGraph Graph.initial).course events).Anchored :=
  (course_anchored events (ofGraph_anchored canonical_initial fun _ _ h => by cases h)).1

theorem resolve_of_known {S : State} (h : s.known.find? (Text.trim raw) = some S) :
    s.resolve settings files raw = (s, .ok S) := by
  unfold resolve
  simp only [h]

/-- A look-up that succeeds settles the name. -/
theorem resolve_known {S : State} (h : (s.resolve settings files raw).2 = .ok S) :
    (s.resolve settings files raw).1.known.find? (Text.trim raw) = some S := by
  have hpair : s.resolve settings files raw = ((s.resolve settings files raw).1, .ok S) :=
    Prod.ext rfl h
  rcases resolve_cases hpair with ⟨hsame, hknown⟩ | ⟨g, hnone, -, hsame⟩
  · rw [hsame]
    exact hknown
  · rw [hsame, Registry.find?_register_self, hnone]
    rfl

/-- The graph finds what is settled, or its heir. -/
theorem stateNamed?_heir (hs : s.Anchored) {name : String} {S : State}
    (h : s.known.find? name = some S) :
    ∃ T, s.graph.Heir name S T ∧ s.graph.stateNamed? name = some T := by
  have hS := hs.known name S h
  cases hread : (Ident.read? name : Option StateId) with
  | none =>
    have halias : s.graph.stateAliases.find? name = some S.id := by
      rcases hs.anchor name S h with hown | halias
      · rw [hread] at hown
        cases hown
      · exact halias
    refine ⟨S, .same fun id hid => ?_, ?_⟩
    · rw [hread] at hid
      cases hid
    · unfold Graph.stateNamed?
      rw [hread, halias]
      exact hS
  | some id =>
    by_cases hid : id = S.id
    · subst hid
      refine ⟨S, .same fun id' hid' hne => ?_, stateNamed?_own hread hS⟩
      rw [hread] at hid'
      cases hid'
      exact absurd rfl hne
    · cases hT : s.graph.state? id with
      | some T =>
        refine ⟨T, .own hread hid hT, ?_⟩
        unfold Graph.stateNamed?
        rw [hread, Option.bind_some, hT]
      | none =>
        have halias : s.graph.stateAliases.find? name = some S.id := by
          rcases hs.anchor name S h with hown | halias
          · rw [hread] at hown
            cases hown
            exact absurd rfl hid
          · exact halias
        refine ⟨S, .same fun id' hid' _ => ?_, ?_⟩
        · rw [hread] at hid'
          cases hid'
          exact hT
        · unfold Graph.stateNamed?
          rw [hread, Option.bind_some, hT, halias]
          exact hS

/-- What is settled after all names were forgotten is what the graph finds. -/
theorem clear_known (hs : s.Anchored) {name : String} {S T : State}
    (hT : s.graph.stateNamed? name = some T) (h : s.clear.known.find? name = some S) : S = T := by
  rcases Registry.find?_register_cases h with hold | ⟨rfl, rfl⟩
  · cases hold
  · rw [stateFor_empty hs.canonical.toSound]
    have hown : s.graph.stateNamed? StateId.empty.text = some State.empty :=
      stateNamed?_own (Ident.read?_text StateId.empty) hs.canonical.empty
    rw [hT] at hown
    exact (Option.some.inj hown).symm

/-- After all names were forgotten, a name denotes what the graph finds. -/
theorem clear_denotes (hs : s.Anchored) {T : State}
    (hT : s.graph.stateNamed? (Text.trim raw) = some T) : s.clear.settled? raw = some T ∧
      ∀ settings files, (s.clear.resolve settings files raw).2 = .ok T := by
  have hgraph : s.clear.graph = s.graph := addState_empty hs.canonical.toSound
  cases hknown : s.clear.known.find? (Text.trim raw) with
  | some S =>
    cases clear_known hs hT hknown
    exact ⟨settled?_of_known hknown, fun settings files => by rw [resolve_of_known hknown]⟩
  | none =>
    refine ⟨by rw [settled?_of_unknown hknown, hgraph, hT], fun settings files => ?_⟩
    unfold resolve lookUp
    simp only [hknown, hgraph, hT]

/-- Look-ups are stable, whatever happened before and whatever the files hold. A name that was
looked up keeps its state until the settled names are forgotten. The graph alone then still finds
it, or the state whose own id the name is. The same goes for a widget that was found under a name,
except that a widget whose own id it is may come at any time. -/
theorem lookups_stable (before : List Event) (raw : String) :
    let s := (ofGraph Graph.initial).course before
    (∀ settings files S, (s.resolve settings files raw).2 = .ok S →
      ∀ between, .asked .clear ∉ between →
        let s' := (s.resolve settings files raw).1.course between
        s'.settled? raw = some S ∧
          ∀ settings' files', s'.resolve settings' files' raw = (s', .ok S)) ∧
    (∀ S, s.known.find? (Text.trim raw) = some S →
      ∃ T, s.graph.Heir (Text.trim raw) S T ∧ s.graph.stateNamed? (Text.trim raw) = some T ∧
        s.clear.settled? raw = some T ∧
        ∀ settings files, (s.clear.resolve settings files raw).2 = .ok T) ∧
    ∀ id, s.graph.widgetNamed? raw = some id → ∀ later,
      let g := (s.course later).graph
      (g.widgetNamed? raw = some id ∧ ∀ own : WidgetId, Ident.read? (Text.trim raw) = some own →
        own ≠ id → g.widget? own = none) ∨
      ∃ own : WidgetId, Ident.read? (Text.trim raw) = some own ∧ own ≠ id ∧
        s.graph.widget? own = none ∧ (g.widget? own).isSome = true ∧
        g.widgetNamed? raw = some own := by
  intro s
  have hs : s.Anchored := initial_anchored before
  refine ⟨?_, ?_, ?_⟩
  · intro settings files S h between hkeep s'
    have hresolved := (resolve_anchored settings files raw hs).1
    have hknown : s'.known.find? (Text.trim raw) = some S :=
      course_known hresolved hkeep (resolve_known h)
    exact ⟨settled?_of_known hknown, fun settings' files' => resolve_of_known hknown⟩
  · intro S h
    obtain ⟨T, hheir, hT⟩ := stateNamed?_heir hs h
    obtain ⟨hsettled, hresolve⟩ := clear_denotes hs hT
    exact ⟨T, hheir, hT, hsettled, hresolve⟩
  · intro id h later
    exact widgetNamed?_kept (course_anchored later hs).2 h

def takenSettings : Settings :=
  (Settings.ofBase ⟨"m"⟩).sequential

/-- The id of a state that shows the widget with the id `takenWidget` alone. -/
def takenState : String :=
  "10acc660-796c-6dff-7917-36bdb5d9b02d"

def takenWidget : String :=
  "8a3837f6-f37a-760c-3d0d-f5a89e72c11f"

/-- A file without rows is named by the id of that state. -/
def takenFiles : Tree where
  cwd := ["work"]
  nodes := [
    (["work"], .directory),
    (["work", "m"], .directory),
    (["work", "m", "states"], .directory),
    (["work", "m", "states", "10acc660-796c-6dff-7917-36bdb5d9b02d.csv"], .file [])]

/-- The row of that widget. -/
def takenRow : Record :=
  ⟨1, ["b", "Button", "no", "app", "/c"]⟩

/-- A row of another widget, which is stored under its id. -/
def takenOther : Record :=
  ⟨1, [takenWidget, "Button", "ok", "app", "/b"]⟩

/-- What is asked first: the name of that file, or the widget of the row. -/
def takenEvents : List Event :=
  [.asked (.resolve takenSettings takenFiles takenState), .asked (.addRow takenOther)]

/-- A state and a widget are found under ids of others that come later. -/
theorem lookups_stable_taken :
    let s := (ofGraph Graph.initial).course takenEvents
    let later : List Event := [.asked (.addStateRows [takenRow])]
    (s.resolve takenSettings .empty takenState).2 = .ok State.empty ∧
      (s.course later).settled? takenState = some State.empty ∧
      (∃ T, T ≠ State.empty ∧ (s.course later).clear.settled? takenState = some T) ∧
      s.graph.widgetNamed? takenWidget = some (identify takenOther) ∧
      (s.course later).graph.widgetNamed? takenWidget = some (identify takenRow) := by
  intro s later
  have hread : (s.resolve takenSettings .empty takenState).2 = .ok State.empty := by
    decide +kernel
  have hsame : (s.resolve takenSettings .empty takenState).1 = s := by decide +kernel
  have hfound : s.graph.widgetNamed? takenWidget = some (identify takenOther) := by decide +kernel
  have hown : Ident.read? (Text.trim takenWidget) = some (identify takenRow) := by decide +kernel
  have hdiffers : identify takenRow ≠ identify takenOther := by decide +kernel
  have hcome : (s.course later).graph.widget? (identify takenRow) ≠ none := by decide +kernel
  have hknown : ((ofGraph Graph.initial).course (takenEvents ++ later)).known.find?
      (Text.trim takenState) = some State.empty := by decide +kernel
  have hother : ((ofGraph Graph.initial).course (takenEvents ++ later)).graph.stateNamed?
      (Text.trim takenState) ≠ some State.empty := by decide +kernel
  have hafter : (ofGraph Graph.initial).course (takenEvents ++ later) = s.course later :=
    List.foldl_append
  obtain ⟨hstable, -, -⟩ := lookups_stable takenEvents takenState
  obtain ⟨hsettled, -⟩ := hstable _ _ _ hread later (by simp [later])
  obtain ⟨-, hheirs, -⟩ := lookups_stable (takenEvents ++ later) takenState
  obtain ⟨T, -, hnamed, hcleared, -⟩ := hheirs _ hknown
  obtain ⟨-, -, hwidgets⟩ := lookups_stable takenEvents takenWidget
  rw [hsame] at hsettled
  rw [hafter] at hcleared
  refine ⟨hread, hsettled, ⟨T, ?_, hcleared⟩, hfound, ?_⟩
  · rintro rfl
    exact hother hnamed
  · rcases hwidgets _ hfound later with ⟨-, hnone⟩ | ⟨own, hread, -, -, -, htaken⟩
    · exact absurd (hnone _ hown hdiffers) hcome
    · rw [hown] at hread
      cases hread
      exact htaken

end Survey
end Load
end ScreenGraph
