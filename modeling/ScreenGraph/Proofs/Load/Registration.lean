import ScreenGraph.Load.Survey
import ScreenGraph.Proofs.Graph.Sound
import ScreenGraph.Proofs.Identity.Fingerprint

/-!
# ScreenGraph.Proofs.Load.Registration

What the rows of a state file make of a graph.

A graph that was filled from rows only is `Canonical`: the ids are the structural identities, and
the widgets of a state are the registered ones. Rows keep it canonical, and their effect on every
look-up is known exactly.

* `addRows_widget?`, `addRows_snd`: the widgets after some rows, and what the rows are answered
  with.
* `addStateRows_spec`: the widgets and states after the rows of a file.
-/

namespace ScreenGraph

open Identity Screen Graph

namespace Graph

structure Canonical (g : Graph) : Prop extends g.Sound where
  widgetIdentity : ∀ id w, g.widget? id = some w → w.computedId = id
  stateShape : ∀ id s, g.state? id = some s → s = State.ofWidgets s.widgets
  member : ∀ id s, g.state? id = some s → ∀ w ∈ s.widgets, g.widget? w.id = some w

namespace Canonical

variable {g g' : Graph}

/-- Only the registries of widgets and states count. -/
theorem of_eq (hg : g.Canonical) (hsound : g'.Sound) (hw : g'.widgets = g.widgets)
    (hs : g'.states = g.states) : g'.Canonical where
  toSound := hsound
  widgetIdentity id w h := hg.widgetIdentity id w (by simpa only [widget?, hw] using h)
  stateShape id s h := hg.stateShape id s (by simpa only [state?, hs] using h)
  member id s h w hmem := by
    have := hg.member id s (by simpa only [state?, hs] using h) w hmem
    simpa only [widget?, hw] using this

theorem aliasWidget (hg : g.Canonical) (name : String) (id : WidgetId) :
    (g.aliasWidget name id).Canonical :=
  hg.of_eq (hg.toSound.aliasWidget name id) rfl rfl

theorem aliasState (hg : g.Canonical) (name : String) (id : StateId) :
    (g.aliasState name id).Canonical :=
  hg.of_eq (hg.toSound.aliasState name id) rfl rfl

theorem addWidget (hg : g.Canonical) {w : Widget} (hw : w.computedId = w.id) :
    (g.addWidget w).Canonical where
  toSound := hg.toSound.addWidget w
  widgetIdentity id v hv := by
    rw [widget?_addWidget] at hv
    split at hv
    · rename_i hid
      cases hv
      unfold widgetFor
      cases hfound : g.widget? w.id with
      | none => exact hw.trans hid.symm
      | some u => exact (hg.widgetIdentity _ _ hfound).trans hid.symm
    · exact hg.widgetIdentity _ _ hv
  stateShape := hg.stateShape
  member id s hs v hv := (g.kept_addWidget w).widget _ _ (hg.member id s hs v hv)

theorem addState (hg : g.Canonical) {s : State} (hs : s = State.ofWidgets s.widgets)
    (hmember : ∀ w ∈ s.widgets, g.widget? w.id = some w) : (g.addState s).Canonical where
  toSound := hg.toSound.addState s
  widgetIdentity := hg.widgetIdentity
  stateShape id v hv := by
    rw [state?_addState] at hv
    split at hv
    · cases hv
      unfold stateFor
      cases hfound : g.state? s.id with
      | none => exact hs
      | some u => exact hg.stateShape _ _ hfound
    · exact hg.stateShape _ _ hv
  member id v hv := by
    rw [state?_addState] at hv
    split at hv
    · cases hv
      unfold stateFor
      cases hfound : g.state? s.id with
      | none => exact hmember
      | some u => exact hg.member _ _ hfound
    · exact hg.member _ _ hv

theorem beginTrace {id : TraceId} {h : TraceHandle} (hg : g.Canonical)
    (hb : g.beginTrace id = .ok (g', h)) : g'.Canonical := by
  have hsound := hg.toSound.beginTrace hb
  obtain ⟨-, rfl, -⟩ := beginTrace_ok hb
  exact hg.of_eq hsound rfl rfl

theorem extendTrace {slot : Nat} {t : Trace} {as : List Action} (hg : g.Canonical)
    (ht : g.traces[slot]? = some t) (hfollows : Follows t.lastIndex? as)
    (hadmits : ∀ a ∈ as, g.Admits a) : (g.extendTrace slot as).Canonical :=
  hg.of_eq (hg.toSound.extendTrace ht hfollows hadmits) rfl rfl

/-- A registered state has the identity of its widgets. -/
theorem state_id (hg : g.Canonical) {id : StateId} {s : State} (hs : g.state? id = some s) :
    s.id = StateId.ofWidgets (s.widgets.map (·.id)) := by
  rw [hg.stateShape id s hs, State.ofWidgets_id, ← hg.stateShape id s hs]

theorem nodup_state (hg : g.Canonical) {id : StateId} {s : State} (hs : g.state? id = some s) :
    (s.widgets.map (·.id)).Nodup := by
  rw [hg.stateShape id s hs]
  exact nodup_firstSightings _

/-- The home screen is told by the widgets of a state. -/
theorem home_eq (hg : g.Canonical) {id : StateId} {s : State} (hs : g.state? id = some s) :
    s.home = s.widgets.any fun w => holdsLauncher w.packageName := by
  rw [hg.stateShape id s hs]
  rfl

end Canonical

theorem initial_state? (id : StateId) :
    initial.state? id = if id = StateId.empty then some State.empty else none :=
  Registry.find?_register _ _ _ _

theorem initial_widget? (id : WidgetId) : initial.widget? id = none :=
  Registry.find?_empty id

theorem canonical_initial : initial.Canonical where
  toSound := sound_initial
  widgetIdentity id w h := by cases h
  stateShape id s h := by
    rw [initial_state?] at h
    split at h
    · cases h
      exact State.ofWidgets_nil.symm
    · cases h
  member id s h w hw := by
    rw [initial_state?] at h
    split at h
    · cases h
      cases hw
    · cases h

@[simp] theorem addWidget_states (g : Graph) (w : Widget) : (g.addWidget w).states = g.states := rfl

@[simp] theorem addWidget_stateAliases (g : Graph) (w : Widget) :
    (g.addWidget w).stateAliases = g.stateAliases := rfl

@[simp] theorem addWidget_widgetAliases (g : Graph) (w : Widget) :
    (g.addWidget w).widgetAliases = g.widgetAliases := rfl

@[simp] theorem addWidget_traces (g : Graph) (w : Widget) : (g.addWidget w).traces = g.traces := rfl

/-- Registering the empty state again does nothing. -/
theorem addState_empty {g : Graph} (hg : g.Sound) : g.addState State.empty = g := by
  have hfound : g.states.find? State.empty.id = some State.empty := hg.empty
  simp only [addState, Registry.register, hfound]

theorem stateFor_empty {g : Graph} (hg : g.Sound) : g.stateFor State.empty = State.empty := by
  have hfound : g.state? State.empty.id = some State.empty := hg.empty
  simp only [stateFor, hfound, Option.getD_some]

end Graph

namespace Load

variable (g : Graph) (siblings : Siblings)

/-! ## Single rows -/

@[simp] theorem aliasRow_widgets (r : Record) : (aliasRow g r).widgets = g.widgets := by
  unfold aliasRow; split <;> rfl

@[simp] theorem aliasRow_states (r : Record) : (aliasRow g r).states = g.states := by
  unfold aliasRow; split <;> rfl

@[simp] theorem aliasRow_stateAliases (r : Record) :
    (aliasRow g r).stateAliases = g.stateAliases := by
  unfold aliasRow; split <;> rfl

@[simp] theorem aliasRow_traces (r : Record) : (aliasRow g r).traces = g.traces := by
  unfold aliasRow; split <;> rfl

theorem kept_aliasRow (r : Record) : g.KeptIn (aliasRow g r) := by
  unfold aliasRow
  split
  · exact g.kept_aliasWidget _ _
  · exact .refl g

theorem Sound.aliasRow {g : Graph} (hg : g.Sound) (r : Record) : (aliasRow g r).Sound := by
  unfold Load.aliasRow
  split
  · exact hg.aliasWidget _ _
  · exact hg

theorem Canonical.aliasRow {g : Graph} (hg : g.Canonical) (r : Record) :
    (aliasRow g r).Canonical := by
  unfold Load.aliasRow
  split
  · exact hg.aliasWidget _ _
  · exact hg

theorem widgetOf_computedId (r : Record) :
    (widgetOf siblings r).computedId = (widgetOf siblings r).id := rfl

theorem addRow_fst (r : Record) :
    (addRow g siblings r).1 = (aliasRow g r).addWidget (widgetOf siblings r) := rfl

theorem addRow_widget? (r : Record) (id : WidgetId) :
    (addRow g siblings r).1.widget? id =
      if id = identify r then some (g.widgetFor (widgetOf siblings r)) else g.widget? id := by
  have hfor : (aliasRow g r).widgetFor (widgetOf siblings r) =
      g.widgetFor (widgetOf siblings r) := by
    simp only [widgetFor, widget?, aliasRow_widgets]
  have hsame : (aliasRow g r).widget? id = g.widget? id := by
    simp only [widget?, aliasRow_widgets]
  rw [addRow_fst, widget?_addWidget, hfor, hsame]
  rfl

theorem addRow_frame (r : Record) :
    (addRow g siblings r).1.states = g.states ∧
      (addRow g siblings r).1.stateAliases = g.stateAliases ∧
      (addRow g siblings r).1.traces = g.traces := by
  rw [addRow_fst, addWidget_states, addWidget_stateAliases, addWidget_traces]
  exact ⟨aliasRow_states g r, aliasRow_stateAliases g r, aliasRow_traces g r⟩

theorem kept_addRow (r : Record) : g.KeptIn (addRow g siblings r).1 :=
  (kept_aliasRow g r).trans (kept_addWidget _ _)

/-! ## All rows of a file -/

theorem addRows_cons_fst (r : Record) (rows : List Record) :
    (addRows g siblings (r :: rows)).1 = (addRows (addRow g siblings r).1 siblings rows).1 := by
  rw [addRows]

theorem addRows_cons_snd (r : Record) (rows : List Record) :
    (addRows g siblings (r :: rows)).2 =
      g.widgetFor (widgetOf siblings r) :: (addRows (addRow g siblings r).1 siblings rows).2 := by
  rw [addRows]
  rfl

theorem kept_addRows (rows : List Record) : g.KeptIn (addRows g siblings rows).1 := by
  induction rows generalizing g with
  | nil => exact .refl g
  | cons r rows ih =>
    rw [addRows_cons_fst]
    exact (kept_addRow g siblings r).trans (ih _)

theorem Sound.addRows {g : Graph} (hg : g.Sound) (rows : List Record) :
    (addRows g siblings rows).1.Sound := by
  induction rows generalizing g with
  | nil => exact hg
  | cons r rows ih =>
    rw [addRows_cons_fst]
    refine ih ?_
    rw [addRow_fst]
    exact (Sound.aliasRow hg r).addWidget _

theorem Canonical.addRows {g : Graph} (hg : g.Canonical) (rows : List Record) :
    (addRows g siblings rows).1.Canonical := by
  induction rows generalizing g with
  | nil => exact hg
  | cons r rows ih =>
    rw [addRows_cons_fst]
    refine ih ?_
    rw [addRow_fst]
    exact (Canonical.aliasRow hg r).addWidget (widgetOf_computedId siblings r)

theorem addRows_frame (rows : List Record) :
    (addRows g siblings rows).1.states = g.states ∧
      (addRows g siblings rows).1.stateAliases = g.stateAliases ∧
      (addRows g siblings rows).1.traces = g.traces := by
  induction rows generalizing g with
  | nil => exact ⟨rfl, rfl, rfl⟩
  | cons r rows ih =>
    obtain ⟨hs, ha, ht⟩ := ih (addRow g siblings r).1
    obtain ⟨hs', ha', ht'⟩ := addRow_frame g siblings r
    rw [addRows_cons_fst]
    exact ⟨hs.trans hs', ha.trans ha', ht.trans ht'⟩

/-- A new widget is that of the first row that has its identity. -/
theorem addRows_widget? (rows : List Record) (id : WidgetId) :
    (addRows g siblings rows).1.widget? id =
      (g.widget? id).or ((rows.find? (identify · = id)).map (widgetOf siblings)) := by
  induction rows generalizing g with
  | nil => simp [addRows]
  | cons r rows ih =>
    rw [addRows_cons_fst, ih, addRow_widget?]
    by_cases hid : id = identify r
    · subst hid
      have hfor : g.widgetFor (widgetOf siblings r) =
          (g.widget? (identify r)).getD (widgetOf siblings r) := rfl
      rw [if_pos rfl, Option.some_or, List.find?_cons_of_pos (by simp only [decide_true]),
        Option.map_some, hfor]
      cases g.widget? (identify r) with
      | none => rfl
      | some w => rfl
    · have hne : identify r ≠ id := by
        intro h
        exact hid h.symm
      rw [if_neg hid, List.find?_cons_of_neg (by simpa using hne)]

/-- The stored id of the row is this name, and is recorded as an alias. -/
def namedBy (name : String) (r : Record) : Bool :=
  storedId r = name ∧ name ≠ "" ∧ name ≠ (identify r).text

theorem addRow_widgetAlias? (r : Record) (name : String) :
    (addRow g siblings r).1.widgetAlias? name =
      (g.widgetAlias? name).or (if namedBy name r then some (identify r) else none) := by
  have hsame : (addRow g siblings r).1.widgetAlias? name = (aliasRow g r).widgetAlias? name := by
    rw [addRow_fst, widgetAlias?, addWidget_widgetAliases, widgetAlias?]
  rw [hsame, aliasRow]
  by_cases hrow : storedId r ≠ "" ∧ storedId r ≠ (identify r).text
  · rw [if_pos hrow, widgetAlias?, aliasWidget, Registry.find?_register]
    by_cases hname : name = storedId r
    · subst hname
      have hnamed : namedBy (storedId r) r = true := by simpa [namedBy] using hrow
      rw [if_pos rfl, hnamed, if_pos rfl]
      cases hold : g.widgetAliases.find? (storedId r) <;> simp [widgetAlias?, hold]
    · have hother : namedBy name r = false := by
        rw [namedBy, decide_eq_false_iff_not]
        rintro ⟨rfl, -⟩
        exact hname rfl
      rw [if_neg hname, hother, if_neg (by simp), Option.or_none]
      rfl
  · have hno : namedBy name r = false := by
      rw [namedBy, decide_eq_false_iff_not]
      rintro ⟨rfl, hnonempty, hne⟩
      exact hrow ⟨hnonempty, hne⟩
    rw [if_neg hrow, hno, if_neg (by simp), Option.or_none]

/-- A new alias denotes the first row that has it as its stored id. -/
theorem addRows_widgetAlias? (rows : List Record) (name : String) :
    (addRows g siblings rows).1.widgetAlias? name =
      (g.widgetAlias? name).or ((rows.find? (namedBy name)).map identify) := by
  induction rows generalizing g with
  | nil => simp [addRows]
  | cons r rows ih =>
    rw [addRows_cons_fst, ih, addRow_widgetAlias?, Option.or_assoc]
    cases hnamed : namedBy name r with
    | true => rw [List.find?_cons_of_pos hnamed]; rfl
    | false => rw [List.find?_cons_of_neg (by simp [hnamed])]; rfl

/-- Every row is answered with the widget that is registered under its identity. -/
theorem addRows_snd (rows : List Record) :
    (addRows g siblings rows).2.map some =
      rows.map fun r => (addRows g siblings rows).1.widget? (identify r) := by
  induction rows generalizing g with
  | nil => rfl
  | cons r rows ih =>
    rw [addRows_cons_fst, addRows_cons_snd, List.map_cons, List.map_cons, ih]
    congr 1
    symm
    refine (kept_addRows _ siblings rows).widget _ _ ?_
    rw [addRow_widget?, if_pos rfl]

theorem addRows_ids {g : Graph} (hg : g.Sound) (rows : List Record) :
    (addRows g siblings rows).2.map (·.id) = rows.map identify := by
  have hsnd := addRows_snd g siblings rows
  have hkey := (Sound.addRows siblings hg rows).widgetKey
  generalize (addRows g siblings rows).1 = g' at hsnd hkey
  generalize (addRows g siblings rows).2 = ws at hsnd
  induction rows generalizing ws with
  | nil => cases ws <;> simp_all
  | cons r rows ih =>
    cases ws with
    | nil => cases hsnd
    | cons w ws =>
      obtain ⟨hw, hws⟩ := List.cons.inj hsnd
      rw [List.map_cons, List.map_cons, ih ws hws, hkey _ _ hw.symm]

theorem addRows_mem {g : Graph} (hg : g.Canonical) (rows : List Record) {w : Widget}
    (hw : w ∈ (addRows g siblings rows).2) :
    (addRows g siblings rows).1.widget? w.id = some w := by
  have hmem : some w ∈ (addRows g siblings rows).2.map some := List.mem_map_of_mem hw
  rw [addRows_snd] at hmem
  obtain ⟨r, -, hr⟩ := List.mem_map.1 hmem
  rw [(Canonical.addRows siblings hg rows).widgetKey _ _ hr]
  exact hr

/-- The graph that the rows of a state file make of `g`, and the state that they stand for. -/
structure StateAdded (g : Graph) (rows : List Record) (g' : Graph) (s : State) : Prop where
  canonical : g'.Canonical
  kept : g.KeptIn g'
  identity : s.id = StateId.ofWidgets (rows.map identify)
  state? : ∀ id, g'.state? id = if id = s.id then some s else g.state? id
  widget? : ∀ id, g'.widget? id =
    (g.widget? id).or ((rows.find? (identify · = id)).map (widgetOf (siblingsOf rows)))
  widgetAlias? : ∀ name, g'.widgetAlias? name =
    (g.widgetAlias? name).or ((rows.find? (namedBy name)).map identify)
  stateAliases : g'.stateAliases = g.stateAliases
  traces : g'.traces = g.traces
  /-- A new state shows what its rows show. -/
  shown : g.state? s.id = none → s.widgets.map (·.id) =
    (firstSightings (rows.map (widgetOf (siblingsOf rows)))).map (·.id)

theorem firstSightings_ids_congr {ws vs : List Widget} (h : ws.map (·.id) = vs.map (·.id)) :
    (firstSightings ws).map (·.id) = (firstSightings vs).map (·.id) := by
  induction ws generalizing vs with
  | nil => cases vs <;> simp_all
  | cons w ws ih =>
    cases vs with
    | nil => cases h
    | cons v vs =>
      obtain ⟨hhead, htail⟩ := List.cons.inj h
      have hfilter : ∀ (us : List Widget) (id : WidgetId),
          (us.filter (·.id ≠ id)).map (·.id) = (us.map (·.id)).filter (· ≠ id) := by
        intro us id
        rw [List.filter_map]
        rfl
      simp only [firstSightings, List.map_cons, hfilter, hhead, ih htail]

/-- No rows add nothing, and stand for the empty state. -/
theorem stateAdded_nil {g : Graph} (hg : g.Canonical) :
    StateAdded g [] (addStateRows g []).1 (addStateRows g []).2 := by
  have hfst : (addStateRows g []).1 = g := addState_empty hg.toSound
  have hsnd : (addStateRows g []).2 = State.empty := stateFor_empty hg.toSound
  rw [hfst, hsnd]
  refine ⟨hg, .refl g, StateId.ofWidgets_nil.symm, ?_, fun id => by simp, fun name => by simp, rfl,
    rfl, ?_⟩
  · intro id
    split
    · rename_i hid
      subst hid
      exact hg.empty
    · rfl
  · intro h
    exact absurd (hg.empty.symm.trans h) (by simp)

/-- Rows add their widgets and then the state of these. -/
theorem stateAdded_rows {g : Graph} (hg : g.Canonical) (rows : List Record) {ws : List Widget}
    (hws : (addRows g (siblingsOf rows) rows).2 = ws) :
    let g₁ := (addRows g (siblingsOf rows) rows).1
    StateAdded g rows (g₁.addState (State.ofWidgets ws)) (g₁.stateFor (State.ofWidgets ws)) := by
  intro g₁
  have hcanonical : g₁.Canonical := Canonical.addRows _ hg rows
  have hids : ws.map (·.id) = rows.map identify := hws ▸ addRows_ids _ hg.toSound rows
  obtain ⟨hstates, haliases, htraces⟩ := addRows_frame g (siblingsOf rows) rows
  have hshape : State.ofWidgets ws = State.ofWidgets (State.ofWidgets ws).widgets :=
    (State.ofWidgets_widgets ws).symm
  have hmember : ∀ w ∈ (State.ofWidgets ws).widgets, g₁.widget? w.id = some w := by
    intro w hw
    exact addRows_mem _ hg rows (hws ▸ mem_firstSightings hw)
  have hfinal := hcanonical.addState hshape hmember
  have hself : (g₁.addState (State.ofWidgets ws)).state? (State.ofWidgets ws).id =
      some (g₁.stateFor (State.ofWidgets ws)) := by
    rw [state?_addState, if_pos rfl]
  have hsid : (g₁.stateFor (State.ofWidgets ws)).id = (State.ofWidgets ws).id :=
    hfinal.stateKey _ _ hself
  have hstate : ∀ id, g₁.state? id = g.state? id := by
    intro id
    simp only [Graph.state?, g₁, hstates]
  refine ⟨hfinal, (kept_addRows g _ rows).trans (g₁.kept_addState _), ?_, ?_,
    fun id => addRows_widget? g _ rows id, fun name => addRows_widgetAlias? g _ rows name, haliases,
    htraces, ?_⟩
  · rw [hsid, State.ofWidgets_id, hids]
  · intro id
    rw [state?_addState, hsid, hstate]
  · intro hnew
    have hfor : g₁.stateFor (State.ofWidgets ws) = State.ofWidgets ws := by
      rw [hsid, ← hstate] at hnew
      simp only [stateFor, hnew, Option.getD_none]
    rw [hfor]
    refine firstSightings_ids_congr ?_
    rw [hids, List.map_map]
    rfl

theorem addStateRows_spec {g : Graph} (hg : g.Canonical) (rows : List Record) :
    StateAdded g rows (addStateRows g rows).1 (addStateRows g rows).2 := by
  cases rows with
  | nil => exact stateAdded_nil hg
  | cons r rows =>
    have hadded := stateAdded_rows hg (r :: rows) rfl
    simpa only [addStateRows, List.isEmpty_cons, Bool.false_eq_true, if_false] using hadded

end Load
end ScreenGraph
