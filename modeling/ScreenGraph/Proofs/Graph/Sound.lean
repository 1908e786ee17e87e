import ScreenGraph.Proofs.Graph.Checks

/-!
# ScreenGraph.Proofs.Graph.Sound

What holds of a graph however it was built, and what a graph keeps for ever.

`Sound` ties the registries and the traces together. `KeptIn g g'` says that `g'` has everything
that `g` has, unchanged: look-ups give the same answers and every trace goes on where it was. Each
operation of a graph keeps the graph sound and keeps what was there.

* `Admits.mono`: what a graph admits, a later one admits.
* `Sound.addWidget`, `Sound.addState`, `Sound.beginTrace`, `Sound.extendTrace`: one lemma for each
  kind of change.
-/

namespace ScreenGraph
namespace Graph

open Identity Screen

structure Sound (g : Graph) : Prop where
  empty : g.state? StateId.empty = some State.empty
  /-- Everything registered is found under its own id. -/
  widgetKey : ∀ id w, g.widget? id = some w → w.id = id
  stateKey : ∀ id s, g.state? id = some s → s.id = id
  /-- The registries have one entry for each id. -/
  widgetKeys : g.widgets.keys.Nodup
  stateKeys : g.states.keys.Nodup
  traceIds : (g.traces.map (·.id)).Nodup
  ordered : ∀ t ∈ g.traces, t.actions.Pairwise fun a b => a.index < b.index
  committed : ∀ t ∈ g.traces, ∀ a ∈ t.actions, g.Admits a

structure KeptIn (g g' : Graph) : Prop where
  widget : ∀ id w, g.widget? id = some w → g'.widget? id = some w
  state : ∀ id s, g.state? id = some s → g'.state? id = some s
  widgetAlias : ∀ name id, g.widgetAlias? name = some id → g'.widgetAlias? name = some id
  stateAlias : ∀ name id, g.stateAliases.find? name = some id →
    g'.stateAliases.find? name = some id
  trace : ∀ (i : Nat) (t : Trace), g.traces[i]? = some t →
    ∃ more, g'.traces[i]? = some (t.extend more)

namespace KeptIn

theorem refl (g : Graph) : g.KeptIn g :=
  ⟨fun _ _ h => h, fun _ _ h => h, fun _ _ h => h, fun _ _ h => h,
    fun _ t h => ⟨[], by rw [h, extend_nil]⟩⟩

theorem trans {g₁ g₂ g₃ : Graph} (h : g₁.KeptIn g₂) (h' : g₂.KeptIn g₃) : g₁.KeptIn g₃ where
  widget id w hw := h'.widget id w (h.widget id w hw)
  state id s hs := h'.state id s (h.state id s hs)
  widgetAlias name id ha := h'.widgetAlias name id (h.widgetAlias name id ha)
  stateAlias name id ha := h'.stateAlias name id (h.stateAlias name id ha)
  trace i t ht := by
    obtain ⟨more, hmore⟩ := h.trace i t ht
    obtain ⟨more', hmore'⟩ := h'.trace i _ hmore
    exact ⟨more ++ more', by rw [hmore']; simp [Trace.extend]⟩

end KeptIn

theorem Admits.mono {g g' : Graph} {a : Action} (hkept : g.KeptIn g') (h : g.Admits a) :
    g'.Admits a := by
  obtain ⟨source, result, hsource, hresult, htarget⟩ := h
  refine ⟨source, result, hkept.state _ _ hsource, hkept.state _ _ hresult, ?_⟩
  intro w hw
  obtain ⟨hregistered, hcontains⟩ := htarget w hw
  obtain ⟨v, hv⟩ := Option.isSome_iff_exists.1 hregistered
  exact ⟨by rw [hkept.widget _ _ hv]; rfl, hcontains⟩

section Growth

variable (g : Graph)

theorem widget?_addWidget (w : Widget) (id : WidgetId) :
    (g.addWidget w).widget? id = if id = w.id then some (g.widgetFor w) else g.widget? id :=
  Registry.find?_register _ _ _ _

theorem state?_addState (s : State) (id : StateId) :
    (g.addState s).state? id = if id = s.id then some (g.stateFor s) else g.state? id :=
  Registry.find?_register _ _ _ _

theorem kept_addWidget (w : Widget) : g.KeptIn (g.addWidget w) :=
  { KeptIn.refl g with widget := fun _ _ h => Registry.find?_register_of_find? h }

theorem kept_addState (s : State) : g.KeptIn (g.addState s) :=
  { KeptIn.refl g with state := fun _ _ h => Registry.find?_register_of_find? h }

theorem kept_aliasWidget (name : String) (id : WidgetId) : g.KeptIn (g.aliasWidget name id) :=
  { KeptIn.refl g with widgetAlias := fun _ _ h => Registry.find?_register_of_find? h }

theorem kept_aliasState (name : String) (id : StateId) : g.KeptIn (g.aliasState name id) :=
  { KeptIn.refl g with stateAlias := fun _ _ h => Registry.find?_register_of_find? h }

theorem kept_extendTrace (slot : Nat) (as : List Action) : g.KeptIn (g.extendTrace slot as) := by
  refine { KeptIn.refl g with trace := ?_ }
  intro i t h
  rw [extendTrace_getElem?, h]
  split
  · exact ⟨as, rfl⟩
  · exact ⟨[], by rw [extend_nil]⟩

end Growth

theorem beginTrace_ok {g g' : Graph} {id : TraceId} {h : TraceHandle}
    (hb : g.beginTrace id = .ok (g', h)) : (∀ t ∈ g.traces, t.id ≠ id) ∧
      g' = { g with traces := g.traces ++ [Trace.new id] } ∧ h = ⟨g.traces.length, id⟩ := by
  unfold beginTrace at hb
  split at hb
  · cases hb
  · rename_i hnew
    cases hb
    refine ⟨fun t ht hid => hnew ?_, rfl, rfl⟩
    exact List.any_eq_true.2 ⟨t, ht, by simpa using hid⟩

theorem kept_beginTrace {g g' : Graph} {id : TraceId} {h : TraceHandle}
    (hb : g.beginTrace id = .ok (g', h)) : g.KeptIn g' := by
  obtain ⟨-, rfl, -⟩ := beginTrace_ok hb
  refine { KeptIn.refl g with trace := fun i t ht => ⟨[], ?_⟩ }
  obtain ⟨hi, -⟩ := List.getElem?_eq_some_iff.1 ht
  rw [extend_nil]
  exact (List.getElem?_append_left hi).trans ht

namespace Sound

variable {g : Graph}

theorem addWidget (hg : g.Sound) (w : Widget) : (g.addWidget w).Sound where
  empty := hg.empty
  widgetKey id v hv := by
    rw [widget?_addWidget] at hv
    split at hv
    · rename_i hid
      cases hv
      unfold widgetFor
      cases hw : g.widget? w.id with
      | none => exact hid.symm
      | some u => exact (hg.widgetKey _ _ hw).trans hid.symm
    · exact hg.widgetKey _ _ hv
  stateKey := hg.stateKey
  widgetKeys := Registry.keys_register_nodup _ _ hg.widgetKeys
  stateKeys := hg.stateKeys
  traceIds := hg.traceIds
  ordered := hg.ordered
  committed t ht a ha := (hg.committed t ht a ha).mono (g.kept_addWidget w)

theorem addState (hg : g.Sound) (s : State) : (g.addState s).Sound where
  empty := (g.kept_addState s).state _ _ hg.empty
  widgetKey := hg.widgetKey
  stateKey id v hv := by
    rw [state?_addState] at hv
    split at hv
    · rename_i hid
      cases hv
      unfold stateFor
      cases hs : g.state? s.id with
      | none => exact hid.symm
      | some u => exact (hg.stateKey _ _ hs).trans hid.symm
    · exact hg.stateKey _ _ hv
  widgetKeys := hg.widgetKeys
  stateKeys := Registry.keys_register_nodup _ _ hg.stateKeys
  traceIds := hg.traceIds
  ordered := hg.ordered
  committed t ht a ha := (hg.committed t ht a ha).mono (g.kept_addState s)

theorem aliasWidget (hg : g.Sound) (name : String) (id : WidgetId) :
    (g.aliasWidget name id).Sound :=
  ⟨hg.empty, hg.widgetKey, hg.stateKey, hg.widgetKeys, hg.stateKeys, hg.traceIds, hg.ordered,
    hg.committed⟩

theorem aliasState (hg : g.Sound) (name : String) (id : StateId) :
    (g.aliasState name id).Sound :=
  ⟨hg.empty, hg.widgetKey, hg.stateKey, hg.widgetKeys, hg.stateKeys, hg.traceIds, hg.ordered,
    hg.committed⟩

theorem beginTrace {g' : Graph} {id : TraceId} {h : TraceHandle} (hg : g.Sound)
    (hb : g.beginTrace id = .ok (g', h)) : g'.Sound := by
  have hkept := kept_beginTrace hb
  obtain ⟨hnew, rfl, -⟩ := beginTrace_ok hb
  have hmem : ∀ t ∈ g.traces ++ [Trace.new id], t ∈ g.traces ∨ t = Trace.new id := by
    intro t ht
    simpa using ht
  refine { hg with traceIds := ?_, ordered := ?_, committed := ?_ }
  · rw [List.map_append, List.nodup_append]
    refine ⟨hg.traceIds, by simp, ?_⟩
    intro x hx y hy
    obtain ⟨t, ht, rfl⟩ := List.mem_map.1 hx
    rw [List.mem_singleton.1 hy]
    exact hnew t ht
  · intro t ht
    rcases hmem t ht with ht | rfl
    · exact hg.ordered t ht
    · exact .nil
  · intro t ht a ha
    rcases hmem t ht with ht | rfl
    · exact (hg.committed t ht a ha).mono hkept
    · cases ha

/-- A commit that the checks accept. -/
theorem extendTrace {slot : Nat} {t : Trace} {as : List Action} (hg : g.Sound)
    (ht : g.traces[slot]? = some t) (hfollows : Follows t.lastIndex? as)
    (hadmits : ∀ a ∈ as, g.Admits a) : (g.extendTrace slot as).Sound := by
  have hkept := g.kept_extendTrace slot as
  have htmem := List.mem_of_getElem? ht
  refine { hg with traceIds := ?_, ordered := ?_, committed := ?_ }
  · rw [extendTrace_ids]
    exact hg.traceIds
  · intro t' ht'
    rcases mem_extendTrace ht' with hold | ⟨u, hu, rfl⟩
    · exact hg.ordered t' hold
    · cases ht.symm.trans hu
      exact pairwise_extend (hg.ordered t htmem) hfollows
  · intro t' ht' a ha
    rcases mem_extendTrace ht' with hold | ⟨u, hu, rfl⟩
    · exact (hg.committed t' hold a ha).mono hkept
    · cases ht.symm.trans hu
      rcases List.mem_append.1 ha with ha | ha
      · exact (hg.committed t htmem a ha).mono hkept
      · exact (hadmits a ha).mono hkept

theorem append {g' : Graph} {h : TraceHandle} {a : Action} (hg : g.Sound)
    (happend : g.append h a = .ok g') : g'.Sound := by
  obtain ⟨t, ht, hfollows, hadmits, rfl⟩ := append_ok_iff.1 happend
  refine hg.extendTrace (traceOf?_eq_some_iff.1 ht).1 hfollows fun b hb => ?_
  rw [List.mem_singleton.1 hb]
  exact hadmits

theorem appendAll {g' : Graph} {h : TraceHandle} {as : List Action} (hg : g.Sound)
    (happend : g.appendAll h as = .ok g') : g'.Sound := by
  by_cases hne : as = []
  · subst hne
    cases happend
    exact hg
  · obtain ⟨t, ht, hfollows, hadmits, rfl⟩ := (appendAll_ok_iff hne).1 happend
    exact hg.extendTrace (traceOf?_eq_some_iff.1 ht).1 hfollows hadmits

end Sound

theorem kept_append {g g' : Graph} {h : TraceHandle} {a : Action}
    (happend : g.append h a = .ok g') : g.KeptIn g' := by
  obtain ⟨t, -, -, -, rfl⟩ := append_ok_iff.1 happend
  exact g.kept_extendTrace _ _

theorem kept_appendAll {g g' : Graph} {h : TraceHandle} {as : List Action}
    (happend : g.appendAll h as = .ok g') : g.KeptIn g' := by
  by_cases hne : as = []
  · subst hne
    cases happend
    exact .refl g
  · obtain ⟨t, -, -, -, rfl⟩ := (appendAll_ok_iff hne).1 happend
    exact g.kept_extendTrace _ _

theorem sound_initial : initial.Sound where
  empty := by decide
  widgetKey id w h := by cases h
  stateKey id s h := by
    have hfound : initial.state? id = if id = StateId.empty then some State.empty else none :=
      Registry.find?_register _ _ _ _
    rw [hfound] at h
    split at h
    · rename_i hid
      cases h
      exact hid.symm
    · cases h
  widgetKeys := .nil
  stateKeys := Registry.keys_register_nodup _ _ .nil
  traceIds := .nil
  ordered t ht := by cases ht
  committed t ht := by cases ht

end Graph
end ScreenGraph
