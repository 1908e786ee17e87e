import ScreenGraph.Proofs.Load.Names
import ScreenGraph.Proofs.Load.Sightings

/-!
# ScreenGraph.Proofs.Load.Told

What a survey knows, told by the names that were looked up so far.

If the trace files and the state files of a directory are in order, each name denotes one state and
each stored id one widget, no matter by which way a look-up comes to it. So all that a survey knows
of names and ids is a matter of which names were looked up, not of when.

* `Orderly`: what has to be in order.
* `Told`: what a survey knows after some names.
* `Told.keep`, `Told.readFile`: a name whose state is there, and one whose file has to be read.
* `Told.resolve`, `Told.attemptAll`: one look-up, and the result states of a trace file.
* `Told.settled?`, `Told.contains_iff`, `Told.widgetNamed?`: what is found then.
-/

namespace ScreenGraph

open Files Graph Identity Record Screen Watch

namespace Load

section

variable (settings : Settings) (files : Tree)

/-- The records that are read of a trace file. -/
def recordsRead (source : Source) : List Record :=
  match openFile files source.path .trace settings.separator with
  | .error _ => []
  | .ok items => (Intake.ofItems settings.malformed items).records

def resultName (r : Record) : String :=
  Text.trim (r.field TraceColumn.result)

def resultNames (source : Source) : List String :=
  (recordsRead settings files source).map resultName

/-- The names of result states in some trace files. -/
def namesRead (sources : List Source) : List String :=
  sources.flatMap (resultNames settings files)

/-- Whether a name is an id of the empty state. -/
def namesEmpty (name : String) : Prop :=
  (Ident.read? name : Option StateId) = some StateId.empty

instance (name : String) : Decidable (namesEmpty name) :=
  inferInstanceAs (Decidable (_ = _))

/-- The rows of the state with a name. The empty state has none, and a file for it is never read. -/
def stateRows (name : String) : List Record :=
  if namesEmpty name then []
  else (readAll files (settings.statePath name) settings.widgetLayout
    settings.separator).toOption.getD []

def rowIds (name : String) : List WidgetId :=
  (stateRows settings files name).map identify

/-- The identity of the state with a name. -/
def identityOf (name : String) : StateId :=
  StateId.ofWidgets (rowIds settings files name)

/-- Trace files and the state files that they name, in good order. -/
structure Orderly (sources : List Source) : Prop where
  /-- A result state is the empty one or has a file that can be read. -/
  readable : ∀ name ∈ namesRead settings files sources, namesEmpty name ∨
    ∃ rows, readAll files (settings.statePath name) settings.widgetLayout settings.separator =
      .ok rows
  /-- A name that is the id of one of the states is the id of its own. -/
  stateName : ∀ name ∈ namesRead settings files sources,
    ∀ other ∈ namesRead settings files sources,
      Ident.read? name = some (identityOf settings files other) →
        identityOf settings files name = identityOf settings files other
  /-- A stored id that is the id of one of the widgets is the id of its own. -/
  widgetName : ∀ name ∈ namesRead settings files sources, ∀ r ∈ stateRows settings files name,
    ∀ other ∈ namesRead settings files sources, ∀ r' ∈ stateRows settings files other,
      Ident.read? (storedId r) = some (identify r') → identify r = identify r'
  /-- A stored id stands for one widget only. -/
  storedOnce : ∀ name ∈ namesRead settings files sources, ∀ r ∈ stateRows settings files name,
    ∀ other ∈ namesRead settings files sources, ∀ r' ∈ stateRows settings files other,
      storedId r ≠ "" → storedId r = storedId r' → identify r = identify r'
  /-- Files with the same widgets have them under the same stored ids. -/
  samePairs : ∀ name ∈ namesRead settings files sources,
    ∀ other ∈ namesRead settings files sources,
      (∀ w, w ∈ rowIds settings files name ↔ w ∈ rowIds settings files other) →
        ∀ r ∈ stateRows settings files name, ∃ r' ∈ stateRows settings files other,
          storedId r' = storedId r ∧ identify r' = identify r
  /-- A source state is the empty one or a result state of the same trace file. -/
  sourceName : ∀ source ∈ sources, ∀ r ∈ recordsRead settings files source,
    namesEmpty (Text.trim (r.field TraceColumn.source)) ∨
      Text.trim (r.field TraceColumn.source) ∈ resultNames settings files source
  /-- A target is a widget of a result state of the same trace file, under its stored id or its
  own. -/
  targetName : ∀ source ∈ sources, ∀ r ∈ recordsRead settings files source, rawTarget r ≠ "" →
    ∃ name ∈ resultNames settings files source, ∃ row ∈ stateRows settings files name,
      storedId row = rawTarget r ∨ Ident.read? (rawTarget r) = some (identify row)
  /-- No two sets of widgets have one fingerprint. -/
  distinguished :
    Distinguished ([] :: (namesRead settings files sources).map (rowIds settings files))

/-- The names in a list are settled, and besides them at most names of the empty state. -/
structure Settles (sources : List Source) (told : List String) (known : Registry String State) :
    Prop where
  read : ∀ name ∈ told, name ∈ namesRead settings files sources
  settled : ∀ name ∈ told, (known.find? name).isSome = true
  identity : ∀ name S, known.find? name = some S →
    S.id = identityOf settings files name ∧ (name ∈ told ∨ namesEmpty name)

/-- The result state of a record was looked up without an error. -/
def Met (r : Record) (attempt : Attempt) : Prop :=
  attempt.record = r ∧ ∃ S, attempt.result = .ok S ∧ S.id = identityOf settings files (resultName r)

/-- What a survey knows when the names in a list have been looked up. -/
structure Told (sources : List Source) (told : List String) (s : Survey) : Prop
    extends s.Recorded ([] :: (namesRead settings files sources).map (rowIds settings files)) where
  names : Settles settings files sources told s.known
  named : ∀ name ∈ told,
    (s.graph.stateNamed? name).map (·.id) = some (identityOf settings files name)
  aliased : ∀ name id, s.graph.stateAliases.find? name = some id → name ∈ told
  states : ∀ id S, s.graph.state? id = some S →
    id = StateId.empty ∨ ∃ name ∈ told, id = identityOf settings files name
  widgets : ∀ w, (s.graph.widget? w).isSome = true ↔
    ∃ name ∈ told, w ∈ rowIds settings files name
  stored : ∀ name w, s.graph.widgetAlias? name = some w →
    ∃ other ∈ told, ∃ r ∈ stateRows settings files other, namedBy name r = true ∧ identify r = w
  storedAll : ∀ name ∈ told, ∀ r ∈ stateRows settings files name,
    ∀ stored, namedBy stored r = true → (s.graph.widgetAlias? stored).isSome = true

end

variable {settings : Settings} {files : Tree} {sources : List Source} {told : List String}
  {s : Survey} {name : String} {S : State}

theorem stateRows_of_empty (h : namesEmpty name) : stateRows settings files name = [] :=
  if_pos h

theorem identityOf_of_empty (h : namesEmpty name) :
    identityOf settings files name = StateId.empty := by
  rw [identityOf, rowIds, stateRows_of_empty h]
  exact StateId.ofWidgets_nil

theorem stateRows_of_readAll {rows : List Record} (h : ¬ namesEmpty name)
    (hrows : readAll files (settings.statePath name) settings.widgetLayout settings.separator =
      .ok rows) : stateRows settings files name = rows := by
  rw [stateRows, if_neg h, hrows]
  rfl

theorem exists_of_readAll {path : Path} {layout : Layout} {sep : Char} {rows : List Record}
    (h : readAll files path layout sep = .ok rows) : files.exists? path = true := by
  unfold readAll openFile at h
  unfold Tree.exists?
  cases hfind : files.find path with
  | error e =>
    rw [hfind] at h
    cases h
  | ok node => rfl

namespace Orderly

variable (ho : Orderly settings files sources)

include ho

/-- States with one identity have the same widgets. -/
theorem sameIds {other : String} (hname : name ∈ namesRead settings files sources)
    (hother : other ∈ namesRead settings files sources)
    (h : identityOf settings files name = identityOf settings files other) (w : WidgetId) :
    w ∈ rowIds settings files name ↔ w ∈ rowIds settings files other := by
  have hmem := List.mem_cons_of_mem [] (List.mem_map_of_mem (f := rowIds settings files) hname)
  have hmem' := List.mem_cons_of_mem [] (List.mem_map_of_mem (f := rowIds settings files) hother)
  exact ⟨fun hw => ho.distinguished _ hmem _ hmem' h hw,
    fun hw => ho.distinguished _ hmem' _ hmem h.symm hw⟩

/-- A state without widgets is the empty one. -/
theorem stateRows_eq_nil (hname : name ∈ namesRead settings files sources)
    (h : identityOf settings files name = StateId.empty) : stateRows settings files name = [] := by
  have hmem := List.mem_cons_of_mem [] (List.mem_map_of_mem (f := rowIds settings files) hname)
  have hsame : StateId.ofWidgets (rowIds settings files name) = StateId.ofWidgets [] := by
    rw [StateId.ofWidgets_nil]
    exact h
  have hnone : rowIds settings files name = [] :=
    List.subset_nil.1 (ho.distinguished _ hmem [] List.mem_cons_self hsame)
  rw [rowIds, List.map_eq_nil_iff] at hnone
  exact hnone

end Orderly

theorem namedBy_congr {r r' : Record} (hstored : storedId r' = storedId r)
    (hid : identify r' = identify r) (stored : String) : namedBy stored r' = namedBy stored r := by
  simp only [namedBy, hstored, hid]

theorem Settles.register {known : Registry String State}
    (h : Settles settings files sources told known)
    (hname : name ∈ namesRead settings files sources)
    (hid : S.id = identityOf settings files name) :
    Settles settings files sources (name :: told) (known.register name S) where
  read := by
    intro other hother
    rcases List.mem_cons.1 hother with rfl | hother
    · exact hname
    · exact h.read other hother
  settled := by
    intro other hother
    rcases List.mem_cons.1 hother with rfl | hother
    · rw [Registry.find?_register_self]
      rfl
    · obtain ⟨found, hfound⟩ := Option.isSome_iff_exists.1 (h.settled other hother)
      rw [Registry.find?_register_of_find? hfound]
      rfl
  identity := by
    intro other found hfound
    rcases Registry.find?_register_cases hfound with hold | ⟨rfl, rfl⟩
    · obtain ⟨hsame, hmem⟩ := h.identity other found hold
      exact ⟨hsame, hmem.imp_left (List.mem_cons_of_mem _)⟩
    · exact ⟨hid, .inl List.mem_cons_self⟩

namespace Told

section

variable (hs : Told settings files sources told s)

include hs

theorem unaliased (hunknown : s.known.find? name = none) :
    s.graph.stateAliases.find? name = none := by
  cases halias : s.graph.stateAliases.find? name with
  | none => rfl
  | some id =>
    have hsome := hs.names.settled name (hs.aliased name id halias)
    rw [hunknown] at hsome
    cases hsome

/-- The empty state needs no file. -/
theorem not_namesEmpty (hnone : s.graph.stateNamed? name = none) : ¬ namesEmpty name := by
  intro hempty
  have hnamed : s.graph.stateNamed? name = some State.empty :=
    Survey.stateNamed?_own hempty hs.canonical.empty
  rw [hnone] at hnamed
  cases hnamed

end

variable (ho : Orderly settings files sources) (hs : Told settings files sources told s)

include ho hs

/-- If the state of a name is registered, then its rows are known from a name that was told. -/
theorem covered (hname : name ∈ namesRead settings files sources)
    (hstate : s.graph.state? S.id = some S) (hid : S.id = identityOf settings files name) :
    ∀ r ∈ stateRows settings files name, ∃ other ∈ told, ∃ r' ∈ stateRows settings files other,
      storedId r' = storedId r ∧ identify r' = identify r := by
  intro r hr
  rcases hs.states _ _ hstate with hempty | ⟨other, hother, hsame⟩
  · rw [ho.stateRows_eq_nil hname (hid.symm.trans hempty)] at hr
    cases hr
  · have hread := hs.names.read other hother
    exact ⟨other, hother, ho.samePairs name hname other hread
      (ho.sameIds hname hread (hid.symm.trans hsame)) r hr⟩

/-- A name whose state is registered brings nothing new. -/
theorem keep (hname : name ∈ namesRead settings files sources)
    (hnamed : s.graph.stateNamed? name = some S) (hid : S.id = identityOf settings files name) :
    Told settings files sources (name :: told) ⟨s.graph, s.known.register name S⟩ := by
  have hstate := stateNamed?_registered hs.canonical.toSound hnamed
  have hcovered := hs.covered ho hname hstate hid
  exact {
    canonical := hs.canonical
    known := by
      intro other found hfound
      rcases Registry.find?_register_cases hfound with hold | ⟨-, rfl⟩
      · exact hs.known other found hold
      · exact hstate
    recorded := hs.recorded
    names := hs.names.register hname hid
    named := by
      intro other hother
      rcases List.mem_cons.1 hother with rfl | hother
      · rw [hnamed, ← hid]
        rfl
      · exact hs.named other hother
    aliased := fun other id halias => List.mem_cons_of_mem _ (hs.aliased other id halias)
    states := by
      intro id found hfound
      refine (hs.states id found hfound).imp_right ?_
      rintro ⟨other, hother, rfl⟩
      exact ⟨other, List.mem_cons_of_mem _ hother, rfl⟩
    widgets := by
      intro w
      rw [hs.widgets]
      constructor
      · rintro ⟨other, hother, hw⟩
        exact ⟨other, List.mem_cons_of_mem _ hother, hw⟩
      · rintro ⟨other, hother, hw⟩
        rcases List.mem_cons.1 hother with rfl | hother
        · obtain ⟨r, hr, rfl⟩ := List.mem_map.1 hw
          obtain ⟨first, hfirst, r', hr', -, hsame⟩ := hcovered r hr
          exact ⟨first, hfirst, hsame ▸ List.mem_map_of_mem hr'⟩
        · exact ⟨other, hother, hw⟩
    stored := by
      intro stored w halias
      obtain ⟨other, hother, hrow⟩ := hs.stored stored w halias
      exact ⟨other, List.mem_cons_of_mem _ hother, hrow⟩
    storedAll := by
      intro other hother r hr stored hstored
      rcases List.mem_cons.1 hother with rfl | hother
      · obtain ⟨first, hfirst, r', hr', hsame, hsame'⟩ := hcovered r hr
        exact hs.storedAll first hfirst r' hr' stored
          (namedBy_congr hsame hsame' stored ▸ hstored)
      · exact hs.storedAll other hother r hr stored hstored }

/-- A name that was told keeps its identity when a state comes to a graph. -/
theorem named_mono {g : Graph} (hkept : s.graph.KeptIn g)
    (hname : name ∈ namesRead settings files sources)
    (hid : S.id = identityOf settings files name)
    (hstate : ∀ id, g.state? id = if id = S.id then some S else s.graph.state? id) :
    ∀ other ∈ told,
      (g.stateNamed? other).map (·.id) = some (identityOf settings files other) := by
  intro other hother
  have hold := hs.named other hother
  obtain ⟨found, hfound, hsame⟩ := Option.map_eq_some_iff.1 hold
  rcases Survey.stateNamed?_kept hkept hfound with hsame' | ⟨id, new, hread, hnone, hnew, hnamed⟩
  · rw [hsame', ← hfound]
    exact hold
  · -- the name is the id of the new state
    rw [hstate, hnone] at hnew
    split at hnew
    · rename_i hself
      cases hnew
      rw [hself, hid] at hread
      rw [hnamed, Option.map_some, hid,
        ho.stateName other (hs.names.read other hother) name hname hread]
    · cases hnew

/-- A name whose file is read brings the rows of the file. -/
theorem readFile {g g₁ : Graph} {rows : List Record}
    (hname : name ∈ namesRead settings files sources)
    (hunknown : s.known.find? name = none) (hnone : s.graph.stateNamed? name = none)
    (hlook : Survey.lookUp settings files s.graph name = .ok (g, S))
    (hrows : readAll files (settings.statePath name) settings.widgetLayout settings.separator =
      .ok rows) (hadded : StateAdded s.graph rows g₁ S)
    (hg : g = g₁ ∨ g = g₁.aliasState name S.id)
    (hrecorded : Survey.Recorded ([] :: (namesRead settings files sources).map
      (rowIds settings files)) ⟨g, s.known.register name S⟩) :
    S.id = identityOf settings files name ∧
      Told settings files sources (name :: told) ⟨g, s.known.register name S⟩ := by
  have hown : stateRows settings files name = rows :=
    stateRows_of_readAll (hs.not_namesEmpty hnone) hrows
  have hid : S.id = identityOf settings files name := by
    rw [hadded.identity, identityOf, rowIds, hown]
  have hstate : ∀ id, g.state? id = if id = S.id then some S else s.graph.state? id := by
    intro id
    rw [← hadded.state?]
    rcases hg with rfl | rfl <;> rfl
  have hwidget : ∀ id, g.widget? id = (s.graph.widget? id).or
      ((rows.find? (identify · = id)).map (widgetOf (siblingsOf rows))) := by
    intro id
    rw [← hadded.widget?]
    rcases hg with rfl | rfl <;> rfl
  have hstored : ∀ stored, g.widgetAlias? stored =
      (s.graph.widgetAlias? stored).or ((rows.find? (namedBy stored)).map identify) := by
    intro stored
    rw [← hadded.widgetAlias?]
    rcases hg with rfl | rfl <;> rfl
  obtain ⟨-, hkept, -, -⟩ := Survey.lookUp_spec hs.canonical hlook
  refine ⟨hid, ?_⟩
  exact {
    toRecorded := hrecorded
    names := hs.names.register hname hid
    named := by
      intro other hother
      rcases List.mem_cons.1 hother with rfl | hother
      · rw [Survey.lookUp_named hs.canonical (hs.unaliased hunknown) hlook, Option.map_some, hid]
      · exact hs.named_mono ho hkept hname hid hstate other hother
    aliased := by
      intro other id halias
      rcases hg with rfl | rfl
      · rw [hadded.stateAliases] at halias
        exact List.mem_cons_of_mem _ (hs.aliased other id halias)
      · rcases Registry.find?_register_cases halias with hold | ⟨rfl, -⟩
        · rw [hadded.stateAliases] at hold
          exact List.mem_cons_of_mem _ (hs.aliased other id hold)
        · exact List.mem_cons_self
    states := by
      intro id found hfound
      dsimp only at hfound
      rw [hstate] at hfound
      split at hfound
      · rename_i hself
        exact .inr ⟨name, List.mem_cons_self, hself.trans hid⟩
      · refine (hs.states id found hfound).imp_right ?_
        rintro ⟨other, hother, rfl⟩
        exact ⟨other, List.mem_cons_of_mem _ hother, rfl⟩
    widgets := by
      intro w
      have hnew : ((rows.find? (identify · = w)).map (widgetOf (siblingsOf rows))).isSome = true ↔
          w ∈ rowIds settings files name := by
        simp [rowIds, hown, List.find?_isSome, List.mem_map]
      simp only [hwidget, Option.isSome_or, Bool.or_eq_true, hs.widgets, hnew, List.mem_cons,
        exists_eq_or_imp]
      exact or_comm
    stored := by
      intro stored w halias
      dsimp only at halias
      rw [hstored] at halias
      rcases Option.or_eq_some_iff.1 halias with hold | ⟨-, hnew⟩
      · obtain ⟨other, hother, hrow⟩ := hs.stored stored w hold
        exact ⟨other, List.mem_cons_of_mem _ hother, hrow⟩
      · obtain ⟨r, hr, rfl⟩ := Option.map_eq_some_iff.1 hnew
        refine ⟨name, List.mem_cons_self, r, ?_, List.find?_some hr, rfl⟩
        rw [hown]
        exact List.mem_of_find?_eq_some hr
    storedAll := by
      intro other hother r hr stored hnamed
      dsimp only
      rw [hstored, Option.isSome_or, Bool.or_eq_true]
      rcases List.mem_cons.1 hother with rfl | hother
      · refine .inr ?_
        rw [hown] at hr
        rw [Option.isSome_map, List.find?_isSome]
        exact ⟨r, hr, hnamed⟩
      · exact .inl (hs.storedAll other hother r hr stored hnamed) }

/-- A name that is in the graph already denotes the state that it is to denote. -/
theorem identity_of_named (hname : name ∈ namesRead settings files sources)
    (hunknown : s.known.find? name = none) (hnamed : s.graph.stateNamed? name = some S) :
    S.id = identityOf settings files name := by
  obtain ⟨hread, hstate⟩ := Survey.stateNamed?_of_unaliased hs.canonical.toSound
    (hs.unaliased hunknown) hnamed
  rcases hs.states _ _ hstate with hempty | ⟨other, hother, hid⟩
  · rw [hempty] at hread ⊢
    exact (identityOf_of_empty hread).symm
  · rw [hid] at hread ⊢
    exact (ho.stateName name hname other (hs.names.read other hother) hread).symm

omit ho in
theorem named_of_known (hknown : s.known.find? name = some S) :
    s.graph.stateNamed? name = some S := by
  have hstate := hs.known name S hknown
  obtain ⟨hid, hmem | hempty⟩ := hs.names.identity name S hknown
  · obtain ⟨found, hfound, hsame⟩ := Option.map_eq_some_iff.1 (hs.named name hmem)
    have hregistered := stateNamed?_registered hs.canonical.toSound hfound
    rw [hsame, ← hid, hstate] at hregistered
    cases hregistered
    exact hfound
  · refine Survey.stateNamed?_own ?_ hstate
    rw [hid, identityOf_of_empty hempty]
    exact hempty

/-- Each name of a result state can be looked up. -/
theorem lookUp_ok (hname : name ∈ namesRead settings files sources) :
    ∃ g S, Survey.lookUp settings files s.graph name = .ok (g, S) := by
  unfold Survey.lookUp
  cases hnamed : s.graph.stateNamed? name with
  | some S => exact ⟨_, S, rfl⟩
  | none =>
    obtain ⟨rows, hrows⟩ := (ho.readable name hname).resolve_left (hs.not_namesEmpty hnamed)
    have hexists := exists_of_readAll hrows
    simp only [hexists, if_true, hrows]
    exact ⟨_, _, rfl⟩

theorem resolve {raw : String} (hname : Text.trim raw ∈ namesRead settings files sources) :
    ∃ s' S, s.resolve settings files raw = (s', .ok S) ∧
      S.id = identityOf settings files (Text.trim raw) ∧
      Told settings files sources (Text.trim raw :: told) s' := by
  cases hknown : s.known.find? (Text.trim raw) with
  | some S =>
    have hresolve : s.resolve settings files raw = (s, .ok S) := by
      simp only [Survey.resolve, hknown]
    have hid := (hs.names.identity _ _ hknown).1
    have hkeep := hs.keep ho hname (hs.named_of_known hknown) hid
    have hregister : s.known.register (Text.trim raw) S = s.known := by
      simp only [Registry.register, hknown]
    rw [hregister] at hkeep
    exact ⟨s, S, hresolve, hid, hkeep⟩
  | none =>
    obtain ⟨g, S, hlook⟩ := hs.lookUp_ok ho hname
    have hresolve : s.resolve settings files raw =
        (⟨g, s.known.register (Text.trim raw) S⟩, .ok S) := by
      simp only [Survey.resolve, hknown, hlook]
    refine ⟨_, S, hresolve, ?_⟩
    rcases Survey.lookUp_cases hs.canonical hlook with ⟨rfl, hnamed⟩ |
      ⟨rows, g₁, hnone, hrows, hadded, hg⟩
    · have hid := hs.identity_of_named ho hname hknown hnamed
      exact ⟨hid, hs.keep ho hname hnamed hid⟩
    · have hsets : ∀ rows, readAll files (settings.statePath (Text.trim raw))
          settings.widgetLayout settings.separator = .ok rows → rows.map identify ∈
            [] :: (namesRead settings files sources).map (rowIds settings files) := by
        intro rows hrows
        refine List.mem_cons_of_mem _ (List.mem_map.2 ⟨_, hname, ?_⟩)
        rw [rowIds, stateRows_of_readAll (hs.not_namesEmpty hnone) hrows]
      obtain ⟨hrecorded, -⟩ :=
        resolve_introduced hs.toRecorded ho.distinguished hsets hresolve
      exact hs.readFile ho hname hknown hnone hlook hrows hadded hg hrecorded

/-- The result states of records, one after another. -/
theorem attemptAll {records : List Record}
    (hnames : ∀ r ∈ records, resultName r ∈ namesRead settings files sources) :
    let after := Load.attemptAll settings files s records
    Told settings files sources ((records.map resultName).reverse ++ told) after.1 ∧
      List.Forall₂ (Met settings files) records after.2 := by
  induction records generalizing s told with
  | nil => exact ⟨hs, .nil⟩
  | cons r records ih =>
    obtain ⟨s', S, hresolve, hid, htold⟩ := hs.resolve ho (hnames r List.mem_cons_self)
    obtain ⟨hafter, hall⟩ := ih htold fun r' hr' => hnames r' (List.mem_cons_of_mem _ hr')
    rw [attemptAll_cons, hresolve]
    dsimp only
    refine ⟨?_, .cons ⟨rfl, S, rfl, hid⟩ hall⟩
    rw [List.map_cons, List.reverse_cons, List.append_assoc]
    exact hafter

/-! ## What is found -/

omit ho in
/-- A name that was told, or one of the empty state, is settled. -/
theorem settled? {raw : String} (h : Text.trim raw ∈ told ∨ namesEmpty (Text.trim raw)) :
    ∃ S, s.settled? raw = some S ∧ S.id = identityOf settings files (Text.trim raw) ∧
      s.graph.state? S.id = some S := by
  cases hknown : s.known.find? (Text.trim raw) with
  | some S =>
    exact ⟨S, Survey.settled?_of_known hknown, (hs.names.identity _ _ hknown).1,
      hs.known _ _ hknown⟩
  | none =>
    rcases h with hmem | hempty
    · have hsome := hs.names.settled _ hmem
      rw [hknown] at hsome
      cases hsome
    · refine ⟨State.empty, ?_, (identityOf_of_empty hempty).symm, hs.canonical.empty⟩
      rw [Survey.settled?_of_unknown hknown]
      exact Survey.stateNamed?_own hempty hs.canonical.empty

/-- A state shows the widgets of the rows of its name. -/
theorem contains_iff (hname : name ∈ namesRead settings files sources ∨ namesEmpty name)
    (hstate : s.graph.state? S.id = some S) (hid : S.id = identityOf settings files name)
    (w : WidgetId) : S.contains w = true ↔ w ∈ rowIds settings files name := by
  obtain ⟨as, has, hmem⟩ := hs.recorded _ _ hstate
  have hrows : rowIds settings files name ∈
      [] :: (namesRead settings files sources).map (rowIds settings files) := by
    rcases hname with hname | hempty
    · exact List.mem_cons_of_mem _ (List.mem_map_of_mem hname)
    · rw [rowIds, stateRows_of_empty hempty]
      exact List.mem_cons_self
  have hsame : StateId.ofWidgets as = StateId.ofWidgets (rowIds settings files name) := by
    rw [← identityOf, ← hid, hs.canonical.state_id hstate]
    refine StateId.ofWidgets_congr ?_
    intro v
    rw [hmem, State.contains_iff, List.mem_map]
  rw [← hmem]
  exact ⟨fun hw => ho.distinguished _ has _ hrows hsame hw,
    fun hw => ho.distinguished _ hrows _ has hsame.symm hw⟩

/-- A stored id that is no id of another widget is found as an alias. -/
theorem widgetAlias? {stored : String} {r : Record} (hname : name ∈ told)
    (hr : r ∈ stateRows settings files name) (hnamed : namedBy stored r = true) :
    s.graph.widgetAlias? stored = some (identify r) := by
  obtain ⟨w, hw⟩ := Option.isSome_iff_exists.1 (hs.storedAll name hname r hr stored hnamed)
  obtain ⟨other, hother, r', hr', hnamed', rfl⟩ := hs.stored stored w hw
  obtain ⟨hstored, hnonempty, -⟩ := of_decide_eq_true hnamed
  obtain ⟨hstored', -, -⟩ := of_decide_eq_true hnamed'
  rw [hw, ho.storedOnce name (hs.names.read name hname) r hr other (hs.names.read other hother)
    r' hr' (hstored ▸ hnonempty) (hstored.trans hstored'.symm)]

/-- A recorded widget is found by its stored id and by its own. -/
theorem widgetNamed? {target : String} {row : Record} (htrim : Text.trim target = target)
    (hnonempty : target ≠ "") (hname : name ∈ told) (hrow : row ∈ stateRows settings files name)
    (h : storedId row = target ∨ Ident.read? target = some (identify row)) :
    s.graph.widgetNamed? target = some (identify row) := by
  have hregistered : (s.graph.widget? (identify row)).isSome = true :=
    (hs.widgets _).2 ⟨name, hname, List.mem_map_of_mem hrow⟩
  have halias : (Ident.read? target : Option WidgetId) ≠ some (identify row) →
      s.graph.widgetAlias? target = some (identify row) := by
    intro hread
    have hstored := h.resolve_right hread
    refine hs.widgetAlias? ho hname hrow (decide_eq_true ⟨hstored, hnonempty, ?_⟩)
    intro htext
    exact hread (htext ▸ Ident.read?_text _)
  unfold Graph.widgetNamed?
  rw [htrim, if_neg hnonempty]
  by_cases hown : (Ident.read? target : Option WidgetId) = some (identify row)
  · simp only [hown, hregistered, if_true]
  · cases hread : (Ident.read? target : Option WidgetId) with
    | none => exact halias hown
    | some w =>
      dsimp only
      split
      · rename_i hw
        obtain ⟨other, hother, hmem⟩ := (hs.widgets w).1 hw
        obtain ⟨r', hr', rfl⟩ := List.mem_map.1 hmem
        have hstored := h.resolve_right hown
        rw [ho.widgetName name (hs.names.read name hname) row hrow other
          (hs.names.read other hother) r' hr' (hstored ▸ hread)]
      · exact halias hown

end Told
end Load
end ScreenGraph
