import ScreenGraph.Proofs.Load.Parents

/-!
# ScreenGraph.Proofs.Load.Lookups

What a survey knows, told by the state files that were read so far.

Nothing is assumed of the files. A name is read once, if there is a file to read and the name is not
the id of a state that is there already. The order in which files were read is that of their rows,
and the first row counts: for a stored id, as much as for a widget. The id of a widget counts before
any stored id.

* `filesRead`: the files that are read when some names are looked up.
* `Survey.HasRead`: what a survey knows when some files were read.
* `resolve_hasRead`, `attemptAll_hasRead`: what look-ups keep.
* `HasRead.widgetNamed?`: which widget a name leads to.
-/

namespace ScreenGraph

open Files Graph Identity Record Screen Watch

namespace Load

/-- State files in the order in which they were read, with the names that led to them. -/
abbrev FilesRead := List (String × List Record)

namespace FilesRead

variable (done : FilesRead)

def rows : List Record :=
  done.flatMap (·.2)

/-- Whether there is a state with an id. The empty one is there from the start. -/
def hasState (id : StateId) : Bool :=
  id = StateId.empty || done.any fun file => id = StateId.ofWidgets (file.2.map identify)

/-- Whether a name is known without a file to read. -/
def knows (name : String) : Bool :=
  done.any (·.1 = name) || (Ident.read? name).any done.hasState

end FilesRead

/-- The widget that a name leads to, among rows. An id of a row counts before all stored ids. -/
def ledTo (rows : List Record) (name : String) : Option WidgetId :=
  if name = "" then none
  else ((rows.find? fun r => Ident.read? name = some (identify r)).or
    (rows.find? (storedId · = name))).map identify

section

variable (settings : Settings) (files : Tree)

/-- The files that have been read when one more name was looked up. -/
def readNext (done : FilesRead) (name : String) : FilesRead :=
  if done.knows name then done
  else
    match readAll files (settings.statePath name) settings.widgetLayout settings.separator with
    | .error _ => done
    | .ok rows => done ++ [(name, rows)]

def filesRead (names : List String) : FilesRead :=
  names.foldl (readNext settings files) []

end

/-- What a survey knows when some state files were read. -/
structure Survey.HasRead (done : FilesRead) (s : Survey) : Prop extends s.Sound where
  settled : ∀ file ∈ done, (s.known.find? file.1).isSome = true
  knows : ∀ name S, s.known.find? name = some S → done.knows name = true
  aliased : ∀ name id, s.graph.stateAliases.find? name = some id → ∃ file ∈ done, file.1 = name
  states : ∀ id, (s.graph.state? id).isSome = done.hasState id
  /-- A state shows what the first file with its id has. -/
  shown : ∀ id S, s.graph.state? id = some S →
    ∃ own ∈ [] :: done.map (·.2), ∀ w, w ∈ own.map identify ↔ S.contains w = true
  widgets : ∀ id, (s.graph.widget? id).isSome = done.rows.any (identify · = id)
  stored : ∀ name, s.graph.widgetAlias? name = (done.rows.find? (namedBy name)).map identify

variable {settings : Settings} {files : Tree} {done : FilesRead} {s s' : Survey} {name : String}

namespace FilesRead

theorem rows_append (file : String × List Record) :
    rows (done ++ [file]) = done.rows ++ file.2 := by
  simp [rows]

theorem hasState_append (name : String) (rows : List Record) (id : StateId) :
    hasState (done ++ [(name, rows)]) id =
      (done.hasState id || decide (id = StateId.ofWidgets (rows.map identify))) := by
  simp [hasState, Bool.or_assoc]

theorem knows_append (file : String × List Record) (h : done.knows name = true) :
    knows (done ++ [file]) name = true := by
  rw [knows, Bool.or_eq_true] at h ⊢
  refine h.imp (fun hname => ?_) fun hid => ?_
  · rw [List.any_append, hname, Bool.true_or]
  · obtain ⟨id, hread, hstate⟩ := (Option.any_eq_true _ _).1 hid
    refine (Option.any_eq_true _ _).2 ⟨id, hread, ?_⟩
    obtain ⟨name', rows'⟩ := file
    rw [hasState_append, hstate, Bool.true_or]

theorem knows_self (rows : List Record) : knows (done ++ [(name, rows)]) name = true := by
  simp [knows]

end FilesRead

/-- A name that is the id of no row leads by stored ids. -/
theorem ledTo_stored {rows : List Record} (hnonempty : name ≠ "")
    (h : ∀ r ∈ rows, Ident.read? name ≠ some (identify r)) :
    ledTo rows name = (rows.find? (namedBy name)).map identify := by
  have hown : rows.find? (fun r => Ident.read? name = some (identify r)) = none :=
    List.find?_eq_none.2 fun r hr => by simpa using h r hr
  have hnamed : ∀ r ∈ rows, namedBy name r = decide (storedId r = name) := by
    intro r hr
    have htext : name ≠ (identify r).text := by
      rintro rfl
      exact h r hr (Ident.read?_text _)
    simp [namedBy, hnonempty, htext]
  rw [ledTo, if_neg hnonempty, hown, Option.none_or, ← List.head?_filter, ← List.head?_filter,
    List.filter_congr hnamed]

theorem ledTo_own {rows : List Record} {id : WidgetId} (hnonempty : name ≠ "")
    (hread : Ident.read? name = some id) (h : rows.any (identify · = id) = true) :
    ledTo rows name = some id := by
  have hsame : (fun r => decide (Ident.read? name = some (identify r))) =
      fun r => decide (identify r = id) := by
    funext r
    simp [hread, eq_comm]
  rw [ledTo, if_neg hnonempty, hsame]
  rw [← List.isSome_find?] at h
  obtain ⟨r, hr⟩ := Option.isSome_iff_exists.1 h
  rw [hr, Option.some_or, Option.map_some]
  simpa using List.find?_some hr

/-- The state of a file is found by its id, and any other as before. -/
theorem StateAdded.named_state? {g g₁ g' : Graph} {S : State} {rows : List Record}
    (hadded : StateAdded g rows g₁ S) (hg : g' = g₁ ∨ g' = g₁.aliasState name S.id)
    (id : StateId) : g'.state? id = if id = S.id then some S else g.state? id := by
  rcases hg with rfl | rfl <;> exact hadded.state? id

namespace Survey.HasRead

theorem retraced (hs : s.HasRead done) (hsame : s.Retraced s') (hsound : s'.graph.Sound) :
    s'.HasRead done where
  toSound := hs.toSound.retraced hsame hsound
  settled := by
    rw [hsame.known]
    exact hs.settled
  knows := by
    rw [hsame.known]
    exact hs.knows
  aliased := by
    rw [hsame.stateAliases]
    exact hs.aliased
  states id := by
    rw [hsame.state?]
    exact hs.states id
  shown id S hS := hs.shown id S (hsame.state? id ▸ hS)
  widgets id := by
    rw [hsame.widget?]
    exact hs.widgets id
  stored name := by
    rw [hsame.widgetAlias?]
    exact hs.stored name

theorem new (watchers : List Watcher) : (Session.new watchers).survey.HasRead [] where
  toSound := ofGraph_sound canonical_initial
  settled := nofun
  knows name S h := by
    rcases Registry.find?_register_cases h with hold | ⟨rfl, -⟩
    · cases hold
    · have hread : Ident.read? StateId.empty.text = some StateId.empty := Ident.read?_text _
      simp [FilesRead.knows, FilesRead.hasState, hread]
  aliased name id h := by cases h
  states id := by
    rw [started_graph, initial_state?]
    by_cases hid : id = StateId.empty <;> simp [hid, FilesRead.hasState]
  shown id S hS := by
    rw [started_graph, initial_state?] at hS
    split at hS
    · cases hS
      exact ⟨[], List.mem_cons_self, by simp [State.contains_iff, State.empty]⟩
    · cases hS
  widgets id := by
    rw [started_graph]
    rfl
  stored name := by
    rw [started_graph]
    rfl

variable (hs : s.HasRead done)

include hs

/-- A name that the graph finds needs no file. -/
theorem knows_of_stateNamed? {S : State} (h : s.graph.stateNamed? name = some S) :
    done.knows name = true := by
  rw [FilesRead.knows, Bool.or_eq_true]
  cases halias : s.graph.stateAliases.find? name with
  | some id =>
    obtain ⟨file, hfile, hname⟩ := hs.aliased name id halias
    exact .inl (List.any_eq_true.2 ⟨file, hfile, by simpa using hname⟩)
  | none =>
    obtain ⟨hread, hS⟩ := stateNamed?_of_unaliased hs.canonical.toSound halias h
    refine .inr ((Option.any_eq_true _ _).2 ⟨S.id, hread, ?_⟩)
    rw [← hs.states, hS]
    rfl

/-- A name that nothing is known of. -/
theorem not_knows (hknown : s.known.find? name = none) (h : s.graph.stateNamed? name = none) :
    done.knows name = false := by
  have hnone : done.any (·.1 = name) = false := by
    refine List.any_eq_false.2 fun file hfile hname => ?_
    have hsome := hs.settled file hfile
    rw [of_decide_eq_true hname, hknown] at hsome
    cases hsome
  rw [FilesRead.knows, hnone, Bool.false_or]
  cases hread : (Ident.read? name : Option StateId) with
  | none => rfl
  | some id =>
    rw [Option.any_some, ← hs.states]
    unfold Graph.stateNamed? at h
    rw [hread, Option.bind_some] at h
    cases hid : s.graph.state? id with
    | none => rfl
    | some S =>
      rw [hid] at h
      cases h

/-- A name is settled for which no file has to be read. -/
theorem register {S : State} (hsound : Sound ⟨s.graph, s.known.register name S⟩)
    (hknows : done.knows name = true) : HasRead done ⟨s.graph, s.known.register name S⟩ where
  toSound := hsound
  settled file hfile := by
    obtain ⟨found, hfound⟩ := Option.isSome_iff_exists.1 (hs.settled file hfile)
    rw [Registry.find?_register_of_find? hfound]
    rfl
  knows other found h := by
    rcases Registry.find?_register_cases h with hold | ⟨rfl, -⟩
    · exact hs.knows other found hold
    · exact hknows
  aliased := hs.aliased
  states := hs.states
  shown := hs.shown
  widgets := hs.widgets
  stored := hs.stored

/-- A name is settled by the rows of its file. -/
theorem readFile {g g₁ : Graph} {S : State} {rows : List Record}
    (hsound : Sound ⟨g, s.known.register name S⟩) (hadded : StateAdded s.graph rows g₁ S)
    (hg : g = g₁ ∨ g = g₁.aliasState name S.id) :
    HasRead (done ++ [(name, rows)]) ⟨g, s.known.register name S⟩ where
  toSound := hsound
  settled file hfile := by
    rcases List.mem_append.1 hfile with hold | hnew
    · obtain ⟨found, hfound⟩ := Option.isSome_iff_exists.1 (hs.settled file hold)
      rw [Registry.find?_register_of_find? hfound]
      rfl
    · rw [List.mem_singleton.1 hnew, Registry.find?_register_self]
      rfl
  knows other found h := by
    rcases Registry.find?_register_cases h with hold | ⟨rfl, -⟩
    · exact FilesRead.knows_append _ (hs.knows other found hold)
    · exact FilesRead.knows_self rows
  aliased other id h := by
    have hold : s.graph.stateAliases.find? other = some id ∨ other = name := by
      rcases hg with rfl | rfl
      · exact .inl (hadded.stateAliases ▸ h)
      · rcases Registry.find?_register_cases h with hold | ⟨hname, -⟩
        · exact .inl (hadded.stateAliases ▸ hold)
        · exact .inr hname
    rcases hold with hold | rfl
    · obtain ⟨file, hfile, hname⟩ := hs.aliased other id hold
      exact ⟨file, List.mem_append_left _ hfile, hname⟩
    · exact ⟨(other, rows), List.mem_append_right _ List.mem_cons_self, rfl⟩
  states id := by
    rw [FilesRead.hasState_append, ← hs.states, ← hadded.identity, hadded.named_state? hg]
    by_cases hid : id = S.id <;> simp [hid]
  shown id T hT := by
    have hold : ∀ T', s.graph.state? id = some T' → T' = T →
        ∃ own ∈ [] :: (done ++ [(name, rows)]).map (·.2),
          ∀ w, w ∈ own.map identify ↔ T.contains w = true := by
      rintro T' hT' rfl
      obtain ⟨own, hown, hshown⟩ := hs.shown id T' hT'
      refine ⟨own, ?_, hshown⟩
      rw [List.map_append, ← List.cons_append]
      exact List.mem_append_left _ hown
    rw [hadded.named_state? hg] at hT
    split at hT
    · rename_i hid
      cases hT
      cases hbefore : s.graph.state? S.id with
      | none =>
        refine ⟨rows, ?_, hadded.contains_iff hbefore⟩
        simp
      | some T' =>
        -- a state with this id is there already, and keeps what it shows
        have hsame : T' = S :=
          Option.some.inj ((hadded.kept.state _ _ hbefore).symm.trans hadded.registered)
        exact hold T' (hid ▸ hbefore) hsame
    · exact hold T hT rfl
  widgets id := by
    have hwidget : g.widget? id = (s.graph.widget? id).or
        ((rows.find? (identify · = id)).map (widgetOf (siblingsOf rows))) := by
      rcases hg with rfl | rfl <;> exact hadded.widget? id
    rw [FilesRead.rows_append, List.any_append, ← hs.widgets, hwidget, Option.isSome_or,
      Option.isSome_map, List.isSome_find?]
  stored other := by
    have halias : g.widgetAlias? other = (s.graph.widgetAlias? other).or
        ((rows.find? (namedBy other)).map identify) := by
      rcases hg with rfl | rfl <;> exact hadded.widgetAlias? other
    rw [FilesRead.rows_append, List.find?_append, Option.map_or, ← hs.stored, halias]

/-- A name leads to a widget by the rows of the files that were read. -/
theorem widgetNamed? (raw : String) :
    s.graph.widgetNamed? raw = ledTo done.rows (Text.trim raw) := by
  unfold Graph.widgetNamed?
  dsimp only
  split
  · rename_i hempty
    rw [ledTo, if_pos hempty]
  · rename_i hnonempty
    cases hread : (Ident.read? (Text.trim raw) : Option WidgetId) with
    | none =>
      rw [ledTo_stored hnonempty (by simp [hread])]
      exact hs.stored _
    | some id =>
      dsimp only
      rw [hs.widgets]
      split
      · rename_i hown
        exact (ledTo_own hnonempty hread hown).symm
      · rename_i hnone
        rw [ledTo_stored hnonempty ?_]
        · exact hs.stored _
        · intro r hr hsame
          rw [hread] at hsame
          cases hsame
          exact hnone (List.any_eq_true.2 ⟨r, hr, by simp⟩)

end Survey.HasRead

/-! ## Look-ups -/

/-- A name with a file that can be read is found. -/
theorem resolve_of_readAll {raw : String} {rows : List Record}
    (hrows : readAll files (settings.statePath (Text.trim raw)) settings.widgetLayout
      settings.separator = .ok rows) : ∃ S, (s.resolve settings files raw).2 = .ok S := by
  unfold Survey.resolve Survey.lookUp
  dsimp only
  cases s.known.find? (Text.trim raw) with
  | some S => exact ⟨S, rfl⟩
  | none =>
    cases s.graph.stateNamed? (Text.trim raw) with
    | some S => exact ⟨S, rfl⟩
    | none =>
      simp only [exists_of_readAll hrows, if_true, hrows]
      exact ⟨_, rfl⟩

theorem resolve_hasRead (hs : s.HasRead done) (raw : String) :
    (s.resolve settings files raw).1.HasRead (readNext settings files done (Text.trim raw)) := by
  have hsound := (Survey.resolve_sound settings files raw hs.toSound).1
  unfold readNext
  cases hr : (s.resolve settings files raw).2 with
  | error e =>
    rw [Survey.resolve_error hr]
    split
    · exact hs
    · split
      · exact hs
      · rename_i rows hrows
        obtain ⟨S, hS⟩ := resolve_of_readAll (s := s) hrows
        rw [hr] at hS
        cases hS
  | ok S =>
    have hpair : s.resolve settings files raw = ((s.resolve settings files raw).1, .ok S) :=
      Prod.ext rfl hr
    rcases Survey.resolve_cases hpair with ⟨hsame, hknown⟩ | ⟨g, hunknown, hlook, hsame⟩
    · rw [hsame, if_pos (hs.knows _ _ hknown)]
      exact hs
    · rw [hsame] at hsound ⊢
      rcases Survey.lookUp_cases hs.canonical hlook with ⟨rfl, hnamed⟩ |
        ⟨rows, g₁, hnone, hrows, hadded, hg⟩
      · have hknows := hs.knows_of_stateNamed? hnamed
        rw [if_pos hknows]
        exact hs.register hsound hknows
      · rw [if_neg (by simp [hs.not_knows hunknown hnone]), hrows]
        exact hs.readFile hsound hadded hg

theorem attemptAll_hasRead (settings : Settings) (files : Tree) (hs : s.HasRead done)
    (records : List Record) : (attemptAll settings files s records).1.HasRead
      ((records.map resultName).foldl (readNext settings files) done) := by
  rw [attemptAll_survey]
  induction records generalizing s done with
  | nil => exact hs
  | cons r records ih => exact ih (resolve_hasRead hs _)

end Load
end ScreenGraph
