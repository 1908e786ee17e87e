import ScreenGraph.Proofs.Export.Rows
import ScreenGraph.Proofs.Load.Commits

/-!
# ScreenGraph.Proofs.Export.Legible

Whatever was loaded can be written.

The texts of a graph come from the fields of records, and a field that was read fits into a field
again. Only the last column of a layout may hold the separator, and no text comes from there.

* `widgetOf_legible`, `resolve_legible`: single records.
* `consider_legible`: the records of a trace file.
* `processTrace_legible`: a whole trace file.
-/

namespace ScreenGraph

open Files Graph Identity Record Screen Text

/-- Every widget and every committed action can be written. -/
structure Graph.Legible (sep : Char) (g : Graph) : Prop where
  widget : ∀ id w, g.widget? id = some w → w.Legible sep
  action : ∀ t ∈ g.traces, ∀ a ∈ t.actions, a.Legible sep

theorem Graph.legible_initial (sep : Char) : Graph.initial.Legible sep where
  widget id w h := by cases h
  action t h := by cases h

/-! ## Kinds of actions -/

namespace Graph.ActionKind

theorem mem_of_lookup {α β : Type} [DecidableEq α] {entries : List (α × β)} {a : α} {b : β}
    (h : entries.lookup a = some b) : (a, b) ∈ entries := by
  obtain ⟨front, back, rfl, -⟩ := List.lookup_eq_some_iff.1 h
  simp

/-- A kind is what it is called, or one of its own. -/
theorem read_cases (raw : String) :
    (trim raw, read raw) ∈ named ∨
      named.lookup (trim raw) = none ∧ read raw = other (trim raw) := by
  have hread : read raw = (named.lookup (trim raw)).getD (other (trim raw)) := rfl
  rw [hread]
  cases hfound : named.lookup (trim raw) with
  | some kind => exact .inl (mem_of_lookup hfound)
  | none => exact .inr ⟨rfl, rfl⟩

theorem read_text (raw : String) : read (read raw).text = read raw := by
  rcases read_cases raw with hnamed | ⟨hnone, hother⟩
  · exact read_text_of_named hnamed
  · have hread : read (trim raw) = other (trim raw) := by
      simp only [read, trim_trim, hnone, Option.getD_none]
    rw [hother, text, hread]

theorem named_plain {name : String} {kind : ActionKind} (h : (name, kind) ∈ named) :
    ∀ c ∈ kind.text.toList, isPlain c = true := by
  have hall : named.all (fun entry => entry.2.text.toList.all isPlain) = true := by
    decide +kernel
  exact plain_of_all (List.all_eq_true.1 hall (name, kind) h)

theorem fits_text {sep : Char} {raw : String} (hsep : Separates sep) (h : Fits sep raw) :
    Fits sep (read raw).text := by
  rcases read_cases raw with hnamed | ⟨-, hother⟩
  · exact fits_plain hsep.plain (named_plain hnamed)
  · rw [hother]
    exact trim_fits h

end Graph.ActionKind

namespace Load

variable {settings : Settings} {files : Tree}

/-! ## Single records -/

theorem widgetLayout_fieldCount (settings : Settings) : settings.widgetLayout.fieldCount = 12 := by
  unfold Settings.widgetLayout
  split <;> rfl

theorem widgetOf_legible {sep : Char} {r : Record} (siblings : Siblings)
    (h : Record.Legible settings.widgetLayout sep r) : (widgetOf siblings r).Legible sep := by
  have hfits : ∀ column, column < 11 → Fits sep (r.field column) := by
    intro column hcolumn
    exact h column (by rw [widgetLayout_fieldCount]; omega)
  exact ⟨hfits _ (by decide), hfits _ (by decide), hfits _ (by decide), hfits _ (by decide),
    hfits _ (by decide)⟩

theorem resolve_legible {sep : Char} {s : Survey} {index : Nat} {r : Record} {result : State}
    {resolution : Resolution} (hsep : Separates sep) (hr : Record.Legible .trace sep r)
    (h : resolve s index r result = .ok resolution) : resolution.action.Legible sep := by
  have hfits : ∀ column, column < 9 → Fits sep (r.field column) := by
    intro column hcolumn
    exact hr column (by show column + 1 < 10; omega)
  have hglobal := resolve_global h
  unfold resolve at h
  dsimp only at h
  split at h
  · cases h
  · rename_i source hsettled
    cases h
    refine ⟨?_, ?_, hglobal, ?_, ?_⟩
    · dsimp only
      exact ActionKind.fits_text hsep (hfits _ (by decide))
    · dsimp only
      exact ActionKind.read_text _
    · dsimp only
      rw [repair_kept _ _ _ _ (by decide)]
      exact hfits _ (by decide)
    · dsimp only
      rw [repair_kept _ _ _ _ (by decide)]
      exact hfits _ (by decide)

/-! ## State files -/

theorem StateAdded.legible {sep : Char} {g g' : Graph} {rows : List Record} {state : State}
    (h : StateAdded g rows g' state) (hg : g.Legible sep)
    (hrows : ∀ r ∈ rows, Record.Legible settings.widgetLayout sep r) : g'.Legible sep where
  widget id w hw := by
    rw [h.widget?] at hw
    rcases Option.or_eq_some_iff.1 hw with hold | ⟨-, hnew⟩
    · exact hg.widget id w hold
    · obtain ⟨r, hr, rfl⟩ := Option.map_eq_some_iff.1 hnew
      exact widgetOf_legible _ (hrows r (List.mem_of_find?_eq_some hr))
  action := by
    rw [h.traces]
    exact hg.action

theorem resolve_legible_of_ok {s s' : Survey} {raw : String} {state : State} (hs : s.Sound)
    (hg : s.graph.Legible settings.separator)
    (h : s.resolve settings files raw = (s', .ok state)) :
    s'.graph.Legible settings.separator := by
  rcases Survey.resolve_cases h with ⟨rfl, -⟩ | ⟨g', -, hlook, rfl⟩
  · exact hg
  · rcases Survey.lookUp_cases hs.canonical hlook with ⟨rfl, -⟩ |
      ⟨rows, g₁, -, hread, hadded, rfl | rfl⟩
    · exact hg
    · exact hadded.legible hg fun r hr => readAll_legible hread hr
    · have hlegible := hadded.legible hg fun r hr => readAll_legible hread hr
      exact ⟨hlegible.widget, hlegible.action⟩

theorem survey_legible {s : Survey} (raw : String) (hs : s.Sound)
    (hg : s.graph.Legible settings.separator) :
    (s.resolve settings files raw).1.graph.Legible settings.separator := by
  cases hr : s.resolve settings files raw with
  | mk s' result =>
    cases result with
    | error e =>
      have hsame := Survey.resolve_error (congrArg Prod.snd hr)
      rw [hr] at hsame
      rw [hsame]
      exact hg
    | ok state => exact resolve_legible_of_ok hs hg hr

theorem attemptAll_legible {s : Survey} (rs : List Record) (hs : s.Sound)
    (hg : s.graph.Legible settings.separator) :
    (attemptAll settings files s rs).1.graph.Legible settings.separator := by
  induction rs generalizing s with
  | nil => exact hg
  | cons r rs ih =>
    rw [attemptAll_cons]
    exact ih (Survey.resolve_sound settings files _ hs).1 (survey_legible _ hs hg)

/-! ## Trace files -/

theorem outcomesFrom_legible {sep : Char} {s : Survey} (index : Nat) {attempts : List Attempt}
    (hsep : Separates sep)
    (hrecords : ∀ attempt ∈ attempts, Record.Legible .trace sep attempt.record) :
    ∀ a ∈ actionsOf (outcomesFrom s index attempts).1, a.Legible sep := by
  induction attempts generalizing index with
  | nil => simp [outcomesFrom, actionsOf]
  | cons attempt attempts ih =>
    obtain ⟨r, result⟩ := attempt
    cases result with
    | error e => simp [outcomesFrom, actionsOf]
    | ok result =>
      have hrest := ih (index + 1)
        fun attempt hmem => hrecords attempt (List.mem_cons_of_mem _ hmem)
      rw [outcomesFrom_ok]
      intro a ha
      simp only [actionsOf, List.mem_filterMap] at ha hrest
      obtain ⟨outcome, houtcome, haction⟩ := ha
      rcases List.mem_cons.1 houtcome with rfl | houtcome
      · unfold outcomeOf at haction
        cases hresolve : resolve s index r result with
        | error e => rw [hresolve] at haction; cases haction
        | ok resolution =>
          rw [hresolve] at haction
          cases haction
          exact resolve_legible hsep (hrecords _ List.mem_cons_self) hresolve
      · exact hrest a ⟨outcome, houtcome, haction⟩

theorem consider_legible (files : Tree) {s : Survey} {rs : List Record}
    (hsep : Separates settings.separator) (hs : s.Sound) (hg : s.graph.Legible settings.separator)
    (hrs : ∀ r ∈ rs, Record.Legible .trace settings.separator r) :
    let c := consider settings files s rs
    c.survey.graph.Legible settings.separator ∧
      ∀ a ∈ c.actions, a.Legible settings.separator := by
  refine ⟨attemptAll_legible rs hs hg, outcomesFrom_legible 0 hsep fun attempt hmem => hrs _ ?_⟩
  have hrecord := List.mem_map_of_mem (f := Attempt.record) hmem
  rwa [attemptAll_records] at hrecord

theorem processTrace_legible {s : Session} (source : Source) (hsep : Separates settings.separator)
    (hs : s.Quiet) (hg : s.model.graph.Legible settings.separator) :
    (processTrace settings files s source).1.model.graph.Legible settings.separator := by
  rw [processTrace_eq settings files source hs]
  dsimp only
  split
  · exact hg
  · rename_i hnew
    have hbegun : (s.begin source.trace).model.graph.Legible settings.separator := by
      refine ⟨hg.widget, ?_⟩
      intro t ht
      rcases List.mem_append.1 ht with ht | ht
      · exact hg.action t ht
      · rw [List.mem_singleton.1 ht]
        exact fun a ha => by cases ha
    have hquiet : (s.begin source.trace).Quiet := hs.begin (by simpa using hnew)
    split
    · exact hbegun
    · rename_i items hopen
      have hrecords : ∀ r ∈ (Intake.ofItems settings.malformed items).records,
          Record.Legible .trace settings.separator r := by
        intro r hr
        exact openFile_legible hopen (ofItems_records hr)
      obtain ⟨hsurvey, hactions⟩ := consider_legible files hsep hquiet.sound hbegun hrecords
      refine ⟨hsurvey.widget, ?_⟩
      intro t ht a ha
      rcases mem_extendTrace ht with ht | ⟨u, hu, rfl⟩
      · exact hsurvey.action t ht a ha
      · rcases List.mem_append.1 ha with ha | ha
        · exact hsurvey.action u (List.mem_of_getElem? hu) a ha
        · exact hactions a ha

end Load
end ScreenGraph
