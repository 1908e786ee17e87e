import ScreenGraph.Proofs.Export.Legible
import ScreenGraph.Proofs.Load.Course

/-!
# ScreenGraph.Proofs.Load.Repairs

When an id of a record is noted as repaired, and why a repaired record needs no repair.

A record is compared with the one that has canonical ids in it. A target that was dropped keeps its
recorded text in both, but only the recorded one is trimmed for the comparison: blanks around such a
target are noted as a repair although nothing was rewritten.

* `diverges_repair`: the comparison, column by column.
* `repaired_iff`: when a repair is noted.
* `resolve_rewritten`: a resolved action, written and resolved again, is itself up to its carriage
  returns, and nothing is noted.
-/

namespace ScreenGraph
namespace Load

open Files Graph Identity Record Screen Text

variable {s : Survey} {index : Nat} {r : Record} {result : State} {resolution : Resolution}

/-! ## Repair notes -/

/-- Some ids were noted as repaired. -/
def Resolution.Repaired (resolution : Resolution) : Prop :=
  ∃ recorded repaired, .idsRepaired recorded repaired ∈ resolution.notes

theorem idsRepaired_mem_notesOf {repaired : Record} {found target : Option WidgetId}
    {recorded repaired' : Record} :
    .idsRepaired recorded repaired' ∈ notesOf r repaired found target ↔
      diverges r repaired = true ∧ recorded = r ∧ repaired' = repaired := by
  unfold notesOf
  cases found <;> cases target <;> simp

/-- A dropped target is compared with itself, untrimmed. -/
theorem diverges_repair (r : Record) (source result : State) (target : Option WidgetId) :
    diverges r (repair r source result target) = true ↔
      trim (r.field TraceColumn.source) ≠ source.id.text ∨
      trim (r.field TraceColumn.result) ≠ result.id.text ∨
      trim (r.field TraceColumn.target) ≠
        if target.isSome ∨ rawTarget r = "" then idText target
        else r.field TraceColumn.target := by
  have hsource : (repair r source result target).field TraceColumn.source = source.id.text := by
    simp [repair_field, TraceColumn.source, TraceColumn.target]
  have hresult : (repair r source result target).field TraceColumn.result = result.id.text := by
    simp [repair_field, TraceColumn.source, TraceColumn.result, TraceColumn.target]
  have htarget : (repair r source result target).field TraceColumn.target =
      if target.isSome ∨ rawTarget r = "" then idText target
      else r.field TraceColumn.target := by
    simp [repair_field, TraceColumn.source, TraceColumn.result, TraceColumn.target]
  simp only [diverges, List.any_cons, List.any_nil, Bool.or_false, Bool.or_eq_true,
    decide_eq_true_eq, hsource, hresult, htarget]

/-- What the target of a record differs from, by what became of it. -/
theorem target_diverges_iff {target : Option WidgetId}
    (hglobal : (ActionKind.read (r.field TraceColumn.action)).isGlobal = true → target = none) :
    (trim (r.field TraceColumn.target) ≠
      if target.isSome ∨ rawTarget r = "" then idText target
      else r.field TraceColumn.target) ↔
      (∃ w, target = some w ∧ trim (r.field TraceColumn.target) ≠ w.text) ∨
      ((ActionKind.read (r.field TraceColumn.action)).isGlobal = true ∧
        trim (r.field TraceColumn.target) ≠ "") ∨
      ((ActionKind.read (r.field TraceColumn.action)).isGlobal = false ∧ target = none ∧
        trim (r.field TraceColumn.target) ≠ "" ∧
        trim (r.field TraceColumn.target) ≠ r.field TraceColumn.target) := by
  cases hkind : (ActionKind.read (r.field TraceColumn.action)).isGlobal with
  | true =>
    have hraw : rawTarget r = "" := by rw [rawTarget, if_pos hkind]
    rw [hglobal hkind]
    simp [hraw, idText]
  | false =>
    have hraw : rawTarget r = trim (r.field TraceColumn.target) := by
      rw [rawTarget, if_neg (by simp [hkind])]
    rw [hraw]
    cases target with
    | some w => simp [idText]
    | none =>
      by_cases hempty : trim (r.field TraceColumn.target) = ""
      · simp [hempty, idText]
      · simp [hempty]

/-- A repair is noted exactly if the text of the source or of the result is not its id, if the text
of a target that was kept is not its id, if a global action has the text of a target, or if there
are blanks around a target that was dropped. -/
theorem repaired_iff (h : resolve s index r result = .ok resolution) :
    resolution.Repaired ↔
      trim (r.field TraceColumn.source) ≠ resolution.action.source.text ∨
      trim (r.field TraceColumn.result) ≠ result.id.text ∨
      (∃ w, resolution.action.target = some w ∧
        trim (r.field TraceColumn.target) ≠ w.text) ∨
      (resolution.action.kind.isGlobal = true ∧ trim (r.field TraceColumn.target) ≠ "") ∨
      (resolution.action.kind.isGlobal = false ∧ resolution.action.target = none ∧
        trim (r.field TraceColumn.target) ≠ "" ∧
        trim (r.field TraceColumn.target) ≠ r.field TraceColumn.target) := by
  have hglobal := resolve_global h
  obtain ⟨source, -, -, hkind, hsource, -, htarget, hnotes⟩ := resolve_ok h
  have hrepaired : resolution.Repaired ↔
      diverges r (repair r source result resolution.action.target) = true := by
    unfold Resolution.Repaired
    rw [hnotes, htarget]
    constructor
    · rintro ⟨recorded, repaired, hmem⟩
      exact (idsRepaired_mem_notesOf.1 hmem).1
    · intro hdiverges
      exact ⟨_, _, idsRepaired_mem_notesOf.2 ⟨hdiverges, rfl, rfl⟩⟩
  rw [hkind] at hglobal ⊢
  rw [hrepaired, diverges_repair, target_diverges_iff hglobal, hsource]

/-- A target that nobody knows, with blanks around it. -/
def paddedRecord : Record :=
  ⟨1, ["Click", StateId.empty.text, StateId.empty.text, " x "]⟩

/-- Nothing has happened yet. -/
def freshSurvey : Survey :=
  .ofGraph Graph.initial

def paddedResolution : Resolution where
  action := ⟨0, .click, .empty, .empty, none, "", none, none, true, "", []⟩
  result := .empty
  notes := [.unknownWidget "x", .idsRepaired paddedRecord paddedRecord]

theorem resolve_paddedRecord :
    resolve freshSurvey 0 paddedRecord State.empty = .ok paddedResolution := by
  decide +kernel

theorem repaired_iff_padded :
    resolve freshSurvey 0 paddedRecord State.empty = .ok paddedResolution ∧
      paddedResolution.Repaired :=
  ⟨resolve_paddedRecord, (repaired_iff resolve_paddedRecord).2
    (.inr (.inr (.inr (.inr (by decide +kernel)))))⟩

/-- Blanks alone make a repair: what was recorded is noted as the repair of itself. -/
theorem repaired_unchanged : ¬ ∀ (events : List Survey.Event) (index : Nat) (r : Record)
    (result : State) (resolution : Resolution),
      ((Survey.ofGraph Graph.initial).course events).graph.state? result.id = some result →
      resolve ((Survey.ofGraph Graph.initial).course events) index r result = .ok resolution →
      (resolution.Repaired ↔
        trim (r.field TraceColumn.source) ≠ resolution.action.source.text ∨
        trim (r.field TraceColumn.result) ≠ result.id.text ∨
        (∃ w, resolution.action.target = some w ∧
          trim (r.field TraceColumn.target) ≠ w.text) ∨
        (resolution.action.kind.isGlobal = true ∧ trim (r.field TraceColumn.target) ≠ "")) := by
  intro hall
  have hnoted : paddedResolution.Repaired :=
    ⟨paddedRecord, paddedRecord, List.mem_cons_of_mem _ List.mem_cons_self⟩
  have hsource : trim (paddedRecord.field TraceColumn.source) =
      paddedResolution.action.source.text := by decide +kernel
  have hresult : trim (paddedRecord.field TraceColumn.result) = State.empty.id.text := by
    decide +kernel
  have hempty : freshSurvey.graph.state? State.empty.id = some State.empty := by decide
  rcases (hall [] 0 paddedRecord .empty _ hempty resolve_paddedRecord).1 hnoted with
    hs | hr | ⟨w, hw, -⟩ | ⟨hglobal, -⟩
  · exact hs hsource
  · exact hr hresult
  · cases hw
  · cases hglobal

/-! ## Actions that were written -/

/-- Under its own id, a registered state is settled, unless another one was settled under it. -/
theorem settled?_text {source : State} (hs : s.Sound)
    (hsource : s.graph.state? source.id = some source)
    (hknown : ∀ S, s.known.find? source.id.text = some S → S.id = source.id) :
    s.settled? source.id.text = some source := by
  have htrim : trim source.id.text = source.id.text := source.id.trim_text
  cases hfound : s.known.find? source.id.text with
  | some S =>
    have hS := hs.known _ _ hfound
    rw [hknown S hfound, hsource] at hS
    cases hS
    refine Survey.settled?_of_known ?_
    rwa [htrim]
  | none =>
    rw [Survey.settled?_of_unknown (by rwa [htrim]), htrim]
    exact Survey.stateNamed?_own source.id.read?_text hsource

/-- The fields of a resolved action are read back as they were written, and are resolved to the same
action but for its carriage returns. No id in them needs a repair. The name of the source must not
have been settled as another state. -/
theorem resolve_rewritten {sep : Char} (hsep : Separates sep) (events : List Survey.Event)
    {line : String} (number : Nat) (hline : '\n' ∉ line.toList)
    (hresult : ((Survey.ofGraph Graph.initial).course events).graph.state? result.id =
      some result)
    (h : resolve ((Survey.ofGraph Graph.initial).course events) index
      ⟨number, Layout.trace.split sep line⟩ result = .ok resolution)
    (hknown : ∀ S, ((Survey.ofGraph Graph.initial).course events).known.find?
      resolution.action.source.text = some S → S.id = resolution.action.source) :
    let fields := actionFields sep resolution.action
    Layout.trace.split sep (join sep fields) = fields ∧
      fields.length = Layout.trace.fieldCount ∧
      ∀ number', resolve ((Survey.ofGraph Graph.initial).course events) index ⟨number', fields⟩
        result = .ok ⟨resolution.action.flat, result, []⟩ := by
  intro fields
  have hs := (Survey.initial_anchored events).toSound
  have hlegible := resolve_legible hsep (split_legible .trace number hline) h
  obtain ⟨front, last, hfields, hwritable⟩ := isRow_actionFields hsep hlegible
  obtain ⟨⟨source, result', hsource, hresult', htarget⟩, hindex⟩ := resolve_admits hs hresult h
  have hid : source.id = resolution.action.source :=
    hs.canonical.stateKey _ _ hsource
  obtain ⟨-, -, -, -, -, hsame, -⟩ := resolve_ok h
  have hsplit := hwritable.split_eq
  have hlength : (front ++ [last]).length = Layout.trace.fieldCount := by
    rw [List.length_append]
    exact hwritable.length
  rw [← hfields] at hsplit hlength
  refine ⟨hsplit, hlength, ?_⟩
  intro number'
  rw [← hid] at hsource hknown
  have hsettled := settled?_text hs hsource hknown
  rw [hid] at hsettled
  have hagain := resolve_actionRow number' hlegible hsettled hid hsame.symm htarget
  rwa [hindex] at hagain

def staleRow : Record :=
  ⟨1, ["b", "Button", "no", "app", "/c"]⟩

def staleEvents : List Survey.Event :=
  [.asked (.addStateRows [staleRow])]

def staleState : State :=
  (addStateRows Graph.initial [staleRow]).2

/-- The target is written with its stored id, the logs are no array, and texts have carriage
returns. -/
def staleLine : String :=
  "Click; 10acc660-796c-6dff-7917-36bdb5d9b02d;10acc660-796c-6dff-7917-36bdb5d9b02d;b;" ++
    "a\rb; 5;;;\r;x;y"

def staleResolution : Resolution where
  action := ⟨0, .click, staleState.id, staleState.id, (staleState.widgets.map (·.id)).head?,
    "a\rb", some 5, none, true, "\r", ["x;y"]⟩
  result := staleState
  notes := [.idsRepaired ⟨1, Layout.trace.split ';' staleLine⟩ ⟨1, ["Click",
    "10acc660-796c-6dff-7917-36bdb5d9b02d", "10acc660-796c-6dff-7917-36bdb5d9b02d",
    "8a3837f6-f37a-760c-3d0d-f5a89e72c11f", "a\rb", " 5", "", "", "\r", "x;y"]⟩]

theorem resolve_rewritten_stale :
    let s := (Survey.ofGraph Graph.initial).course staleEvents
    resolve s 0 ⟨1, Layout.trace.split ';' staleLine⟩ staleState = .ok staleResolution ∧
      resolve s 0 ⟨2, actionFields ';' staleResolution.action⟩ staleState =
        .ok ⟨staleResolution.action.flat, staleState, []⟩ := by
  intro s
  have hresult : s.graph.state? staleState.id = some staleState := by decide +kernel
  have hresolved : resolve s 0 ⟨1, Layout.trace.split ';' staleLine⟩ staleState =
      .ok staleResolution := by decide +kernel
  have hunknown : s.known.find? staleResolution.action.source.text = none := by decide +kernel
  obtain ⟨-, -, hagain⟩ := resolve_rewritten ⟨by decide, by decide, by decide⟩ staleEvents 1
    (by decide +kernel) hresult hresolved fun S hS => by
      rw [hunknown] at hS
      cases hS
  exact ⟨hresolved, hagain 2⟩

end Load
end ScreenGraph
