import ScreenGraph.Load.Resolution
import ScreenGraph.Proofs.Identity.Keys
import ScreenGraph.Proofs.Json.Strings
import ScreenGraph.Proofs.Record.Writing

/-!
# ScreenGraph.Proofs.Export.Rows

Widgets and actions as rows, and what the rows are read as.

Free text is the only thing that writing can change, and of what was read from a record file it
changes the carriage returns only. `flat` is what becomes of a text, and of everything that has
texts in it.

* `sanitize_eq_flat`: what is written of a text that was read.
* `isRow_widgetFields`, `isRow_actionFields`: the rows can be found again.
* `widgetOf_widgetRow`: a widget is read back from its row.
* `addRow_widgetFields`: the same for a single row, whatever characters its text had.
-/

namespace ScreenGraph

open Files Graph Identity Record Screen Text

/-! ## Flat texts -/

namespace Text

def flatChar (c : Char) : Char :=
  if c = '\r' then ' ' else c

/-- A blank in place of every carriage return. -/
def flat (s : String) : String :=
  String.ofList (s.toList.map flatChar)

end Text

/-- The widget with a flat text. -/
def Screen.Widget.flat (w : Widget) : Widget :=
  { w with text := Text.flat w.text }

def Screen.State.flat (s : State) : State :=
  { s with widgets := s.widgets.map Widget.flat }

/-- The action with flat data and a flat exception. -/
def Graph.Action.flat (a : Action) : Action :=
  { a with data := Text.flat a.data, exception := Text.flat a.exception }

def Graph.Trace.flat (t : Trace) : Trace :=
  { t with actions := t.actions.map Action.flat }

/-! ## What can be written -/

/-- The separators that no id, flag or number can hold, and that no blank is taken for. -/
structure Separates (sep : Char) : Prop where
  plain : isPlain sep = false
  blank : sep ≠ ' '
  lineFeed : sep ≠ '\n'

/-- The texts of the widget fit into fields. -/
structure Screen.Widget.Legible (sep : Char) (w : Widget) : Prop where
  className : Fits sep w.className
  resourceId : Fits sep w.resourceId
  packageName : Fits sep w.packageName
  xpath : Fits sep w.xpath
  text : Fits sep w.text

theorem Screen.Widget.Legible.key {sep : Char} {w : Widget} (h : w.Legible sep) :
    w.key.Fits sep :=
  ⟨h.className, h.resourceId, h.packageName, h.xpath⟩

/-- The texts of the action fit into fields, and its kind is what it is called. -/
structure Graph.Action.Legible (sep : Char) (a : Action) : Prop where
  kind : Fits sep a.kind.text
  kindText : ActionKind.read a.kind.text = a.kind
  target : a.kind.isGlobal = true → a.target = none
  data : Fits sep a.data
  exception : Fits sep a.exception

namespace Record

theorem fits_sanitize {sep : Char} (s : String) (hsep : Separates sep) :
    Fits sep (sanitize sep s) := by
  have hchar : ∀ c, sanitizeChar sep c ≠ sep ∧ sanitizeChar sep c ≠ '\n' := by
    intro c
    unfold sanitizeChar
    split
    · exact ⟨hsep.blank.symm, by decide⟩
    · rename_i h
      rw [not_or, not_or] at h
      exact ⟨h.1, h.2.1⟩
  refine ⟨fun hmem => ?_, fun hmem => ?_⟩
  all_goals
    rw [sanitize, String.toList_ofList] at hmem
    obtain ⟨c, -, hc⟩ := List.mem_map.1 hmem
  · exact (hchar c).1 hc
  · exact (hchar c).2 hc

/-- A text that fits into a field loses nothing but its carriage returns. -/
theorem sanitize_eq_flat {sep : Char} {s : String} (h : Fits sep s) :
    sanitize sep s = flat s := by
  rw [sanitize, flat]
  refine congrArg String.ofList (List.map_congr_left ?_)
  intro c hc
  have hsep : c ≠ sep := by
    intro he
    exact h.separator (he ▸ hc)
  have hfeed : c ≠ '\n' := by
    intro he
    exact h.lineFeed (he ▸ hc)
  simp [sanitizeChar, flatChar, hsep, hfeed]

theorem fits_flagText {sep : Char} (hsep : Separates sep) (b : Bool) : Fits sep (flagText b) := by
  refine fits_plain hsep.plain (plain_of_all ?_)
  cases b <;> decide +kernel

theorem fits_idText {sep : Char} {kind : Kind} (hsep : Separates sep) (i : Option (Ident kind)) :
    Fits sep (idText i) := by
  cases i with
  | none => exact fits_empty sep
  | some i => exact i.fits hsep.plain

theorem fits_timeText {sep : Char} (hsep : Separates sep) (t : Option Int64) :
    Fits sep (timeText t) := by
  cases t with
  | none => exact fits_empty sep
  | some t => exact fits_plain hsep.plain (integerText_plain _)

theorem readFlag_flagText (b : Bool) : readFlag (flagText b) = b := by
  cases b <;> decide +kernel

/-! ## Widgets -/

theorem integerText_ne_nil (n : Int) : (integerText n).toList ≠ [] := by
  cases n with
  | ofNat m =>
    rw [integerText, String.toList_ofList]
    exact Nat.toDigits_ne_nil
  | negSucc m =>
    rw [integerText, String.toList_ofList]
    exact List.cons_ne_nil _ _

/-- The last number of a rectangle ends its text. -/
theorem bounds_ending (b : Bounds) :
    '\n' ∉ b.text.toList ∧ ∃ c, b.text.toList.getLast? = some c ∧ isBlank c = false := by
  have htext : b.text.toList =
      joinChars ':' ([b.x, b.y, b.width].map (fun n => (integerText n.toInt).toList) ++
        [(integerText b.height.toInt).toList]) := by
    rw [Bounds.text, join, String.toList_ofList]
    rfl
  rw [htext]
  refine ⟨?_, ?_⟩
  · intro hmem
    rcases mem_joinChars hmem with hcolon | ⟨f, hf, hmem⟩
    · cases hcolon
    · have hplain : ∀ n : Int32, '\n' ∉ (integerText n.toInt).toList := by
        intro n hmem
        cases integerText_plain _ _ hmem
      rcases List.mem_append.1 hf with hf | hf
      · obtain ⟨n, -, rfl⟩ := List.mem_map.1 hf
        exact hplain n hmem
      · rw [List.mem_singleton.1 hf] at hmem
        exact hplain _ hmem
  · rw [getLast?_joinChars ':' _ (integerText_ne_nil _)]
    cases hlast : (integerText b.height.toInt).toList.getLast? with
    | none => exact absurd (List.getLast?_eq_none_iff.1 hlast) (integerText_ne_nil _)
    | some c =>
      have hplain := integerText_plain _ _ (List.mem_of_getLast? hlast)
      exact ⟨c, rfl, isBlank_of_isPlain hplain⟩

theorem isRow_widgetFields {sep : Char} {w : Widget} (hsep : Separates sep)
    (hw : w.key.Fits sep) : IsRow .widget sep (widgetFields sep w) := by
  obtain ⟨hfeed, hending⟩ := bounds_ending w.bounds
  have hcount : (widgetFields sep w).dropLast.length + 1 = Layout.widget.fieldCount := by
    simp [widgetFields, Layout.fieldCount, Layout.widget]
  refine ⟨(widgetFields sep w).dropLast, w.bounds.text, rfl, hcount, ?_, hfeed, hending⟩
  simp only [widgetFields, List.dropLast, List.forall_mem_cons, List.not_mem_nil,
    false_imp_iff, implies_true, and_true]
  exact ⟨Ident.fits hsep.plain _, hw.className, hw.resourceId, hw.packageName, hw.xpath,
    fits_sanitize _ hsep, fits_flagText hsep _, fits_flagText hsep _, fits_flagText hsep _,
    fits_flagText hsep _, fits_idText hsep _⟩

end Record

namespace Load

/-- A widget row as it was written. -/
def widgetRow (sep : Char) (number : Nat) (w : Widget) : Record :=
  ⟨number, widgetFields sep w⟩

theorem identify_widgetRow (sep : Char) (number : Nat) (w : Widget) :
    identify (widgetRow sep number w) = w.computedId := rfl

theorem storedId_widgetRow (sep : Char) (number : Nat) (w : Widget) :
    storedId (widgetRow sep number w) = w.id.text :=
  w.id.trim_text

/-- The parent of a written row: the one that was written, if another row of the file is it. -/
theorem parentOf_widgetRow (sep : Char) (number : Nat) {w : Widget} (siblings : Siblings)
    (hw : w.computedId = w.id) :
    parentOf siblings (widgetRow sep number w) =
      w.parent.bind fun p => (siblings.lookup p.text).filter (· ≠ w.id) := by
  have hfield : (widgetRow sep number w).field WidgetColumn.parent = idText w.parent := rfl
  rw [parentOf, hfield, identify_widgetRow, hw]
  cases w.parent with
  | none => rfl
  | some p =>
    have htext : trim (idText (some p)) = p.text := p.trim_text
    simp only [htext, p.text_ne_empty, if_false, Option.bind_some]

/-- What is read for a widget that was written beside widgets with the ids `ids`. -/
def restoredIn (ids : List WidgetId) (w : Widget) : Widget :=
  { w.flat with parent := w.parent.filter fun p => p ∈ ids ∧ p ≠ w.id }

/-- Everything but the text and the parent is read as it was written. -/
theorem widgetOf_widgetFields (sep : Char) (number : Nat) {w : Widget} (siblings : Siblings)
    (hid : w.computedId = w.id) :
    widgetOf siblings (widgetRow sep number w) = { w with
      text := sanitize sep w.text
      parent := parentOf siblings (widgetRow sep number w) } := by
  have hclickable : readFlag ((widgetRow sep number w).field WidgetColumn.clickable) =
    w.clickable := readFlag_flagText _
  have hlong : readFlag ((widgetRow sep number w).field WidgetColumn.longClickable) =
    w.longClickable := readFlag_flagText _
  have hinput : readFlag ((widgetRow sep number w).field WidgetColumn.inputField) =
    w.inputField := readFlag_flagText _
  have hscrollable : readFlag ((widgetRow sep number w).field WidgetColumn.scrollable) =
    w.scrollable := readFlag_flagText _
  have hbounds : Bounds.read ((widgetRow sep number w).field WidgetColumn.bounds) =
    .ok w.bounds := w.bounds.read_text
  unfold widgetOf
  rw [hclickable, hlong, hinput, hscrollable, hbounds, identify_widgetRow, hid]
  rfl

theorem widgetOf_widgetRow {sep : Char} (number : Nat) {w : Widget} {siblings : Siblings}
    {ids : List WidgetId} (hw : w.Legible sep) (hid : w.computedId = w.id)
    (hsiblings : ∀ p : WidgetId, siblings.lookup p.text = if p ∈ ids then some p else none) :
    widgetOf siblings (widgetRow sep number w) = restoredIn ids w := by
  have hparent : parentOf siblings (widgetRow sep number w) =
      w.parent.filter fun p => p ∈ ids ∧ p ≠ w.id := by
    rw [parentOf_widgetRow sep number siblings hid]
    cases w.parent with
    | none => rfl
    | some p =>
      rw [Option.bind_some, hsiblings]
      by_cases hp : p ∈ ids <;> simp [hp, Option.filter]
  rw [widgetOf_widgetFields sep number siblings hid, sanitize_eq_flat hw.text, hparent]
  rfl

/-- The row of a widget that has its own id records no other name for it. -/
theorem aliasRow_widgetRow (g : Graph) (sep : Char) (number : Nat) {w : Widget}
    (hid : w.computedId = w.id) : aliasRow g (widgetRow sep number w) = g := by
  rw [aliasRow, storedId_widgetRow, identify_widgetRow, hid]
  exact if_neg fun h => h.2 rfl

theorem parentOf_widgetRow_of_lookup (sep : Char) (number : Nat) {w : Widget}
    {siblings : Siblings} (hid : w.computedId = w.id)
    (hparent : ∀ p, w.parent = some p → p ≠ w.id ∧ siblings.lookup p.text = some p) :
    parentOf siblings (widgetRow sep number w) = w.parent := by
  rw [parentOf_widgetRow sep number siblings hid]
  cases hp : w.parent with
  | none => rfl
  | some p =>
    obtain ⟨hother, hfound⟩ := hparent p hp
    rw [Option.bind_some, hfound]
    exact Option.filter_some_pos (by simpa using hother)

/-- A widget that has its own id is read back from the line it was written to, in a graph that
knows no widgets yet and beside its parent. Only its text changes, in the characters that would have
ended the field or the line, and no other name is recorded for it. -/
theorem addRow_widgetFields {sep : Char} {w : Widget} {siblings : Siblings}
    (hsep : Separates sep) (hid : w.computedId = w.id) (hkey : w.key.Fits sep)
    (hparent : ∀ p, w.parent = some p → p ≠ w.id ∧ siblings.lookup p.text = some p)
    (number : Nat) :
    let line := join sep (widgetFields sep w)
    let read := addRow Graph.initial siblings ⟨number, Layout.widget.split sep line⟩
    '\n' ∉ line.toList ∧
      Layout.widget.split sep line = widgetFields sep w ∧ (widgetFields sep w).length = 12 ∧
      read.2 = { w with text := read.2.text } ∧
      read.2.text.toList =
        w.text.toList.map (fun c => if c = sep ∨ c = '\n' ∨ c = '\r' then ' ' else c) ∧
      read.1 = Graph.initial.addWidget read.2 := by
  obtain ⟨front, last, hfields, hwritable⟩ := isRow_widgetFields hsep hkey
  have hline : '\n' ∉ (join sep (widgetFields sep w)).toList := by
    rw [hfields]
    exact (hwritable.clean hsep.lineFeed).noLineFeed
  have hsplit : Layout.widget.split sep (join sep (widgetFields sep w)) = widgetFields sep w := by
    rw [hfields]
    exact hwritable.split_eq
  have hread : widgetOf siblings (widgetRow sep number w) =
      { w with text := sanitize sep w.text } := by
    rw [widgetOf_widgetFields sep number siblings hid,
      parentOf_widgetRow_of_lookup sep number hid hparent]
  intro line read
  have hrow : read = (Graph.initial.addWidget { w with text := sanitize sep w.text },
      { w with text := sanitize sep w.text }) := by
    simp only [read, line, hsplit]
    show addRow Graph.initial siblings (widgetRow sep number w) = _
    rw [addRow, hread, aliasRow_widgetRow _ sep number hid]
    rfl
  rw [hrow]
  exact ⟨hline, hsplit, rfl, rfl, String.toList_ofList, rfl⟩

def menuId : WidgetId :=
  WidgetKey.id ⟨"Menu", "", "app", "/menu"⟩

def helpKey : WidgetKey :=
  ⟨" Button\t", "help:1", "app", "/menu/help"⟩

/-- An entry of the menu, with coordinates at both limits. -/
def helpWidget : Widget :=
  ⟨helpKey.id, " Button\t", "help:1", "app", "/menu/help", "a;b\r\nc", true, false, true, false,
    some menuId, ⟨-2147483648, 2147483647, 0, -1⟩⟩

theorem addRow_widgetFields_help :
    let line := join ';' (widgetFields ';' helpWidget)
    let read := addRow Graph.initial [(menuId.text, menuId)] ⟨7, Layout.widget.split ';' line⟩
    menuId ≠ helpWidget.id ∧ read.2 = { helpWidget with text := read.2.text } ∧
      read.2.text.toList = "a b  c".toList ∧ read.1 = Graph.initial.addWidget read.2 := by
  have hother : menuId ≠ helpWidget.id := by decide +kernel
  have hkey : helpWidget.key.Fits ';' := by
    refine ⟨⟨?_, ?_⟩, ⟨?_, ?_⟩, ⟨?_, ?_⟩, ⟨?_, ?_⟩⟩ <;> decide +kernel
  have hparent : ∀ p, helpWidget.parent = some p →
      p ≠ helpWidget.id ∧ [(menuId.text, menuId)].lookup p.text = some p := by
    intro p hp
    cases hp
    exact ⟨hother, List.lookup_cons_self⟩
  obtain ⟨-, -, -, hsame, htext, hgraph⟩ :=
    addRow_widgetFields ⟨by decide, by decide, by decide⟩ rfl hkey hparent 7
  exact ⟨hother, hsame, htext.trans (by decide +kernel), hgraph⟩

theorem map_numbered {α : Type} {f : Record → α} {g : List String → α}
    (h : ∀ number fields, f ⟨number, fields⟩ = g fields) (number : Nat)
    (rows : List (List String)) : (numbered number rows).map f = rows.map g := by
  induction rows generalizing number with
  | nil => rfl
  | cons fields rows ih => rw [numbered, List.map_cons, List.map_cons, h, ih]

theorem lookup_texts (ids : List WidgetId) (p : WidgetId) :
    (ids.map fun i => (i.text, i)).lookup p.text = if p ∈ ids then some p else none := by
  induction ids with
  | nil => rfl
  | cons i ids ih =>
    rw [List.map_cons, List.lookup_cons]
    by_cases hp : p = i
    · subst hp
      simp
    · have hne : (p.text == i.text) = false := by
        simpa using fun he => hp (Ident.text_injective he)
      rw [hne, ih]
      simp [hp]

section

variable {sep : Char} {ws : List Widget}

/-- The rows of a state file that shows the widgets. -/
def widgetRows (sep : Char) (number : Nat) (ws : List Widget) : List Record :=
  numbered number (ws.map (widgetFields sep))

theorem widgetRows_identify (number : Nat) (hid : ∀ w ∈ ws, w.computedId = w.id) :
    (widgetRows sep number ws).map identify = ws.map (·.id) := by
  rw [widgetRows, map_numbered (g := fun fields => identify ⟨number, fields⟩) fun _ _ => rfl,
    List.map_map]
  exact List.map_congr_left fun w hw => hid w hw

/-- Every widget of a written file is found under its id. -/
theorem siblingsOf_widgetRows (number : Nat) (hid : ∀ w ∈ ws, w.computedId = w.id)
    (p : WidgetId) : (siblingsOf (widgetRows sep number ws)).lookup p.text =
      if p ∈ ws.map (·.id) then some p else none := by
  have hpairs : (widgetRows sep number ws).map (fun r => (storedId r, identify r)) =
      (ws.map (·.id)).map fun i => (i.text, i) := by
    rw [widgetRows, map_numbered
      (g := fun fields => (storedId ⟨number, fields⟩, identify ⟨number, fields⟩)) fun _ _ => rfl,
      List.map_map, List.map_map]
    refine List.map_congr_left ?_
    intro w hw
    exact Prod.ext (storedId_widgetRow sep number w) (hid w hw)
  have hall : ((ws.map (·.id)).map fun i : WidgetId => (i.text, i)).filter (·.1 ≠ "") =
      (ws.map (·.id)).map fun i => (i.text, i) := by
    refine List.filter_eq_self.2 ?_
    intro pair hpair
    obtain ⟨i, -, rfl⟩ := List.mem_map.1 hpair
    simpa using i.text_ne_empty
  rw [siblingsOf, hpairs, hall, ← List.map_reverse, lookup_texts]
  simp

theorem find?_widgetRows (number : Nat) {siblings : Siblings} {ids : List WidgetId}
    (hws : ∀ w ∈ ws, w.Legible sep ∧ w.computedId = w.id)
    (hsiblings : ∀ p : WidgetId, siblings.lookup p.text = if p ∈ ids then some p else none)
    (id : WidgetId) :
    ((widgetRows sep number ws).find? (identify · = id)).map (widgetOf siblings) =
      (ws.find? (·.id = id)).map (restoredIn ids) := by
  induction ws generalizing number with
  | nil => rfl
  | cons w ws ih =>
    obtain ⟨hlegible, hid⟩ := hws w List.mem_cons_self
    have hrest := ih (number + 1) fun v hv => hws v (List.mem_cons_of_mem _ hv)
    have hcons : widgetRows sep number (w :: ws) =
      widgetRow sep number w :: widgetRows sep (number + 1) ws := rfl
    have hidentify : identify (widgetRow sep number w) = w.id := hid
    rw [hcons, List.find?_cons, List.find?_cons, hidentify]
    by_cases hw : w.id = id
    · simp only [hw, decide_true, Option.map_some]
      rw [widgetOf_widgetRow number hlegible hid hsiblings]
    · simp only [hw, decide_false]
      exact hrest

end

/-! ## Actions -/

/-- An action row as it was written. -/
def actionRow (sep : Char) (number : Nat) (a : Action) : Record :=
  ⟨number, actionFields sep a⟩

theorem escapeChar_noLineFeed (c : Char) : '\n' ∉ Json.escapeChar c := by
  have hdigit : ∀ n : Fin 16, '\n' ≠ hexDigit n := by decide
  unfold Json.escapeChar
  iterate 7
    split
    · decide
  split
  · rename_i h
    have hhigh := hdigit ⟨c.toNat / 16, by omega⟩
    have hlow := hdigit ⟨c.toNat % 16, by omega⟩
    simp only [List.mem_cons, List.not_mem_nil, or_false, not_or]
    exact ⟨by decide, by decide, by decide, by decide, hhigh, hlow⟩
  · rename_i hfeed _ _ _
    rw [List.mem_singleton]
    exact fun h => hfeed h.symm

theorem writeStrings_chars (items : List String) : ∃ front,
    (Json.writeStrings items).toList = '[' :: front ++ [']'] ∧ '\n' ∉ front := by
  refine ⟨joinChars ',' (items.map fun s => Json.quoteChars s.toList), ?_, ?_⟩
  · simp [Json.writeStrings]
  · intro hmem
    rcases mem_joinChars hmem with hcomma | ⟨f, hf, hmem⟩
    · cases hcomma
    · obtain ⟨s, -, rfl⟩ := List.mem_map.1 hf
      simp only [Json.quoteChars, List.cons_append, List.mem_cons, List.mem_append,
        List.mem_flatMap, List.not_mem_nil, or_false] at hmem
      rcases hmem with hquote | ⟨c, -, hmem⟩ | hquote
      · cases hquote
      · exact escapeChar_noLineFeed c hmem
      · cases hquote

theorem isRow_actionFields {sep : Char} {a : Action} (hsep : Separates sep)
    (ha : a.Legible sep) : IsRow .trace sep (actionFields sep a) := by
  obtain ⟨front, hlogs, hfeed⟩ := writeStrings_chars a.deviceLogs
  have hcount : (actionFields sep a).dropLast.length + 1 = Layout.trace.fieldCount := by
    simp [actionFields, Layout.fieldCount, Layout.trace]
  refine ⟨(actionFields sep a).dropLast, Json.writeStrings a.deviceLogs, rfl, hcount, ?_, ?_, ?_⟩
  · simp only [actionFields, List.dropLast, List.forall_mem_cons, List.not_mem_nil,
      false_imp_iff, implies_true, and_true]
    exact ⟨ha.kind, Ident.fits hsep.plain _, Ident.fits hsep.plain _, fits_idText hsep _,
      fits_sanitize _ hsep, fits_timeText hsep _, fits_timeText hsep _, fits_flagText hsep _,
      fits_sanitize _ hsep⟩
  · rw [hlogs]
    simpa using hfeed
  · rw [hlogs]
    exact ⟨']', List.getLast?_concat, by decide⟩

theorem readLogs_writeStrings (items : List String) :
    readLogs (Json.writeStrings items) = items := by
  obtain ⟨front, hlogs, -⟩ := writeStrings_chars items
  have htrim : trim (Json.writeStrings items) = Json.writeStrings items := by
    refine trim_eq_self ?_ ?_
    · intro c hc
      rw [hlogs] at hc
      cases hc
      decide
    · intro c hc
      rw [hlogs, List.getLast?_concat] at hc
      cases hc
      decide
  have hne : Json.writeStrings items ≠ "" := by
    intro h
    rw [h] at hlogs
    cases hlogs
  rw [readLogs, htrim]
  simp only [hne, if_false, Json.readStrings?_writeStrings, Option.getD_some]

theorem readTime_timeText (t : Option Int64) :
    (readInt64 (trim (timeText t))).toOption = t := by
  cases t with
  | none => rfl
  | some t =>
    have htext : timeText (some t) = integerText t.toInt := rfl
    rw [htext, trim_plain (integerText_plain _), readInt64_integerText]
    rfl

theorem readSuccess_flagText (b : Bool) : readSuccess (flagText b) = b := by
  cases b <;> decide +kernel

/-- Ids are put in place of the recorded ones, and nothing else is touched. -/
theorem repair_field (r : Record) (source result : State) (target : Option WidgetId)
    (column : Nat) : (repair r source result target).field column =
      if column = TraceColumn.target ∧ (target.isSome ∨ rawTarget r = "") then idText target
      else if column = TraceColumn.source then source.id.text
      else if column = TraceColumn.result then result.id.text
      else r.field column := by
  unfold repair
  cases target with
  | some id =>
    simp only [Record.field_setField, Option.isSome_some, true_or, and_true, idText,
      Option.map_some, Option.getD_some]
  | none =>
    by_cases hraw : rawTarget r = ""
    · simp only [hraw, if_true, Record.field_setField, or_true, and_true, idText, Option.map_none,
        Option.getD_none]
    · simp [hraw, Record.field_setField]

theorem repair_kept (r : Record) (source result : State) (target : Option WidgetId)
    {column : Nat} (h : 3 < column) :
    (repair r source result target).field column = r.field column := by
  have htarget : column ≠ TraceColumn.target := by unfold TraceColumn.target; omega
  have hsource : column ≠ TraceColumn.source := by unfold TraceColumn.source; omega
  have hresult : column ≠ TraceColumn.result := by unfold TraceColumn.result; omega
  simp only [repair_field, htarget, hsource, hresult, false_and, if_false]

theorem trim_idText {kind : Kind} (i : Option (Ident kind)) : trim (idText i) = idText i := by
  cases i with
  | none => rfl
  | some i => exact i.trim_text

theorem rawTarget_actionRow {sep : Char} (number : Nat) {a : Action} (ha : a.Legible sep) :
    rawTarget (actionRow sep number a) = idText a.target := by
  have hkind : (actionRow sep number a).field TraceColumn.action = a.kind.text := rfl
  have htarget : (actionRow sep number a).field TraceColumn.target = idText a.target := rfl
  rw [rawTarget, hkind, ha.kindText, htarget, trim_idText]
  split
  · rename_i hglobal
    rw [ha.target hglobal]
    rfl
  · rfl

theorem widgetNamed?_idText {g : Graph} {target : Option WidgetId}
    (h : ∀ w, target = some w → (g.widget? w).isSome = true) :
    g.widgetNamed? (idText target) = target := by
  cases target with
  | none => rfl
  | some w =>
    have htext : idText (some w) = w.text := rfl
    have hread : (Ident.read? w.text : Option WidgetId) = some w := w.read?_text
    simp only [Graph.widgetNamed?, htext, w.trim_text, w.text_ne_empty, if_false, hread, h w rfl,
      if_true]

/-- The repaired row has the ids that the row has already. -/
theorem diverges_actionRow {sep : Char} (number : Nat) {a : Action} {source result : State}
    (ha : a.Legible sep) (hsource : source.id = a.source) (hresult : result.id = a.result) :
    diverges (actionRow sep number a) (repair (actionRow sep number a) source result a.target) =
      false := by
  have hraw := rawTarget_actionRow number ha
  have hempty : a.target.isSome ∨ idText a.target = "" := by
    cases a.target with
    | none => exact .inr rfl
    | some w => exact .inl rfl
  have hs : trim ((actionRow sep number a).field TraceColumn.source) = a.source.text :=
    a.source.trim_text
  have hr : trim ((actionRow sep number a).field TraceColumn.result) = a.result.text :=
    a.result.trim_text
  have ht : trim ((actionRow sep number a).field TraceColumn.target) = idText a.target :=
    trim_idText a.target
  simp only [TraceColumn.source, TraceColumn.result, TraceColumn.target] at hs hr ht
  simp [diverges, repair_field, hraw, hempty, hs, hr, ht, hsource, hresult, TraceColumn.source,
    TraceColumn.result, TraceColumn.target]

theorem notesOf_actionRow {sep : Char} (number : Nat) {a : Action} {source result : State}
    (ha : a.Legible sep) (hsource : source.id = a.source) (hresult : result.id = a.result) :
    notesOf (actionRow sep number a)
      (repair (actionRow sep number a) source result a.target) a.target a.target = [] := by
  unfold notesOf
  rw [diverges_actionRow number ha hsource hresult, rawTarget_actionRow number ha]
  cases a.target with
  | none => rfl
  | some w => rfl

/-- A written action is resolved to itself, with flat texts, and there is nothing to note. -/
theorem resolve_actionRow {sep : Char} {s : Survey} (number : Nat) {a : Action}
    {source result : State} (ha : a.Legible sep)
    (hsettled : s.settled? a.source.text = some source) (hsource : source.id = a.source)
    (hresult : result.id = a.result)
    (htarget : ∀ w, a.target = some w →
      (s.graph.widget? w).isSome = true ∧ source.contains w = true) :
    resolve s a.index (actionRow sep number a) result = .ok ⟨a.flat, result, []⟩ := by
  have hsrc : trim ((actionRow sep number a).field TraceColumn.source) = a.source.text :=
    a.source.trim_text
  have hfound : s.graph.widgetNamed? (rawTarget (actionRow sep number a)) = a.target := by
    rw [rawTarget_actionRow number ha]
    exact widgetNamed?_idText fun w hw => (htarget w hw).1
  have hfilter : a.target.filter source.contains = a.target := by
    cases hw : a.target with
    | none => rfl
    | some w => rw [Option.filter_some, if_pos (htarget w hw).2]
  have hnotes := notesOf_actionRow number ha hsource hresult
  have hkind : ActionKind.read ((actionRow sep number a).field TraceColumn.action) = a.kind :=
    ha.kindText
  let repaired := repair (actionRow sep number a) source result a.target
  have hkept : ∀ column, 3 < column → repaired.field column =
      (actionRow sep number a).field column := by
    intro column h
    exact repair_kept _ _ _ _ h
  have hdata : repaired.field TraceColumn.data = flat a.data :=
    (hkept TraceColumn.data (by decide)).trans (sanitize_eq_flat ha.data)
  have hstarted : readInt64 (trim (repaired.field TraceColumn.started)) =
      readInt64 (trim (timeText a.started)) := by rw [hkept TraceColumn.started (by decide)]; rfl
  have hfinished : readInt64 (trim (repaired.field TraceColumn.finished)) =
      readInt64 (trim (timeText a.finished)) := by rw [hkept TraceColumn.finished (by decide)]; rfl
  have hsuccessful : readSuccess (repaired.field TraceColumn.successful) = a.successful := by
    rw [hkept TraceColumn.successful (by decide)]
    exact readSuccess_flagText _
  have hexception : repaired.field TraceColumn.exception = flat a.exception :=
    (hkept TraceColumn.exception (by decide)).trans (sanitize_eq_flat ha.exception)
  have hlogs : readLogs (repaired.field TraceColumn.deviceLogs) = a.deviceLogs := by
    rw [hkept TraceColumn.deviceLogs (by decide)]
    exact readLogs_writeStrings _
  simp only [resolve, hsrc, hsettled, hfound, hfilter, hnotes, hkind, hsource, hresult]
  simp only [repaired] at hdata hstarted hfinished hsuccessful hexception hlogs
  rw [hdata, hstarted, hfinished, hsuccessful, hexception, hlogs, readTime_timeText,
    readTime_timeText]
  rfl

end Load
end ScreenGraph
