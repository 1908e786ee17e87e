import ScreenGraph.Text.Blank
import ScreenGraph.Text.Fields

/-!
# ScreenGraph.Record.Layout

Records, the fields of one line, and the layouts of trace and state files.

Columns keep their place for ever: a later layout may only add columns at the end.
-/

namespace ScreenGraph
namespace Record

structure Layout where
  name : String
  header : List String
  /-- A line with fewer fields is malformed. -/
  minFields : Nat
deriving DecidableEq

namespace Layout

def fieldCount (l : Layout) : Nat :=
  l.header.length

def headerLine (l : Layout) (sep : Char) : String :=
  Text.join sep l.header

/-- Splits a line into at most as many fields as the layout has columns. -/
def split (l : Layout) (sep : Char) (line : String) : List String :=
  Text.split line sep l.fieldCount

def trace : Layout where
  name := "trace"
  header := ["Action", "SourceState", "ResultState", "TargetWidget", "Data", "StartTime", "EndTime",
    "Successful", "Exception", "DeviceLogs"]
  minFields := 4

def widget : Layout where
  name := "widget"
  header := ["Id", "Class", "ResourceId", "Package", "XPath", "Text", "Clickable", "LongClickable",
    "InputField", "Scrollable", "Parent", "Bounds"]
  minFields := 12

/-- Widget rows from before parents and bounds were recorded. -/
def legacyWidget : Layout :=
  { widget with name := "widget (legacy)", minFields := 10 }

end Layout

namespace TraceColumn

def action : Nat := 0
def source : Nat := 1
def result : Nat := 2
def target : Nat := 3
def data : Nat := 4
def started : Nat := 5
def finished : Nat := 6
def successful : Nat := 7
def exception : Nat := 8
def deviceLogs : Nat := 9

end TraceColumn

namespace WidgetColumn

def id : Nat := 0
def className : Nat := 1
def resourceId : Nat := 2
def packageName : Nat := 3
def xpath : Nat := 4
def text : Nat := 5
def clickable : Nat := 6
def longClickable : Nat := 7
def inputField : Nat := 8
def scrollable : Nat := 9
def parent : Nat := 10
def bounds : Nat := 11

end WidgetColumn

/-- Four spellings of a set flag; every other text is an unset one. -/
def readFlag (raw : String) : Bool :=
  ["true", "True", "TRUE", "1"].contains (Text.trim raw)

def flagText (b : Bool) : String :=
  if b then "true" else "false"

end Record

/-- The fields of one line of a record file. -/
structure Record where
  line : Nat
  fields : List String
deriving DecidableEq

namespace Record

/-- A missing trailing field is empty. -/
def field (r : Record) (column : Nat) : String :=
  r.fields.getD column ""

/-- Changes one field, after filling up with empty ones as far as needed. -/
def setField (r : Record) (column : Nat) (value : String) : Record :=
  { r with
    fields := (r.fields ++ List.replicate (column + 1 - r.fields.length) "").set column value }

theorem field_setField (r : Record) (column : Nat) (value : String) (c : Nat) :
    (r.setField column value).field c = if c = column then value else r.field c := by
  simp only [field, setField, List.getD_eq_getElem?_getD]
  by_cases h : c = column
  · subst h
    rw [List.getElem?_set_self (by simp; omega)]
    simp
  · rw [List.getElem?_set_ne (Ne.symm h), List.getElem?_append]
    simp only [h, if_false]
    split
    · rfl
    · next hc =>
      rw [List.getElem?_eq_none (l := r.fields) (by omega)]
      cases hg : (List.replicate (column + 1 - r.fields.length) "")[c - r.fields.length]? with
      | none => rfl
      | some s => simp [List.eq_of_mem_replicate (List.mem_of_getElem? hg)]

end Record
end ScreenGraph
