import ScreenGraph.Identity.Sha1
import ScreenGraph.Identity.Uuid
import ScreenGraph.Sorting
import ScreenGraph.Text.Blank
import ScreenGraph.Text.Utf8

/-!
# ScreenGraph.Identity.Ident

Ids of widgets, states and traces, and the structural identities of widgets and states.

A widget is identified by the digest of its four structural parts, a state by the digest of the ids
of its widgets in ascending order. What is digested (`WidgetKey.bytes`, `StateId.bytes`) is a
definition of its own, so that two things can be told apart up to a collision of the digest.

* `StateId.ofWidgets_nil`: the state without widgets has the identity `StateId.empty`.
-/

namespace ScreenGraph
namespace Identity

inductive Kind where
  | widget
  | state
  | trace
deriving DecidableEq

structure Ident (kind : Kind) where
  uuid : Uuid
deriving DecidableEq

namespace Ident

variable {kind : Kind}

def text (i : Ident kind) : String :=
  i.uuid.text

/-- Reads an id with blanks around it. -/
def read? (raw : String) : Option (Ident kind) :=
  (Uuid.read? (Text.trim raw)).map .mk

def le (a b : Ident kind) : Bool :=
  a.uuid.le b.uuid

theorem le_trans (a b c : Ident kind) (h : le a b = true) (h' : le b c = true) : le a c = true :=
  Uuid.le_trans _ _ _ h h'

theorem le_total (a b : Ident kind) : le a b = true ∨ le b a = true :=
  Uuid.le_total _ _

theorem le_antisymm (a b : Ident kind) (h : le a b = true) (h' : le b a = true) : a = b := by
  obtain ⟨_⟩ := a
  obtain ⟨_⟩ := b
  cases Uuid.le_antisymm _ _ h h'
  rfl

end Ident

abbrev WidgetId := Ident .widget
abbrev StateId := Ident .state
abbrev TraceId := Ident .trace

/-- The first sixteen bytes of the digest. -/
def fingerprint (bytes : List UInt8) : Uuid where
  bytes := (Sha1.digest bytes).take 16
  length_eq := by simp

/-- The structural parts of a widget. What it shows is not among them. -/
structure WidgetKey where
  className : String
  resourceId : String
  packageName : String
  xpath : String
deriving DecidableEq

namespace WidgetKey

/-- Each part in UTF-8, closed by a unit separator. -/
def bytes (k : WidgetKey) : List UInt8 :=
  [k.className, k.resourceId, k.packageName, k.xpath].flatMap fun part =>
    Text.utf8 part ++ [0x1F]

def id (k : WidgetKey) : WidgetId :=
  ⟨fingerprint k.bytes⟩

end WidgetKey

namespace StateId

/-- The distinct widget ids in ascending order, sixteen bytes each. -/
def bytes (ids : List WidgetId) : List UInt8 :=
  (distinct Ident.le ids).flatMap (·.uuid.bytes)

/-- The identity of a set of widgets. -/
def ofWidgets (ids : List WidgetId) : StateId :=
  ⟨fingerprint (bytes ids)⟩

def empty : StateId :=
  ⟨[0xDA, 0x39, 0xA3, 0xEE, 0x5E, 0x6B, 0x4B, 0x0D, 0x32, 0x55, 0xBF, 0xEF, 0x95, 0x60, 0x18, 0x90],
    rfl⟩

theorem ofWidgets_nil : ofWidgets [] = empty := by
  decide +kernel

end StateId
end Identity
end ScreenGraph
