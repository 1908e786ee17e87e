import ScreenGraph.Identity.Ident

/-!
# ScreenGraph.Graph.Action

Recorded interactions and their kinds.
-/

namespace ScreenGraph
namespace Graph

open Identity

inductive ActionKind where
  | click
  | longClick
  | textInsert
  | swipe
  | pressBack
  | pressHome
  | launchApp
  | terminate
  | fetchState
  | other (name : String)
deriving DecidableEq

namespace ActionKind

def named : List (String × ActionKind) :=
  [("Click", click), ("LongClick", longClick), ("TextInsert", textInsert), ("Swipe", swipe),
    ("PressBack", pressBack), ("PressHome", pressHome), ("LaunchApp", launchApp),
    ("Terminate", terminate), ("FetchState", fetchState)]

def text : ActionKind → String
  | click => "Click"
  | longClick => "LongClick"
  | textInsert => "TextInsert"
  | swipe => "Swipe"
  | pressBack => "PressBack"
  | pressHome => "PressHome"
  | launchApp => "LaunchApp"
  | terminate => "Terminate"
  | fetchState => "FetchState"
  | other name => name

/-- A text that names no known kind is a kind of its own. -/
def read (raw : String) : ActionKind :=
  let name := Text.trim raw
  (named.lookup name).getD (other name)

/-- Global actions concern the device or the app and never have a target widget. -/
def isGlobal : ActionKind → Bool
  | pressBack | pressHome | launchApp | terminate | fetchState => true
  | _ => false

def isClick : ActionKind → Bool
  | click | longClick => true
  | _ => false

def rank : ActionKind → Nat
  | click => 0
  | longClick => 1
  | textInsert => 2
  | swipe => 3
  | pressBack => 4
  | pressHome => 5
  | launchApp => 6
  | terminate => 7
  | fetchState => 8
  | other _ => 9

/-- The known kinds in their order, then the others by name. -/
def le (a b : ActionKind) : Bool :=
  match a, b with
  | other m, other n => lexLe Char.toNat m.toList n.toList
  | _, _ => a.rank ≤ b.rank

theorem read_text_of_named {name : String} {kind : ActionKind} (h : (name, kind) ∈ named) :
    read kind.text = kind := by
  simp only [named, List.mem_cons, Prod.mk.injEq, List.not_mem_nil, or_false] at h
  rcases h with ⟨_, rfl⟩ | ⟨_, rfl⟩ | ⟨_, rfl⟩ | ⟨_, rfl⟩ | ⟨_, rfl⟩ | ⟨_, rfl⟩ | ⟨_, rfl⟩ |
    ⟨_, rfl⟩ | ⟨_, rfl⟩ <;> decide +kernel

end ActionKind

/-- One committed interaction. All ids are canonical. -/
structure Action where
  /-- Position among the records of the trace file. -/
  index : Nat
  kind : ActionKind
  source : StateId
  result : StateId
  target : Option WidgetId
  data : String
  /-- Milliseconds. -/
  started : Option Int64
  finished : Option Int64
  successful : Bool
  exception : String
  deviceLogs : List String
deriving DecidableEq

end Graph
end ScreenGraph
