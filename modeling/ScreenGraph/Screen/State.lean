import ScreenGraph.Screen.Widget

/-!
# ScreenGraph.Screen.State

A state of the user interface: the widgets on screen, each once, in the order they were seen.

* `firstSightings_pairwise`, `mem_ids_firstSightings`: the first widget of every id is kept.
-/

namespace ScreenGraph
namespace Screen

open Identity

structure State where
  id : StateId
  widgets : List Widget
  home : Bool
deriving DecidableEq

/-- Drops every widget whose id was seen before. -/
def firstSightings : List Widget → List Widget
  | [] => []
  | w :: ws => w :: (firstSightings ws).filter (·.id ≠ w.id)

def occursIn (word : List Char) : List Char → Bool
  | [] => word.isEmpty
  | c :: cs => word.isPrefixOf (c :: cs) || occursIn word cs

/-- Compares in lower case for the ASCII letters. No other character has one of the letters of
`launcher` as its lower case, so this decides whether a name holds that word in any case. -/
def holdsLauncher (packageName : String) : Bool :=
  occursIn "launcher".toList (packageName.toList.map Char.toLower)

namespace State

/-- The state that shows the widgets. It is the home screen if one of them belongs to a launcher. -/
def ofWidgets (ws : List Widget) : State :=
  let widgets := firstSightings ws
  { id := StateId.ofWidgets (widgets.map (·.id))
    widgets
    home := widgets.any fun w => holdsLauncher w.packageName }

/-- The placeholder from which every trace starts. -/
def empty : State :=
  ⟨StateId.empty, [], false⟩

def isEmpty (s : State) : Bool :=
  s.id = StateId.empty

def widget? (s : State) (id : WidgetId) : Option Widget :=
  s.widgets.find? (·.id = id)

def contains (s : State) (id : WidgetId) : Bool :=
  (s.widget? id).isSome

def childrenOf (s : State) (parent : WidgetId) : List Widget :=
  s.widgets.filter (·.parent = some parent)

/-- One state seen twice: the ids decide. -/
def same (a b : State) : Bool :=
  a.id = b.id

end State

theorem mem_firstSightings {w : Widget} {ws : List Widget} (h : w ∈ firstSightings ws) :
    w ∈ ws := by
  induction ws with
  | nil => exact h
  | cons a ws ih =>
    rcases List.mem_cons.1 h with rfl | h
    · exact List.mem_cons_self
    · exact List.mem_cons_of_mem _ (ih (List.mem_filter.1 h).1)

theorem firstSightings_pairwise (ws : List Widget) :
    (firstSightings ws).Pairwise fun a b => a.id ≠ b.id := by
  induction ws with
  | nil => exact .nil
  | cons w ws ih =>
    refine List.pairwise_cons.2 ⟨fun b hb => ?_, ih.filter _⟩
    have : b.id ≠ w.id := by simpa using (List.mem_filter.1 hb).2
    exact this.symm

theorem mem_ids_firstSightings {id : WidgetId} {ws : List Widget} :
    id ∈ (firstSightings ws).map (·.id) ↔ id ∈ ws.map (·.id) := by
  constructor
  · intro h
    obtain ⟨w, hw, rfl⟩ := List.mem_map.1 h
    exact List.mem_map_of_mem (mem_firstSightings hw)
  · intro h
    induction ws with
    | nil => exact h
    | cons w ws ih =>
      rw [firstSightings, List.map_cons]
      by_cases hid : id = w.id
      · exact hid ▸ List.mem_cons_self
      · rcases List.mem_cons.1 h with h | h
        · exact absurd h hid
        · obtain ⟨a, ha, rfl⟩ := List.mem_map.1 (ih h)
          exact List.mem_cons_of_mem _
            (List.mem_map_of_mem (List.mem_filter.2 ⟨ha, by simpa using hid⟩))

end Screen
end ScreenGraph
