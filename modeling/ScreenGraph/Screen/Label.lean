import ScreenGraph.Screen.State

/-!
# ScreenGraph.Screen.Label

The widget whose text names another one for a reader.

A widget with text names itself. Without text it is named by its only child with text, or by what
names its only child. Parent links come from recorded data and may run in circles, so the way down
is cut after as many steps as the state has widgets.
-/

namespace ScreenGraph
namespace Screen

/-- One step of the way down, `none` where it ends. -/
inductive LabelStep where
  | here
  | child (w : Widget)
  | below (w : Widget)

def labelStep (s : State) (w : Widget) : LabelStep :=
  if w.text ≠ "" then .here
  else
    let children := s.childrenOf w.id
    match children.filter (·.text ≠ ""), children with
    | [c], _ => .child c
    | _, [c] => .below c
    | _, _ => .here

def descend (s : State) : Nat → Widget → Widget
  | 0, w => w
  | budget + 1, w =>
    match labelStep s w with
    | .here => w
    | .child c => c
    | .below c => descend s budget c

def labelled (s : State) (w : Widget) : Widget :=
  descend s s.widgets.length w

end Screen
end ScreenGraph
