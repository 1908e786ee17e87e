import ScreenGraph.Identity.Ident
import ScreenGraph.Screen.Bounds

/-!
# ScreenGraph.Screen.Widget

Elements of the user interface.
-/

namespace ScreenGraph
namespace Screen

open Identity

structure Widget where
  id : WidgetId
  className : String
  resourceId : String
  packageName : String
  xpath : String
  text : String
  clickable : Bool
  longClickable : Bool
  inputField : Bool
  scrollable : Bool
  /-- The element that holds this one, when the same screen shows it. -/
  parent : Option WidgetId
  bounds : Bounds
deriving DecidableEq

namespace Widget

def key (w : Widget) : WidgetKey :=
  ⟨w.className, w.resourceId, w.packageName, w.xpath⟩

/-- The id recomputed from the structural parts. -/
def computedId (w : Widget) : WidgetId :=
  w.key.id

/-- Two sightings of one widget: the ids decide, whatever else differs. -/
def same (a b : Widget) : Bool :=
  a.id = b.id

end Widget
end Screen
end ScreenGraph
