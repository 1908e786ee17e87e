import ScreenGraph.Text.Blank
import ScreenGraph.Text.Fields
import ScreenGraph.Text.Integer

/-!
# ScreenGraph.Screen.Bounds

Screen rectangles in device pixels, written `x:y:w:h`.
-/

namespace ScreenGraph
namespace Screen

open Text

structure Bounds where
  x : Int32
  y : Int32
  width : Int32
  height : Int32
deriving DecidableEq

inductive BoundsError where
  | shape (raw : String)
  | part (raw : String) (error : IntegerError)
deriving DecidableEq

def BoundsError.message : BoundsError → String
  | .shape raw => s!"expected x:y:w:h, got '{raw}'"
  | .part raw error => s!"{raw}: {error.message}"

namespace Bounds

def zero : Bounds :=
  ⟨0, 0, 0, 0⟩

def readPart (raw : String) : Except BoundsError Int32 :=
  (readInt32 (trim raw)).mapError (.part raw)

/-- Four numbers between colons, with blanks around each. The first bad part decides the error. -/
def read (raw : String) : Except BoundsError Bounds :=
  match splitAll (trim raw) ':' with
  | [x, y, width, height] => do
    return ⟨← readPart x, ← readPart y, ← readPart width, ← readPart height⟩
  | _ => .error (.shape raw)

def text (b : Bounds) : String :=
  join ':' ([b.x, b.y, b.width, b.height].map fun n => integerText n.toInt)

end Bounds
end Screen
end ScreenGraph
