import ScreenGraph.Text.Fields

/-!
# ScreenGraph.Files.Path

Paths as they are written. Joining works on the text and normalises nothing.
-/

namespace ScreenGraph
namespace Files

structure Path where
  text : String
deriving DecidableEq

namespace Path

def isAbsolute (p : Path) : Bool :=
  p.text.toList.head? = some '/'

/-- An absolute right side replaces the left one. No second slash is written after a slash. -/
def join (p : Path) (name : String) : Path :=
  if name.toList.head? = some '/' then ⟨name⟩
  else if p.text = "" ∨ p.text.toList.getLast? = some '/' then ⟨p.text ++ name⟩
  else ⟨p.text ++ "/" ++ name⟩

/-- The names between the slashes, with an empty one for every slash that has none beside it. -/
def parts (p : Path) : List String :=
  Text.splitAll p.text '/'

/-- The beginnings of a list that end in a name, the shortest first. -/
def leads : List String → List (List String)
  | [] => []
  | part :: parts =>
    (if part = "" ∨ part = "." then [] else [[part]]) ++ (leads parts).map (part :: ·)

/-- The path itself, and then those to what it lies in, the longest first. All but the path itself
end in a name. -/
def ancestors (p : Path) : List Path :=
  p :: (leads p.parts).dropLast.reverse.map fun parts => ⟨Text.join '/' parts⟩

end Path
end Files
end ScreenGraph
