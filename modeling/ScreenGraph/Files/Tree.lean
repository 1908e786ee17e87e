import ScreenGraph.Files.Path
import ScreenGraph.Sorting
import ScreenGraph.Text.Utf8

/-!
# ScreenGraph.Files.Tree

A tree of files and directories as a value, with the operations of an operating system on it.

A position is the list of names from the root. A path is followed name by name from the root or
from the working directory, through directories that exist; what it leads to need not exist.

* `node?_place_self`, `node?_place_of_ne`: what placing a node does to every position.
-/

namespace ScreenGraph
namespace Files

inductive Node where
  | file (content : List UInt8)
  | directory
deriving DecidableEq

/-- Why the operating system refuses. -/
inductive OsError where
  | notFound
  | alreadyExists
  | notDirectory
  | isDirectory
  | nameTooLong
  | nulInPath
deriving DecidableEq

def OsError.message : OsError → String
  | .notFound => "No such file or directory (os error 2)"
  | .alreadyExists => "File exists (os error 17)"
  | .notDirectory => "Not a directory (os error 20)"
  | .isDirectory => "Is a directory (os error 21)"
  | .nameTooLong => "File name too long (os error 36)"
  | .nulInPath => "file name contained an unexpected NUL byte"

abbrev Position := List String

structure Tree where
  /-- The working directory. -/
  cwd : Position
  nodes : List (Position × Node)
deriving DecidableEq

namespace Tree

/-- An empty working directory right under the root. -/
def empty : Tree :=
  ⟨["work"], [(["work"], .directory)]⟩

/-- The root is always there. -/
def node? (t : Tree) (pos : Position) : Option Node :=
  if pos = [] then some .directory else t.nodes.lookup pos

def isDirectory (t : Tree) (pos : Position) : Bool :=
  t.node? pos = some .directory

/-- Puts a node at a position, in place of what was there. -/
def place (t : Tree) (pos : Position) (n : Node) : Tree :=
  { t with nodes := (pos, n) :: t.nodes.filter (·.1 ≠ pos) }

def remove (t : Tree) (pos : Position) : Tree :=
  { t with nodes := t.nodes.filter (·.1 ≠ pos) }

/-- Follows names from a position. -/
def walk (t : Tree) (pos : Position) : List String → Except OsError Position
  | [] => .ok pos
  | name :: names =>
    match t.node? pos with
    | none => .error .notFound
    | some (.file _) => .error .notDirectory
    | some .directory =>
      if name = "" ∨ name = "." then walk t pos names
      else if name = ".." then walk t pos.dropLast names
      else if name.utf8ByteSize > 255 then .error .nameTooLong
      else walk t (pos ++ [name]) names

def start (t : Tree) (p : Path) : Position :=
  if p.isAbsolute then [] else t.cwd

/-- What no path may be: empty, with a NUL in it, or of 4096 bytes and more. -/
def pathError? (p : Path) : Option OsError :=
  if p.text.toList.contains '\x00' then some .nulInPath
  else if p.text = "" then some .notFound
  else if p.text.utf8ByteSize > 4095 then some .nameTooLong
  else none

def follow (t : Tree) (p : Path) (names : List String) : Except OsError Position :=
  match pathError? p with
  | some e => .error e
  | none => t.walk (t.start p) names

/-- The node that a path leads to. -/
def find (t : Tree) (p : Path) : Except OsError Node :=
  match t.follow p p.parts with
  | .error e => .error e
  | .ok pos =>
    match t.node? pos with
    | none => .error .notFound
    | some n => .ok n

/-- Whether a path surely leads to something: no answer counts as no. -/
def exists? (t : Tree) (p : Path) : Bool :=
  (t.find p).toOption.isSome

/-- The names in a directory, in the order of their code points. -/
def list (t : Tree) (p : Path) : Except OsError (List String) :=
  match t.follow p p.parts with
  | .error e => .error e
  | .ok pos =>
    match t.node? pos with
    | none => .error .notFound
    | some (.file _) => .error .notDirectory
    | some .directory =>
      let names := t.nodes.filterMap fun (q, _) =>
        if q.dropLast = pos then q.getLast? else none
      .ok (sortBy (fun a b => lexLe Char.toNat a.toList b.toList) names)

/-- Creates a directory in one that exists. Slashes behind its name do not count. -/
def makeDirectory (t : Tree) (p : Path) : Except OsError Tree :=
  match t.follow p (p.parts.reverse.dropWhile (· = "")).reverse with
  | .error e => .error e
  | .ok pos =>
    match t.node? pos with
    | some _ => .error .alreadyExists
    | none => .ok (t.place pos .directory)

/-- Like `makeDirectory`, but a directory that is there already will do. -/
def ensureDirectory (t : Tree) (p : Path) : Except OsError Tree :=
  match t.makeDirectory p with
  | .error .alreadyExists =>
    match t.find p with
    | .ok .directory => .ok t
    | _ => .error .alreadyExists
  | answer => answer

/-- Creates the first of some directories that each lie in the next one, after those it lacks. What
was created before a failure stays. -/
def createDown (t : Tree) : List Path → Tree × Except OsError Unit
  | [] => (t, .ok ())
  | p :: above =>
    match t.ensureDirectory p with
    | .ok t => (t, .ok ())
    | .error .notFound =>
      match t.createDown above with
      | (t, .error e) => (t, .error e)
      | (t, .ok ()) =>
        match t.ensureDirectory p with
        | .ok t => (t, .ok ())
        | .error e => (t, .error e)
    | .error e => (t, .error e)

/-- Creates a directory and those above it. An empty path asks for nothing. -/
def createAll (t : Tree) (p : Path) : Tree × Except OsError Unit :=
  if p.text = "" then (t, .ok ())
  else
    match pathError? p with
    | some e => (t, .error e)
    | none => t.createDown p.ancestors

/-- Writes a file, in place of one of that name. -/
def write (t : Tree) (p : Path) (content : List UInt8) : Except OsError Tree :=
  match t.follow p p.parts with
  | .error e => .error e
  | .ok pos =>
    match t.node? pos with
    | some .directory => .error .isDirectory
    | _ => .ok (t.place pos (.file content))

/-- The text of a file, if it can be read as one. -/
def readText? (t : Tree) (p : Path) : Option String :=
  match t.find p with
  | .ok (.file content) => (Text.decode content).toOption
  | _ => none

/-- The files of the working directory that `old` does not have, or has with another content, with
their paths below it. -/
def changedSince (t old : Tree) : List (String × List UInt8) :=
  t.nodes.filterMap fun (q, n) =>
    match n with
    | .directory => none
    | .file content =>
      if t.cwd.isPrefixOf q && old.node? q ≠ some n then
        some (Text.join '/' (q.drop t.cwd.length), content)
      else none

theorem node?_place_self {t : Tree} {pos : Position} (n : Node) (h : pos ≠ []) :
    (t.place pos n).node? pos = some n := by
  simp [node?, place, h]

theorem node?_place_of_ne {t : Tree} {pos q : Position} (n : Node) (h : q ≠ pos) :
    (t.place pos n).node? q = t.node? q := by
  unfold node? place
  split
  · rfl
  · have hb : (q == pos) = false := by simpa using h
    simp only [List.lookup_cons, hb]
    induction t.nodes with
    | nil => rfl
    | cons e es ih =>
      obtain ⟨a, b⟩ := e
      by_cases ha : a = pos
      · have hq : (q == a) = false := by simpa [ha] using h
        simpa [ha, List.lookup_cons, hb] using ih
      · by_cases hp : q = a
        · subst hp; simp [ha]
        · have hq : (q == a) = false := by simpa using hp
          simpa [ha, List.lookup_cons, hq] using ih

end Tree
end Files
end ScreenGraph
