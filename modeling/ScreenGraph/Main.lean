import ScreenGraph.Command.Run

/-!
# ScreenGraph.Main

The program. It takes from the disk the part that a command can see, carries the command out on that
part as a value, and writes back what has changed.
-/

namespace ScreenGraph

open Files Load Command

def diskPath (pos : Position) : String :=
  "/" ++ Text.join '/' pos

/-- What is on the disk at a position, without the content of files unless it is asked for. -/
def nodeOnDisk (withContent : Bool) (pos : Position) : IO (Option Node) := do
  try
    let path ← IO.FS.realPath (diskPath pos)
    if ← path.isDir then return some .directory
    else if !(← path.pathExists) then return none
    else if withContent then return some (.file (← IO.FS.readBinFile path).toList)
    else return some (.file [])
  catch _ => return none

/-- Takes over everything that the names lead through from a position on, or would lead through if
what is missing were there. -/
def lookAlong (t : Tree) (pos : Position) : List String → IO Tree
  | [] => return t
  | name :: names => do
    if name = "" || name = "." then lookAlong t pos names
    else if name = ".." then lookAlong t pos.dropLast names
    else
      match ← nodeOnDisk true (pos ++ [name]) with
      | none => lookAlong t (pos ++ [name]) names
      | some .directory => lookAlong (t.place (pos ++ [name]) .directory) (pos ++ [name]) names
      | some file => return t.place (pos ++ [name]) file

def lookAt (t : Tree) (p : Path) : IO Tree :=
  if (Tree.pathError? p).isSome then return t else lookAlong t (t.start p) p.parts

/-- Takes over the names in a directory. What is known already stays. -/
def lookInto (t : Tree) (p : Path) : IO Tree := do
  let t ← lookAt t p
  match t.follow p p.parts with
  | .error _ => return t
  | .ok pos =>
    if !t.isDirectory pos then return t
    let entries ← (← IO.FS.realPath (diskPath pos)).readDir
    entries.foldlM (fun t e => do
      match t.node? (pos ++ [e.fileName]), ← nodeOnDisk false (pos ++ [e.fileName]) with
      | none, some node => return t.place (pos ++ [e.fileName]) node
      | _, _ => return t) t

/-- Everything that carrying out a command may read or replace. -/
def surroundings (i : Invocation) (t : Tree) : IO Tree := do
  let t ← lookAt t ⟨i.config.getD defaultConfig⟩
  match i.settings t with
  | .error _ => return t
  | .ok settings =>
    let t ← lookInto t settings.baseDir
    let (sources, _) := discover settings ((t.list settings.baseDir).toOption.getD [])
    let t ← (sources.map (·.path)).foldlM lookAt t
    let t ← (sources.flatMap (stateFiles settings t)).foldlM lookAt t
    match i.task with
    | .load _ none => return t
    | .load _ (some dir) => lookInto t dir
    | .dump out => [out, ({ settings with baseDir := out } : Settings).statesPath].foldlM lookInto t

def writeBack (old new : Tree) : IO Unit :=
  new.nodes.reverse.forM fun (pos, node) => do
    if old.node? pos ≠ some node then
      match node with
      | .directory => IO.FS.createDirAll (diskPath pos)
      | .file content => IO.FS.writeBinFile (diskPath pos) ⟨content.toArray⟩

def perform (i : Invocation) : IO UInt32 := do
  let cwd := (Text.splitAll (← IO.currentDir).toString '/').filter (· ≠ "")
  let old ← lookAlong ⟨cwd, []⟩ [] cwd
  let old ← surroundings i old
  let o := i.run old
  writeBack old o.files
  IO.print o.stdout
  IO.eprint o.stderr
  match o.result with
  | .ok _ => pure ()
  | .error e => IO.eprintln s!"Error: {e.message}"
  return UInt32.ofNat o.exitCode

end ScreenGraph

open ScreenGraph in
def main (args : List String) : IO UInt32 := do
  match Command.readArguments args with
  | .ok i => perform i
  | .error r =>
    IO.print r.stdout
    IO.eprint r.stderr
    return UInt32.ofNat r.exitCode
