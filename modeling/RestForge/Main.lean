import RestForge.CommandLine.Program

/-!
# The command line

Reads the parts of the disk that a run can look at, runs the program on them, and puts what the run
changed back on the disk. The rules of a run are those of `CommandLine.program`.
-/

set_option autoImplicit false

namespace RestForge.CommandLine

open FileTree (Entry Place)

/-! ## From the disk -/

/-- A place as an entry of the root directory. -/
def onRoot (place : Place) : IO.FS.DirEntry := ⟨"/", String.intercalate "/" place⟩

def placePath (place : Place) : String := (onRoot place).path.toString

def placeOf (path : String) : Place := (FileTree.Path.pieces path).filter fun p => !p.isEmpty

def readLink (path : String) : IO String := do
  try return (← IO.FS.realPath path).toString
  catch _ => return path

/-- The entry at a place of the disk; places that hold neither file, link nor directory are left
out. -/
def diskEntry? (place : Place) : IO (Option Entry) := do
  try
    match (← (onRoot place).path.symlinkMetadata).type with
    | .dir => return some .directory
    | .file => return some (.file (← IO.FS.readBinFile (placePath place)).data)
    | .symlink => return some (.link (← readLink (placePath place)))
    | .other => return none
  catch _ => return none

def names (place : Place) : IO (List String) := do
  try return (← (onRoot place).path.readDir).toList.map fun e => e.fileName
  catch _ => return []

/-- Reads a place and everything below it. -/
partial def readBelow (t : FileTree) (place : Place) : IO FileTree := do
  match ← diskEntry? place with
  | none => return t
  | some .directory =>
    let t := if place.isEmpty then t else t.insert place .directory
    (← names place).foldlM (fun t name => readBelow t (place ++ [name])) t
  | some entry => return t.insert place entry

/-- Reads the places that a path runs through, and where it leads. -/
partial def readAlong (t : FileTree) (here : Place) (links : Nat) : List String → IO (FileTree × Place)
  | [] => return (t, here)
  | piece :: rest => do
    if FileTree.Path.isIdle piece then readAlong t here links rest
    else if piece = ".." then readAlong t here.dropLast links rest
    else
      let place := here ++ [piece]
      match ← diskEntry? place with
      | none => return (t, place)
      | some (.link target) =>
        let t := t.insert place (.link target)
        if links = 0 then return (t, place)
        else readAlong t [] (links - 1) (placeOf target ++ rest)
      | some entry => readAlong (t.insert place entry) place links rest

/-- Reads a path and everything below the place where it leads. -/
def readPath (t : FileTree) (path : String) : IO FileTree := do
  let start := if FileTree.Path.isAbsolute path then [] else t.workingDirectory
  let (t, place) ← readAlong t start FileTree.linkLimit (FileTree.Path.pieces path)
  readBelow t place

/-- The paths that a run with this configuration can look at or change. -/
def pathsOf (c : Run.Config) : List String :=
  [c.schemaRoot, c.outputRoot] ++ (c.report.map fun r => (FileTree.Path.parent? r).getD "").toList
    ++ c.report.toList ++ (c.report.map FileTree.Path.temporary).toList

/-! ## Back to the disk -/

def removeEntry (place : Place) : Entry → IO Unit
  | .directory => IO.FS.removeDir (placePath place)
  | _ => IO.FS.removeFile (placePath place)

/-- A file is moved to its place as a whole. -/
def putEntry (place : Place) : Entry → IO Unit
  | .directory => IO.FS.createDir (placePath place)
  | .file bytes => do
    let temporary := FileTree.Path.temporary (placePath place)
    IO.FS.writeBinFile temporary ⟨bytes⟩
    IO.FS.rename temporary (placePath place)
  | .link _ => pure ()

/-- Whatever is gone or of another kind is removed, inner entries first; then new and changed entries
are put in, outer ones first. -/
def writeBack (old new : FileTree) : IO Unit := do
  for (place, entry) in old.entries.reverse do
    match new.get? place, entry with
    | some .directory, .directory => pure ()
    | some (.file _), .file _ => pure ()
    | some (.link _), .link _ => pure ()
    | _, _ => removeEntry place entry
  for (place, entry) in new.entries do
    if old.get? place ≠ some entry then putEntry place entry

/-- A call of the program on the disk. -/
def onDisk (arguments : List String) : IO Answer := do
  let here := placeOf (← IO.currentDir).toString
  let paths := match readConfig arguments with
    | .ok config => pathsOf config
    | .error _ => []
  let old ← paths.foldlM readPath (FileTree.empty here)
  let (answer, new) := program arguments old
  writeBack old new
  return answer

end RestForge.CommandLine

def main (arguments : List String) : IO UInt32 := do
  let answer ← RestForge.CommandLine.onDisk arguments
  IO.print answer.output
  IO.eprint answer.errors
  return answer.exitCode.toUInt32
