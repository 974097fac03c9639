import RestForge.FileTree.Basic
import RestForge.FileTree.Fault
import RestForge.FileTree.Path

/-!
# Access to files by path

* `Spot`: where a path leads: to an entry, or to a free place in a directory that exists.
* `locate`: follows a path from the working directory, or from the root if it is absolute.
* `isDirectory`, `exists?`, `readText`: questions about a tree.
* `makeDirectory`, `makeDirectories`, `writeFile`, `rename`, `removeAll`, `makeLink`: changes. What
  was done before a fault stays done.
* `store`: how far a write gets, given what befalls it.
-/

set_option autoImplicit false

namespace RestForge.FileTree

/-! ## Following a path -/

inductive Spot where
  | found (place : Place) (entry : Entry)
  /-- A slash behind the last name asks for a directory. -/
  | free (place : Place) (asDirectory : Bool)
  deriving DecidableEq

/-- The number of links that one path may run through. -/
def linkLimit : Nat := 40

/-- The size of the longest name in bytes. -/
def nameLimit : Nat := 255

/-- Paths are shorter than this many bytes. -/
def pathLimit : Nat := 4096

/-- Follows the pieces of a path from a directory. A link on the way is always followed, one at the
end only if `follow` is set. -/
def walk (t : FileTree) (follow : Bool) (links : Nat) (here : Place) (todo : List String) :
    Except Fault Spot :=
  match todo with
  | [] => .ok (.found here .directory)
  | piece :: rest =>
    if Path.isIdle piece then walk t follow links here rest
    else if piece = ".." then walk t follow links here.dropLast rest
    else if nameLimit < piece.utf8ByteSize then .error .nameTooLong
    else
      let place := here ++ [piece]
      match t.get? place with
      | none =>
        if rest.all String.isEmpty then .ok (.free place !rest.isEmpty) else .error .notFound
      | some .directory => walk t follow links place rest
      | some (.file bytes) =>
        if rest.isEmpty then .ok (.found place (.file bytes)) else .error .notDirectory
      | some (.link target) =>
        if rest.isEmpty && !follow then .ok (.found place (.link target))
        else
          match links with
          | 0 => .error .tooManyLinks
          | links + 1 =>
            walk t follow links (if Path.isAbsolute target then [] else here)
              (Path.pieces target ++ rest)
termination_by (links, todo.length)

def locate (t : FileTree) (follow : Bool) (path : String) : Except Fault Spot :=
  if path.toList.contains '\x00' then .error .invalidName
  else if path.isEmpty then .error .notFound
  else if pathLimit ≤ path.utf8ByteSize then .error .nameTooLong
  else
    walk t follow linkLimit (if Path.isAbsolute path then [] else t.workingDirectory)
      (Path.pieces path)

/-! ## Questions -/

/-- The entry that a path leads to, links followed. -/
def entryAt? (t : FileTree) (path : String) : Option (Place × Entry) :=
  match t.locate true path with
  | .ok (.found place entry) => some (place, entry)
  | _ => none

def exists? (t : FileTree) (path : String) : Bool := (t.entryAt? path).isSome

/-- The place of a directory. -/
def directoryAt? (t : FileTree) (path : String) : Option Place :=
  match t.entryAt? path with
  | some (place, .directory) => some place
  | _ => none

def isDirectory (t : FileTree) (path : String) : Bool := (t.directoryAt? path).isSome

def readBytes (t : FileTree) (path : String) : Except Fault (Array UInt8) := do
  match ← t.locate true path with
  | .found _ (.file bytes) => .ok bytes
  | .found _ _ => .error .isDirectory
  | .free _ _ => .error .notFound

def readText (t : FileTree) (path : String) : Except Fault String := do
  match String.fromUTF8? ⟨← t.readBytes path⟩ with
  | some text => .ok text
  | none => .error .notText

/-! ## Changes -/

abbrev Access := ExceptT Fault (StateM FileTree)

def look (follow : Bool) (path : String) : Access Spot :=
  fun t => (t.locate follow path, t)

/-- The last piece of the path names the new directory, so that a path ending in a dot or two dots
means a directory that is already there. -/
def makeDirectory (path : String) : Access Unit := do
  match ← look false path with
  | .found _ _ => throw .exists
  | .free place _ => modify fun t => t.insert place .directory

/-- A fault does not matter where the directory is there all the same. -/
def unlessDirectory (path : String) (fault : Fault) : Access Unit := do
  unless (← get).isDirectory path do throw fault

/-- Makes the first of the directories; those after it are its ancestors, nearest first, and are made
before it where they are missing. -/
def makeDirectoryIn : List String → Access Unit
  | [] => pure ()
  | path :: outer =>
    tryCatch (makeDirectory path) fun
      | .notFound => do
        makeDirectoryIn outer
        tryCatch (makeDirectory path) (unlessDirectory path)
      | fault => unlessDirectory path fault

def makeDirectories (path : String) : Access Unit := makeDirectoryIn (Path.ancestors path)

/-- What befalls the next write. -/
def mishap? (t : FileTree) : Option Mishap := t.mishaps.head?.join

/-- The tree in which the next write is over. -/
def afterWrite (t : FileTree) : FileTree := { t with mishaps := t.mishaps.tail }

/-- Stores bytes in a place. The file is emptied before the first byte is stored, and stays with the bytes
that were stored until a fault arose. -/
def store (place : Place) (bytes : Array UInt8) : Access Unit := fun t =>
  match t.mishap? with
  | none => (.ok (), t.afterWrite.insert place (.file bytes))
  | some (.refused fault) => (.error fault, t.afterWrite)
  | some (.cutShort size fault) =>
    if bytes.size ≤ size then (.ok (), t.afterWrite.insert place (.file bytes))
    else (.error fault, t.afterWrite.insert place (.file (bytes.take size)))

/-- Replaces the contents of a file, or makes the file. A link is written through. -/
def writeFile (path : String) (bytes : Array UInt8) : Access Unit := do
  match ← look true path with
  | .found _ .directory => throw .isDirectory
  | .found place _ => store place bytes
  | .free place asDirectory => if asDirectory then throw .isDirectory else store place bytes

/-- The path without slashes at its end. -/
def dropSlashes (path : String) : String := Text.trimEndWhere (· == '/') path

/-- Why nothing can be moved to the place of a directory, given how its path is written. -/
def occupied (target : String) : Fault :=
  match (Path.pieces (dropSlashes target)).getLast? with
  | some "." => .busy
  | some ".." => .busy
  | _ => if dropSlashes target = target then .isDirectory else .notDirectory

/-- Moves a file or a link, links not followed. It takes the place of a file or a link, never of a
directory, and the new path does not ask for one. A file has one name, so that two paths lead to one file
only if they lead to one place. -/
def rename (path target : String) : Access Unit := do
  match ← look false path with
  | .free _ _ => throw .notFound
  | .found _ .directory => throw .isDirectory
  | .found place entry =>
    match ← look false (dropSlashes target) with
    | .found _ .directory => throw (occupied target)
    | .found goal _ => moveTo place entry goal target
    | .free goal _ => moveTo place entry goal target
where
  moveTo (place : Place) (entry : Entry) (goal : Place) (target : String) : Access Unit :=
    if dropSlashes target = target then modify fun t => (t.erase place).insert goal entry
    else throw .notDirectory

/-- Removes a directory with everything in it, or a link; what the link leads to stays. -/
def removeAll (path : String) : Access Unit := do
  match ← look false path with
  | .found place (.link _) => modify fun t => t.erase place
  | .found place .directory => modify fun t => t.eraseBelow place
  | .found _ (.file _) => throw .notDirectory
  | .free _ _ => throw .notFound

def makeLink (target path : String) : Access Unit := do
  match ← look false path with
  | .found _ _ => throw .exists
  | .free place _ => modify fun t => t.insert place (.link target)

end RestForge.FileTree
