import RestForge.FileTree.Fault
import RestForge.KeyedList

/-!
# File trees

* `Entry`: what stands at a place: a file with its bytes, a link, or a directory.
* `FileTree`: entries by place, in increasing order, the directory where relative paths start, and what
  befalls the writes to come.
* `get?`, `insert`, `erase`, `eraseBelow`: look-up and change of entries.
* `filesBelow`: the plain files below a directory, in order.

A place is the list of the names that lead to it from the root. Places are compared name by name, so
that the entries of a directory follow it in the order of their names.

Every file has one name: there is no second name under which the same file is written or moved. Left out,
too, are devices and whatever else is neither file, link nor directory, permissions, names that are no
Unicode text, and other programs at work. Storing bytes is the only access that can fail for a reason that
is not found in the tree, such as a full disk: the file is not opened, or the write breaks off half-way.
-/

set_option autoImplicit false

namespace RestForge

inductive FileTree.Entry where
  | file (bytes : Array UInt8)
  | link (target : String)
  | directory
  deriving DecidableEq

/-- Names from the root. -/
abbrev FileTree.Place := List String

structure FileTree where
  workingDirectory : FileTree.Place
  entries : List (FileTree.Place × FileTree.Entry)
  /-- What befalls the writes to come, in turn; nothing befalls those after them. -/
  mishaps : List (Option FileTree.Mishap)
  deriving DecidableEq

namespace FileTree

/-- The root is always there. -/
def get? (t : FileTree) (place : Place) : Option Entry :=
  match place with
  | [] => some .directory
  | _ :: _ => KeyedList.get? t.entries place

def insert (t : FileTree) (place : Place) (entry : Entry) : FileTree :=
  { t with entries := KeyedList.insert place entry t.entries }

def erase (t : FileTree) (place : Place) : FileTree :=
  { t with entries := t.entries.filter fun e => e.1 ≠ place }

/-- Removes a place and everything below it. -/
def eraseBelow (t : FileTree) (place : Place) : FileTree :=
  { t with entries := t.entries.filter fun e => !place.isPrefixOf e.1 }

/-- The entries of a tree that holds one directory and the directories above it. -/
def directoriesTo (directory : Place) : List (Place × Entry) :=
  (List.range directory.length).map fun n => (directory.take (n + 1), .directory)

/-- A tree that holds its working directory and nothing else. -/
def empty (workingDirectory : Place) : FileTree :=
  ⟨workingDirectory, directoriesTo workingDirectory, []⟩

/-- What leads from a directory to a place below it. -/
def relative? (directory place : Place) : Option Place :=
  if directory.isPrefixOf place && directory.length < place.length then
    some (place.drop directory.length)
  else none

/-- The entries below a directory, each with its path from there. -/
def below (t : FileTree) (directory : Place) : List (Place × Entry) :=
  t.entries.filterMap fun e => (relative? directory e.1).map fun path => (path, e.2)

def filesBelow (t : FileTree) (directory : Place) : List Place :=
  (t.below directory).filterMap fun e =>
    match e.2 with
    | .file _ => some e.1
    | _ => none

end FileTree

end RestForge
