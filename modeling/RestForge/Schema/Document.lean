import RestForge.FileTree.Access
import RestForge.Json.Reader
import RestForge.Schema.Error

/-!
# Schema files

* `SchemaFile`: a file found below the schema root.
* `isAside`: names of files that describe a collection and no resource.
* `discover`: every schema file below a directory, in order.
* `documentOfText`, `load`: the document in a file.
-/

set_option autoImplicit false

namespace RestForge.Schema

open FileTree (Fault)

/-! ## Discovery -/

/-- The path of a file as shown to the user, and its names from the schema root. -/
structure SchemaFile where
  path : String
  names : List String
  deriving Repr, DecidableEq

/-- Hidden and shared files, indices and manifests. -/
def isAside (name : String) : Bool :=
  name.toList.head? == some '_' || name.toList.head? == some '.' || name == "index.json"
    || name == "manifest.json"

namespace SchemaFile

def name (f : SchemaFile) : String := f.names.getLastD ""

/-- The path below the schema root. -/
def relative (f : SchemaFile) : String := String.intercalate "/" f.names

/-- A skipped file is listed and not read. -/
def isSkipped (f : SchemaFile) : Bool := isAside f.name

end SchemaFile

def isSchemaName (name : String) : Bool := FileTree.Path.extension? name == some "json"

/-- The schema files below the directory that `root` leads to, if it leads to one. Links below it are
no files. Every directory below it can be listed: the walk through them is assumed to go through, and the
failure of a walk that does not is left out. -/
def discover (t : FileTree) (root : String) : Option (List SchemaFile) :=
  (t.directoryAt? root).map fun directory =>
    ((t.filesBelow directory).filter fun names => isSchemaName (names.getLastD "")).map fun names =>
      ⟨FileTree.Path.join root names, names⟩

/-! ## Loading -/

/-- A document is an object. -/
def documentOfText (path text : String) : Except SchemaError Json :=
  match Json.parse text with
  | .error e => .error (.notJson path e)
  | .ok (.object members) => .ok (.object members)
  | .ok other => .error (.refused path (.notObject other.kind))

def load (t : FileTree) (path : String) : Except SchemaError Json :=
  match t.readText path with
  | .error fault => .error (.unreadable path fault)
  | .ok text => documentOfText path text

end RestForge.Schema
