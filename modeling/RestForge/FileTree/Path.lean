import RestForge.Text.Split

/-!
# Path texts

A path is kept as the text it was given as, since messages show it that way; its meaning lies in the
pieces between the slashes. Empty pieces and single dots after the first piece mean nothing.

* `Path.join`: a path below another.
* `Path.parent?`, `Path.ancestors`: the directories that a path runs through.
* `Path.fileName?`, `Path.extension?`: the last name of a path, and what follows the last dot in a
  name.
* `Path.temporary`: the file that is written before it takes the place of another.
-/

set_option autoImplicit false

namespace RestForge.FileTree.Path

open Text (split)

/-! ## Pieces -/

def pieces (path : String) : List String := split '/' path

def isAbsolute (path : String) : Bool := path.toList.head? == some '/'

def ofPieces (ps : List String) : String := String.intercalate "/" ps

/-- A piece that leads nowhere. -/
def isIdle (piece : String) : Bool := piece.isEmpty || piece == "."

/-- Removes idle pieces from the end; the first piece of all stays. -/
def dropIdleEnd : List String → List String
  | [] => []
  | first :: rest => first :: (rest.reverse.dropWhile isIdle).reverse

/-! ## Going down -/

/-- There is one slash between the path and the name, and none in front of a lone name. -/
def push (path name : String) : String :=
  if path.isEmpty || path.toList.getLast? == some '/' then path ++ name else path ++ "/" ++ name

def join (path : String) (names : List String) : String := names.foldl push path

/-! ## Going up -/

/-- The path without its last piece. The root and the empty path have no parent, and the parent of a
lone name is the empty path. -/
def parent? (path : String) : Option String :=
  match dropIdleEnd (pieces path) with
  | [] => none
  | [only] => if only.isEmpty then none else some ""
  | first :: rest =>
    match dropIdleEnd (first :: rest.dropLast) with
    | [""] => some "/"
    | ps => some (ofPieces ps)

/-- At most `fuel` steps up, from the path itself outwards, as far as there is a name left. -/
def ancestorsWithin : Nat → String → List String
  | 0, _ => []
  | fuel + 1, path =>
    if path.isEmpty then []
    else path :: (match parent? path with
      | some parent => ancestorsWithin fuel parent
      | none => [])

/-- The path, its parent and so on outwards, without the empty path. -/
def ancestors (path : String) : List String := ancestorsWithin ((pieces path).length + 1) path

/-! ## Names -/

/-- The last piece, unless it is a dot, two dots or nothing. -/
def fileName? (path : String) : Option String :=
  match (dropIdleEnd (pieces path)).getLast? with
  | none => none
  | some name => if isIdle name || name == ".." then none else some name

/-- What stands before and after the last dot of a name, if something stands before it. -/
def cutExtension (name : String) : String × Option String :=
  match (split '.' name).reverse with
  | extension :: before =>
    let stem := String.intercalate "." before.reverse
    if stem.isEmpty then (name, none) else (stem, some extension)
  | [] => (name, none)

def extension? (name : String) : Option String := (cutExtension name).2

/-- The path with the extension of its name replaced; a path without a name stays as it is. -/
def withExtension (path extension : String) : String :=
  match fileName? path with
  | none => path
  | some name =>
    ofPieces ((dropIdleEnd (pieces path)).dropLast ++ [(cutExtension name).1 ++ "." ++ extension])

def temporary (path : String) : String := withExtension path "tmp"

end RestForge.FileTree.Path
