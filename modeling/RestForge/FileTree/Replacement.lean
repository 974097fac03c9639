import RestForge.FileTree.Access

/-!
# Replacing a file as a whole

* `WriteFailure`: a fault and the path at which it arose.
* `replaceFile`: writes a text to a temporary file beside the target and moves that to the target, so
  that no reader meets a half-written file. Missing directories on the way are made.
* `removeTree`: removes a directory if it is there.
-/

set_option autoImplicit false

namespace RestForge.FileTree

structure WriteFailure where
  path : String
  fault : Fault
  deriving Repr, DecidableEq

namespace WriteFailure

def message (f : WriteFailure) : String :=
  s!"Failed to write output file '{f.path}': {f.fault.message}"

end WriteFailure

abbrev Writing := ExceptT WriteFailure (StateM FileTree)

/-- A fault of the access is a failure at the path. -/
def Access.at {α : Type} (access : Access α) (path : String) : Writing α := fun t =>
  match access t with
  | (.ok value, t) => (.ok value, t)
  | (.error fault, t) => (.error ⟨path, fault⟩, t)

/-- The directory of a path; a lone name needs none. -/
def makeParent (path : String) : Writing Unit :=
  match Path.parent? path with
  | none => pure ()
  | some parent => if parent.isEmpty then pure () else (makeDirectories parent).at parent

def replaceFile (path text : String) : Writing Unit := do
  let temporary := Path.temporary path
  makeParent path
  (writeFile temporary text.toUTF8.data).at temporary
  (rename temporary path).at path

/-- A path that leads nowhere is left alone. -/
def removeTree (path : String) : Writing Unit := do
  if (← get).exists? path then (removeAll path).at path

end RestForge.FileTree
