import RestForge.Emit.Model
import RestForge.Emit.SmokeTests
import RestForge.Source.Layout

/-!
# The four files of a resource

* `ArtifactKind`: model, client, validators and tests.
* `Emit.source`: the tree of one file; it fails if a type name cannot stand in it.
* `resourceDir`: the directory of a resource, as path components below the output root.
* `Artifact`, `assemble`: the written files of a resource, all or none.
-/

set_option autoImplicit false

namespace RestForge.Emit

open Source Naming

inductive ArtifactKind where
  | model
  | client
  | validators
  | tests
  deriving Repr, DecidableEq

namespace ArtifactKind

/-- The order in which the files are generated. -/
def all : List ArtifactKind := [model, client, validators, tests]

def moduleName : ArtifactKind → String
  | model => "model"
  | client => "client"
  | validators => "validators"
  | tests => "tests"

def fileName (k : ArtifactKind) : String := k.moduleName ++ ".rs"

end ArtifactKind

/-- The type names that a file holds: models and clients name every table, tests the root only. -/
def namesIn (r : Resource) (names : TypeNames) : ArtifactKind → List String
  | .model => r.tables.map names.model
  | .client => r.tables.flatMap fun p => [names.client p, names.model p]
  | .validators => []
  | .tests => [names.rootClient, names.rootModel]

def tree (r : Resource) (names : TypeNames) : ArtifactKind → File
  | .model => modelFile r names
  | .client => clientFile r names
  | .validators => validatorsFile r
  | .tests => testsFile r names

def source (r : Resource) (names : TypeNames) (k : ArtifactKind) : Except IllegalName File := do
  checkNames (namesIn r names k)
  return tree r names k

/-- A written file; its path lists the components below the output root. -/
structure Artifact where
  kind : ArtifactKind
  path : List String
  contents : String
  deriving Repr, DecidableEq

def resourceDir (r : Resource) : List String := "src" :: r.category.text :: r.modules

def artifact (r : Resource) (names : TypeNames) (k : ArtifactKind) :
    Except IllegalName Artifact := do
  let file ← source r names k
  return ⟨k, resourceDir r ++ [k.fileName], file.text⟩

def assemble (r : Resource) (names : TypeNames) : Except IllegalName (List Artifact) :=
  ArtifactKind.all.mapM (artifact r names)

end RestForge.Emit
