import RestForge.Emit.Artifact
import RestForge.KeyedList

/-!
# The modules that tie a crate together

Resources live in directories named after their modules. Every directory on the way has a file that
declares what is in it, and one file at the top declares the categories.

* `ResourceEntry`: what the module files say about one resource.
* `ModuleNode`: a directory: its resource, if it has one, and the directories in it by name.
* `ModuleNode.graft`: adds a resource below a directory.
* `moduleFiles`: every module file for a list of resources, in order of their paths.

A directory can hold a resource and further directories at once.
-/

set_option autoImplicit false

namespace RestForge.Crate

open Source Emit

/-! ## Resources -/

/-- A segment of a path, as written on the wire and as the name of a module. -/
structure Segment where
  module : String
  wire : String
  deriving Repr, DecidableEq

structure ResourceEntry where
  category : Category
  segments : List Segment
  model : String
  client : String
  deriving Repr, DecidableEq

def ResourceEntry.ofResource (r : Resource) (names : Naming.TypeNames) : ResourceEntry :=
  ⟨r.category, List.zipWith Segment.mk r.modules r.segments, names.rootModel, names.rootClient⟩

/-! ## Directories -/

/-- The wire path of a directory is that of the resource that opened it. -/
inductive ModuleNode where
  | node (dotted : String) (resource : Option ResourceEntry)
      (children : List (String × ModuleNode))

namespace ModuleNode

def fresh (dotted : String) : ModuleNode := node dotted none []

def dotted : ModuleNode → String
  | node dotted _ _ => dotted

/-- Adds a resource at the end of a chain of segments; the last one added to a directory stays. -/
def graft (entry : ResourceEntry) : List Segment → ModuleNode → ModuleNode
  | [], node dotted _ children => node dotted (some entry) children
  | s :: ss, node dotted resource children =>
    let below := fresh (dotted ++ "." ++ s.wire)
    node dotted resource
      (KeyedList.alter s.module (fun child => graft entry ss (child.getD below)) children)

end ModuleNode

/-- The directory of a category, if there is a resource in it. -/
def categoryNode? (entries : List ResourceEntry) (c : Category) : Option ModuleNode :=
  match entries.filter fun e => e.category == c with
  | [] => none
  | mine => some (mine.foldl (fun n e => n.graft e e.segments) (.fresh c.text))

/-! ## Files -/

/-- A module file; its path lists the components below the output root. -/
structure ModuleFile where
  path : List String
  source : File

def ModuleFile.contents (f : ModuleFile) : String := f.source.text

def publicModule (name : String) : Item := .moduleFile [] true name

/-- Declarations of the files of a resource, and its root types under short names. -/
def resourceItems (e : ResourceEntry) : List Item :=
  [ArtifactKind.client, .model, .validators].map (fun k => publicModule k.moduleName)
    ++ [.moduleFile [.testOnly] false ArtifactKind.tests.moduleName,
      .reexport (.rel ["client", e.client]), .reexport (.rel ["model", e.model])]

def directoryFile (dotted : String) (resource : Option ResourceEntry) (below : List String) : File :=
  { docs := [" " ++ ticked dotted]
    items := resource.toList.flatMap resourceItems ++ below.map publicModule }

namespace ModuleNode

mutual

/-- The module files of a directory and of those in it. -/
def files (path : List String) : ModuleNode → List ModuleFile
  | node dotted resource children =>
    ⟨path ++ ["mod.rs"], directoryFile dotted resource (children.map Prod.fst)⟩
      :: filesAll path children

def filesAll (path : List String) : List (String × ModuleNode) → List ModuleFile
  | [] => []
  | (name, n) :: rest => n.files (path ++ [name]) ++ filesAll path rest

end

end ModuleNode

def crateDocs : List String :=
  [" Generated REST resource clients.",
    "",
    " One module per category, one sub-module per path segment. Every",
    " resource module contains `model`, `client` and `validators`, and",
    " re-exports its root model and client.",
    "",
    " ## Quick Start",
    "",
    " ```ignore",
    " use std::sync::Arc;",
    "",
    " let client = crate::config::firewall::policy::FirewallPolicyClient::new(Arc::new(transport));",
    " let policies = client.get(&stencil::GetParams::new())?;",
    " ```"]

def categoryModule (c : Category) : Item :=
  .moduleFile [.doc (" " ++ ticked c.text ++ " resources.")] true c.text

def crateFile (categories : List Category) : File := ⟨crateDocs, categories.map categoryModule⟩

/-- Paths are compared component by component. -/
def ModuleFile.before (a b : ModuleFile) : Bool := !decide (b.path < a.path)

/-- The module files of a crate that holds the given resources. -/
def moduleFiles (entries : List ResourceEntry) : List ModuleFile :=
  let categories := Category.all.filterMap fun c => (categoryNode? entries c).map fun n => (c, n)
  let top : ModuleFile := ⟨["src", "lib.rs"], crateFile (categories.map Prod.fst)⟩
  (top :: categories.flatMap fun c => c.2.files ["src", c.1.text]).mergeSort ModuleFile.before

/-- The module files, unless a re-exported type name cannot stand in source. -/
def layOut (entries : List ResourceEntry) : Except IllegalName (List ModuleFile) := do
  checkNames (entries.flatMap fun e => [e.client, e.model])
  return moduleFiles entries

end RestForge.Crate
