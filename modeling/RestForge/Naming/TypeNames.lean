import RestForge.Naming.NameTable
import RestForge.Schema.PlacedTable

/-!
# Type names of a resource

Every table has a model type and a client type. They are registered in the scope of the resource
under keys that name the table and the role.

* `Registration`: one name asked for; `Resource.registrations` lists them in walk order, the model of
  a table before its client.
* `TypeNames`: the names given, by the key of the table.
* `resolve`: registers all names of a resource and stops at the first collision.
-/

set_option autoImplicit false

namespace RestForge.Naming

/-! ## What is registered -/

structure Registration where
  key : String
  name : String
  deriving Repr, DecidableEq

def modelRegistration (modules : List String) (p : PlacedTable) : Registration :=
  ⟨"model:" ++ p.key, typeName (modules ++ p.chain)⟩

def clientRegistration (modules : List String) (p : PlacedTable) : Registration :=
  ⟨"client:" ++ p.key, typeName (modules ++ p.chain) ++ "Client"⟩

def registrations (r : Resource) : List Registration :=
  r.tables.flatMap fun p => [modelRegistration r.modules p, clientRegistration r.modules p]

/-! ## What is given -/

/-- The type names of one table. -/
structure TypePair where
  model : String
  client : String
  deriving Repr, DecidableEq

/-- Type names by the keys of the tables. -/
structure TypeNames where
  byKey : List (String × TypePair)
  deriving Repr, DecidableEq

namespace TypeNames

def pair? (n : TypeNames) (p : PlacedTable) : Option TypePair := n.byKey.lookup p.key

/-- A table that was not registered is named after its chain alone. -/
def model (n : TypeNames) (p : PlacedTable) : String :=
  match n.pair? p with
  | some pair => pair.model
  | none => typeName p.chain

def client (n : TypeNames) (p : PlacedTable) : String :=
  match n.pair? p with
  | some pair => pair.client
  | none => typeName p.chain ++ "Client"

def rootPair (n : TypeNames) : TypePair := (n.byKey.lookup "").getD ⟨"", ""⟩

def rootModel (n : TypeNames) : String := n.rootPair.model

def rootClient (n : TypeNames) : String := n.rootPair.client

end TypeNames

abbrev Giving := ExceptT Collision (StateM NameTable)

def register (scope : Scope) (r : Registration) : Giving String :=
  fun t => t.record scope r.key r.name

def resolveTable (scope : Scope) (modules : List String) (p : PlacedTable) :
    Giving (String × TypePair) := do
  let model ← register scope (modelRegistration modules p)
  let client ← register scope (clientRegistration modules p)
  return (p.key, ⟨model, client⟩)

def resolve (r : Resource) : Giving TypeNames := do
  let pairs ← r.tables.mapM (resolveTable (Scope.types r.dottedPath) r.modules)
  return ⟨pairs⟩

end RestForge.Naming
