import RestForge.Naming.Identifier
import Std.Data.HashMap

/-!
# The table of given names

A run gives every wire name a code name that is unique within its scope and can be turned back.

* `Scope`: a namespace of code names.
* `Collision`: two wire names that ask for one code name in one scope.
* `NameTable`: the pairs given so far, by wire name and by code name.
* `NameTable.record`: gives a name, unless its owner in the scope is another wire name; a pair once
  given stays.
-/

set_option autoImplicit false

namespace RestForge.Naming

/-! ## Scopes -/

structure Scope where
  kind : ScopeKind
  path : String
  deriving Repr, DecidableEq, Hashable

namespace Scope

/-- Fields of the table with the given key. -/
def fields (table : String) : Scope := ⟨.fields, table⟩

/-- Modules below the module with the given dotted path. -/
def modules (parent : String) : Scope := ⟨.modules, parent⟩

/-- Types of the resource with the given dotted path. -/
def types (resource : String) : Scope := ⟨.types, resource⟩

def text (s : Scope) : String := s.kind.text ++ ":" ++ s.path

end Scope

/-- `incoming` asks for the code name that `existing` owns. -/
structure Collision where
  scope : Scope
  codeName : String
  existing : String
  incoming : String
  deriving Repr, DecidableEq

def Collision.message (c : Collision) : String :=
  "Identifier collision in " ++ c.scope.text ++ ": '" ++ c.existing ++ "' and '" ++ c.incoming
    ++ "' both normalize to '" ++ c.codeName ++ "'"

/-! ## The table -/

structure NameTable where
  forward : Std.HashMap (Scope × String) String
  reverse : Std.HashMap (Scope × String) String

namespace NameTable

def empty : NameTable := ⟨∅, ∅⟩

def codeName? (t : NameTable) (scope : Scope) (wire : String) : Option String :=
  t.forward[(scope, wire)]?

def wireName? (t : NameTable) (scope : Scope) (code : String) : Option String :=
  t.reverse[(scope, code)]?

def size (t : NameTable) : Nat := t.forward.size

def record (t : NameTable) (scope : Scope) (wire code : String) :
    Except Collision String × NameTable :=
  match t.codeName? scope wire with
  | some known => (.ok known, t)
  | none =>
    match t.wireName? scope code with
    | some owner => (.error ⟨scope, code, owner, wire⟩, t)
    | none =>
      (.ok code, ⟨t.forward.insert (scope, wire) code, t.reverse.insert (scope, code) wire⟩)

def normalize (t : NameTable) (scope : Scope) (wire : String) :
    Except Collision String × NameTable :=
  t.record scope wire (identifier scope.kind wire)

end NameTable

end RestForge.Naming
