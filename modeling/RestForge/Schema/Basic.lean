import RestForge.Text.Split

/-!
# Resources

A resource is described by its category, its path, the methods it supports and a tree of tables with
typed fields.

* `Category`, `Method`, `FieldType`: the closed sets of words of a schema, with the spellings a
  schema may use (`ofSpelling?`) and the canonical ones (`text`, `ofText?`).
* `Field`, `Table`: a field, and a table nested in another.
* `Resource`: a whole resource; its dotted path and its wire path are derived from its segments.
-/

set_option autoImplicit false

namespace RestForge

/-! ## Words of a schema -/

/-- Mutable objects, or observed state. -/
inductive Category where
  | config
  | monitor
  deriving Repr, DecidableEq

namespace Category

def all : List Category := [config, monitor]

def text : Category → String
  | config => "config"
  | monitor => "monitor"

/-- Besides its own name, `config` goes by the name of the configuration database. -/
def ofSpelling? (s : String) : Option Category :=
  if s = "config" || s = "cmdb" then some config
  else if s = "monitor" then some monitor
  else none

/-- Every accepted spelling. -/
def spellings : List String := ["cmdb", "config", "monitor"]

end Category

inductive Method where
  | get
  | post
  | put
  | delete
  deriving Repr, DecidableEq

namespace Method

/-- The order in which operations are generated. -/
def all : List Method := [get, post, put, delete]

def text : Method → String
  | get => "GET"
  | post => "POST"
  | put => "PUT"
  | delete => "DELETE"

/-- Upper and lower case of the letters do not matter. -/
def ofSpelling? (s : String) : Option Method :=
  let upper := String.ofList (s.toList.map Char.toUpper)
  all.find? fun m => m.text == upper

def ofText? (s : String) : Option Method := all.find? fun m => m.text == s

end Method

inductive FieldType where
  | string
  | integer
  | boolean
  | ipAddress
  | enum
  | reference
  | nestedTable
  deriving Repr, DecidableEq

namespace FieldType

def all : List FieldType := [string, integer, boolean, ipAddress, enum, reference, nestedTable]

def text : FieldType → String
  | string => "string"
  | integer => "integer"
  | boolean => "boolean"
  | ipAddress => "ip-address"
  | enum => "enum"
  | reference => "reference"
  | nestedTable => "nested-table"

/-- Further spellings of a type. -/
def aliases : FieldType → List String
  | string => ["var-string", "password"]
  | integer => ["uint"]
  | boolean => []
  | ipAddress => ["ipv4-address", "ipv6-address", "ipv4-classnet", "ipv4-netmask"]
  | enum => ["option"]
  | reference => ["datasource"]
  | nestedTable => ["table"]

def ofSpelling? (s : String) : Option FieldType :=
  all.find? fun t => t.text == s || t.aliases.contains s

def ofText? (s : String) : Option FieldType := all.find? fun t => t.text == s

/-- Every type but a nested table holds one value. -/
def isScalar : FieldType → Bool
  | nestedTable => false
  | _ => true

end FieldType

/-! ## Fields and tables -/

structure Field where
  wireName : String
  codeName : String
  type : FieldType
  required : Bool
  values : List String
  default : Option String
  help : Option String
  reference : Option String
  deriving Repr, DecidableEq

namespace Field

/-- An optional field without documentation. -/
def plain (wireName codeName : String) (type : FieldType) : Field :=
  ⟨wireName, codeName, type, false, [], none, none, none⟩

def isEnum (f : Field) : Bool := f.type == .enum

def isTable (f : Field) : Bool := f.type == .nestedTable

/-- The declared values, each at its first occurrence. -/
def distinctValues (f : Field) : List String :=
  f.values.foldl (fun seen v => if seen.contains v then seen else seen ++ [v]) []

end Field

/-- A table nested in a resource. The identifying field is named by its wire name. -/
structure Table where
  wireName : String
  codeName : String
  help : Option String
  mkey : Option String
  fields : List Field
  children : List Table
  deriving Repr

structure Resource where
  category : Category
  segments : List String
  modules : List String
  help : Option String
  mkey : Option String
  fields : List Field
  children : List Table
  methods : List Method
  deriving Repr

namespace Resource

def wirePath (r : Resource) : String := String.intercalate "/" r.segments

def dottedPath (r : Resource) : String :=
  r.category.text ++ "." ++ String.intercalate "." r.segments

def supports (r : Resource) (m : Method) : Bool := r.methods.contains m

/-- Without an identifying field there is one object only. -/
def isSingleton (r : Resource) : Bool := r.mkey.isNone

def leafName (r : Resource) : String := Text.lastPiece '/' r.wirePath

end Resource

end RestForge
