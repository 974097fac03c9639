import RestForge.Emit.Basic

/-!
# Client types

Every table has a client with the operations that the resource supports. The clients of the tables
directly below are fields of the client.

* `Operation`: the operations of a client; `operations` lists those of a table.
* `operationFunction`: the function of an operation.
* `clientStruct`, `clientImpl`: the items of one table.
* `clientFile`: the file of a resource.
-/

set_option autoImplicit false

namespace RestForge.Emit

open Source Naming

/-! ## Keys -/

/-- The identifying field of a keyed table. -/
structure Key where
  wire : String
  isInteger : Bool
  deriving Repr, DecidableEq

def Key.of? (p : PlacedTable) : Option Key :=
  p.mkeyField?.map fun f => ⟨f.wireName, f.type == .integer⟩

def Key.param (k : Key) : Param :=
  ⟨"key", if k.isInteger then .named (.rel ["i64"]) else strRef false⟩

/-- An integer key is turned into text first. -/
def Key.toText (k : Key) : List Stmt :=
  if k.isInteger then
    [.bindName "key" (.method (.var "key") "to_string" [] false),
      .bindName "key" (.method (.var "key") "as_str" [] false)]
  else []

/-! ## Operations -/

inductive Operation where
  | get
  | getByKey (k : Key)
  | post
  | put (k : Option Key)
  | delete (k : Option Key)
  deriving Repr, DecidableEq

/-- The operations that a method brings. -/
def operationsOf (p : PlacedTable) : Method → List Operation
  | .get => .get :: (Key.of? p).toList.map .getByKey
  | .post => [.post]
  | .put => [.put (Key.of? p)]
  | .delete => [.delete (Key.of? p)]

def operations (r : Resource) (p : PlacedTable) : List Operation :=
  r.methods.flatMap (operationsOf p)

/-- Only the root of a resource without identifying field holds a single object. -/
def readsSingle (p : PlacedTable) : Bool := p.isRoot && p.mkey.isNone

/-! ## Functions -/

def endpointField : Expr := .field (.var "self") "endpoint"

def clientError : Ty := runtimeType "ClientError"

def fallible (value : Ty) : Ty := outcome value clientError

def responseType : Ty := fallible (runtimeType "Response")

def noKey : Expr := .var "None"

def someKey : Expr := callName "Some" [.var "key"]

def modelRef (names : TypeNames) (p : PlacedTable) : Ty :=
  .named (.rel ["super", "model", names.model p])

def queryParam : Param := ⟨"params", .ref false (runtimeType "GetParams")⟩

def payloadParam (names : TypeNames) (p : PlacedTable) : Param :=
  ⟨"payload", .ref false (modelRef names p)⟩

/-- The module that holds the checks of a table. -/
def validatorsModule (p : PlacedTable) : Path := .rel ("super" :: "validators" :: p.chain)

def requestGet (key : Expr) : Stmt :=
  .bindName "response" (.question
    (.method endpointField "get" [key, .ref (.method (.var "params") "to_query" [] false)] false))

/-- Turns the payload into a record and checks it. -/
def checkedBody (p : PlacedTable) (check : String) : List Stmt :=
  [.bindName "body" (.question (callPath (runtime ["Model", "to_record"]) [.var "payload"])),
    .run (.question (callPath ((validatorsModule p).child check) [.ref (.var "body")]))]

def bodyRef : Expr := .ref (.var "body")

def keyParams (k : Option Key) : List Param := k.toList.map Key.param

def keyToText (k : Option Key) : List Stmt := k.toList.flatMap Key.toText

def keyArgument : Option Key → Expr
  | some _ => someKey
  | none => noKey

def getFunction (names : TypeNames) (p : PlacedTable) : Function :=
  { attrs :=
      [.doc (if readsSingle p then " Retrieves the object."
        else " Retrieves every object in the collection.")]
    isPublic := true
    name := "get"
    takesSelf := true
    params := [queryParam]
    trailing := true
    returns := some (fallible
      (if readsSingle p then modelRef names p else applied "Vec" [modelRef names p]))
    body :=
      [requestGet noKey,
        .result (if readsSingle p then
            callPath (runtime ["decode_one"])
              [.var "response", .method endpointField "path" [] false]
          else callPath (runtime ["decode_many"]) [.var "response"])] }

def getByKeyFunction (names : TypeNames) (p : PlacedTable) (k : Key) : Function :=
  { attrs := [.doc (" Retrieves one object by its " ++ ticked k.wire ++ ".")]
    isPublic := true
    name := "get_by_key"
    takesSelf := true
    params := [k.param, queryParam]
    trailing := true
    returns := some (fallible (modelRef names p))
    body := k.toText ++
      [requestGet someKey,
        .result (callPath (runtime ["decode_one"])
          [.var "response", .ref (.method endpointField "key_path" [someKey] false)])] }

def postFunction (names : TypeNames) (p : PlacedTable) : Function :=
  { attrs := [.doc " Creates an object after checking required fields and enum values."]
    isPublic := true
    name := "post"
    takesSelf := true
    params := [payloadParam names p]
    trailing := true
    returns := some responseType
    body := checkedBody p "validate_create"
      ++ [.result (.method endpointField "post" [bodyRef] false)] }

def putFunction (names : TypeNames) (p : PlacedTable) (k : Option Key) : Function :=
  { attrs :=
      [.doc (match k with
        | some k => " Updates the object identified by " ++ ticked k.wire ++ "."
        | none => " Updates the object. Unset fields are left unchanged.")]
    isPublic := true
    name := "put"
    takesSelf := true
    params := keyParams k ++ [payloadParam names p]
    trailing := true
    returns := some responseType
    body := keyToText k ++ checkedBody p "validate_update"
      ++ [.result (.method endpointField "put" [keyArgument k, bodyRef] false)] }

def deleteFunction (k : Option Key) : Function :=
  { attrs :=
      [.doc (match k with
        | some k => " Deletes the object identified by " ++ ticked k.wire ++ "."
        | none => " Deletes the object.")]
    isPublic := true
    name := "delete"
    takesSelf := true
    params := keyParams k
    trailing := k.isSome
    returns := some responseType
    body := keyToText k ++ [.result (.method endpointField "delete" [keyArgument k] false)] }

def operationFunction (names : TypeNames) (p : PlacedTable) : Operation → Function
  | .get => getFunction names p
  | .getByKey k => getByKeyFunction names p k
  | .post => postFunction names p
  | .put k => putFunction names p k
  | .delete k => deleteFunction k

/-! ## Building a client -/

def newFunction : Function :=
  { attrs := [.doc " Creates a client that sends requests through `transport`."]
    isPublic := true
    name := "new"
    takesSelf := false
    params := [⟨"transport", .path (.glob ["std", "sync", "Arc"]) [.dyn (runtime ["Transport"])]⟩]
    trailing := false
    returns := some (.named (.rel ["Self"]))
    body :=
      [.result (callPath (.rel ["Self", "from_endpoint"])
        [callPath (runtime ["Endpoint", "new"])
          [.var "transport", .path (.rel ["Self", "CATEGORY"]), .path (.rel ["Self", "PATH"])]])] }

/-- A nested client sends to the endpoint below, named by the last piece of the path. -/
def childInit (names : TypeNames) (c : PlacedTable) : FieldInit :=
  .value c.codeName (callPath (.rel [names.client c, "from_endpoint"])
    [.method (.var "endpoint") "child" [.text c.segment] false])

def fromEndpointFunction (names : TypeNames) (p : PlacedTable) : Function :=
  { attrs := []
    isPublic := false
    name := "from_endpoint"
    takesSelf := false
    params := [⟨"endpoint", runtimeType "Endpoint"⟩]
    trailing := false
    returns := some (.named (.rel ["Self"]))
    body :=
      [.result (.record (.rel ["Self"])
        (p.childTables.map (childInit names) ++ [.same "endpoint"]) false)] }

def endpointFunction : Function :=
  { attrs := [.doc " The endpoint requests are sent to."]
    isPublic := true
    name := "endpoint"
    takesSelf := true
    params := []
    trailing := false
    returns := some (.ref false (runtimeType "Endpoint"))
    body := [.result (.ref endpointField)] }

/-! ## Items -/

def clientDoc (p : PlacedTable) : String :=
  match p.help with
  | some help => help ++ "\n\nClient for " ++ ticked p.dotted ++ "."
  | none => "Client for " ++ ticked p.dotted ++ "."

def childField (names : TypeNames) (c : PlacedTable) : StructField :=
  { attrs := [.doc (" Nested client for " ++ ticked c.wirePath ++ ".")]
    isPublic := true
    name := c.codeName
    type := .named (.rel [names.client c]) }

def clientStruct (names : TypeNames) (p : PlacedTable) : StructItem :=
  { attrs := docAttributes (clientDoc p) ++ [.derive [.rel ["Debug"], .rel ["Clone"]]]
    name := names.client p
    fields := ⟨[], false, "endpoint", runtimeType "Endpoint"⟩
      :: p.childTables.map (childField names) }

def categoryPath : Category → Path
  | .config => runtime ["Category", "Config"]
  | .monitor => runtime ["Category", "Monitor"]

def methodPath : Method → Path
  | .get => runtime ["HttpMethod", "Get"]
  | .post => runtime ["HttpMethod", "Post"]
  | .put => runtime ["HttpMethod", "Put"]
  | .delete => runtime ["HttpMethod", "Delete"]

def mkeyConstant (key : String) : Constant :=
  ⟨[.doc " Wire name of the identifying field."], true, "MKEY", strRef true, .text key⟩

def clientConstants (r : Resource) (p : PlacedTable) : List Constant :=
  [⟨[.doc " Category this resource lives under."], true, "CATEGORY", runtimeType "Category",
      .path (categoryPath r.category)⟩,
    ⟨[.doc " Path relative to the category root."], true, "PATH", strRef true, .text p.wirePath⟩]
  ++ p.mkey.toList.map mkeyConstant
  ++ [⟨[.doc " Methods the API accepts for this resource."], true, "SUPPORTED_METHODS",
      .ref true (.slice (runtimeType "HttpMethod")),
      .ref (.array (r.methods.map fun m => .path (methodPath m)))⟩]

def clientImpl (r : Resource) (names : TypeNames) (p : PlacedTable) : ImplItem :=
  { trait? := none
    target := names.client p
    constants := clientConstants r p
    functions := [newFunction, fromEndpointFunction names p, endpointFunction]
      ++ (operations r p).map (operationFunction names p) }

def clientFile (r : Resource) (names : TypeNames) : File :=
  { docs := [" Client for " ++ ticked r.dottedPath ++ "."]
    items := r.tables.flatMap fun p =>
      [.struct (clientStruct names p), .impl (clientImpl r names p)] }

end RestForge.Emit
