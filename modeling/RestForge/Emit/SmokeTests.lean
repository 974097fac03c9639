import RestForge.Emit.Client
import RestForge.Emit.Validators

/-!
# Smoke tests

The tests of a resource drive its client against a transport that answers from memory, and run its
checks. Which tests there are depends on the supported methods.

* `Sample`: a value that a test puts into a payload; `payloadSamples` holds those of the smallest
  payload that creates an object.
* `KeySample`: the key value of the tests, as payload, as argument and as text.
* `undeclaredValue`: a text that a field does not declare.
* `validatorTests`: the tests of the checks of a table, with a module for each table below.
* `testsFile`: the file of a resource.
-/

set_option autoImplicit false

namespace RestForge.Emit

open Source Naming

/-! ## Sample values -/

inductive Sample where
  | integer (n : Nat)
  | boolean (b : Bool)
  | noRows
  | text (s : String)
  | emptyText
  deriving Repr, DecidableEq

def Sample.expr : Sample → Expr
  | integer n => .int n
  | boolean b => .var (if b then "true" else "false")
  | noRows => callPath (.rel ["Vec", "new"]) []
  | text s => .method (.text s) "to_string" [] false
  | emptyText => callPath (.glob ["std", "string", "String", "new"]) []

def firstValue (f : Field) (otherwise : String) : String := f.values.headD otherwise

/-- The smallest value of a required field. -/
def placeholder (f : Field) : Sample :=
  match f.type with
  | .integer => .integer 0
  | .boolean => .boolean false
  | .nestedTable => .noRows
  | .enum => .text (firstValue f "")
  | .string => .emptyText
  | .ipAddress => .emptyText
  | .reference => .emptyText

/-- A key value in its three shapes. -/
structure KeySample where
  payload : Sample
  argument : Expr
  text : String

def keySample (f : Field) : KeySample :=
  match f.type with
  | .integer => ⟨.integer 1, .int 1, "1"⟩
  | .boolean => ⟨.boolean true, .text "true", "true"⟩
  | .enum => ⟨.text (firstValue f "test"), .text (firstValue f "test"), firstValue f "test"⟩
  | _ => ⟨.text "test", .text "test", "test"⟩

def isKey (p : PlacedTable) (f : Field) : Bool := some f.wireName == p.mkey

/-- The required fields and the key, in document order. -/
def payloadFields (p : PlacedTable) : List Field :=
  p.fields.filter fun f => f.required || isKey p f

def payloadSample (p : PlacedTable) (f : Field) : Sample :=
  if isKey p f then (keySample f).payload else placeholder f

def payloadSamples (p : PlacedTable) : List (Field × Sample) :=
  (payloadFields p).map fun f => (f, payloadSample p f)

/-! ## Undeclared values -/

def undeclaredStem : String := "__undeclared__"

/-- The first of the candidates `value`, `value ++ "_"`, … that is not declared; after as many
candidates as there are declared values the next one is free. -/
def undeclaredFrom (declared : List String) (value : String) : Nat → String
  | 0 => value
  | tries + 1 =>
    if declared.contains value then undeclaredFrom declared (value ++ "_") tries else value

def undeclaredValue (f : Field) : String :=
  undeclaredFrom f.distinctValues undeclaredStem f.distinctValues.length

/-! ## Parts of tests -/

/-- What the tests of a resource refer to. -/
structure TestPaths where
  client : Path
  model : Path
  validators : Path

def testPaths (r : Resource) (names : TypeNames) : TestPaths :=
  let module := resourceModule r
  { client := (module.child "client").child names.rootClient
    model := (module.child "model").child names.rootModel
    validators := module.child "validators" }

def testFunction (name : String) (body : List Stmt) : Function :=
  ⟨[.test], false, name, false, [], false, none, body⟩

def helperFunction (name : String) (returns : Ty) (body : List Stmt) : Function :=
  ⟨[], false, name, false, [], false, some returns, body⟩

def methodCall (receiver : Expr) (name : String) (args : List Expr) : Expr :=
  .method receiver name args false

def invocation (name : String) (args : List Expr) : Expr := .invoke name .paren args

def assertOk : Stmt :=
  .run (invocation "assert"
    [methodCall (.var "result") "is_ok" [], .text "\x7b:?\x7d",
      methodCall (.var "result") "err" []])

def assertEq (left right : Expr) : Stmt := .run (invocation "assert_eq" [left, right])

def expecting (e : Expr) (message : String) : Expr := methodCall e "expect" [.text message]

def lastRequest : Stmt :=
  .bindName "request"
    (expecting (methodCall (.var "transport") "last_request" []) "request recorded")

def newRecord : Expr := callPath (runtime ["Record", "new"]) []

def newQuery : Expr := callPath (runtime ["GetParams", "new"]) []

def constructPair : Stmt := .bind false (.tuple ["transport", "client"]) (callName "client" [])

/-- The canned answer to a later GET. -/
def respondGet (path answer : Expr) : Stmt :=
  .run (.method (.var "transport") "respond"
    [.path (methodPath .get), path, callPath (runtime ["Response", "success"]) [answer]] true)

def objectValue (e : Expr) : Expr := callPath (runtime ["Value", "Object"]) [e]

def keyPathOf (text : String) : Expr :=
  methodCall (methodCall (.var "client") "endpoint" []) "key_path" [callName "Some" [.text text]]

/-! ## Helpers of the tests -/

def clientHelper (paths : TestPaths) : Function :=
  helperFunction "client"
    (.tuple [.path (.glob ["std", "sync", "Arc"]) [.named (runtime ["testing", "MockTransport"])],
      .named paths.client])
    [.bindName "transport" (callPath (.glob ["std", "sync", "Arc", "new"])
        [callPath (runtime ["testing", "MockTransport", "new"]) []]),
      .bindName "client" (callPath (paths.client.child "new")
        [methodCall (.var "transport") "clone" []]),
      .result (.tuple [.var "transport", .var "client"])]

def payloadHelper (p : PlacedTable) (paths : TestPaths) : Function :=
  let samples := payloadSamples p
  helperFunction "minimal_payload" (.named paths.model)
    [.result (.record paths.model
      (samples.map fun s => .value s.1.codeName (callName "Some" [s.2.expr]))
      (samples.length < p.fields.length))]

/-! ## Tests of the client -/

/-- A singleton answers with one object instead of a list. -/
def primeSingleton (p : PlacedTable) (paths : TestPaths) : List Stmt :=
  if p.mkey.isNone then [respondGet (.path (paths.client.child "PATH")) (objectValue newRecord)]
  else []

/-- Filters by the key, by the first scalar field, or by a name. -/
def filterText (p : PlacedTable) : String :=
  let field :=
    match p.mkey with
    | some key => key
    | none => ((p.fields.find? fun f => f.type.isScalar).map Field.wireName).getD "name"
  field ++ "==test"

def retrieveAll (p : PlacedTable) (paths : TestPaths) : Function :=
  testFunction "retrieve_all"
    ([constructPair] ++ primeSingleton p paths
      ++ [.bindName "result" (methodCall (.var "client") "get" [.ref newQuery]), assertOk,
        lastRequest,
        assertEq (.field (.var "request") "method") (.path (methodPath .get)),
        assertEq (.field (.var "request") "category") (.path (paths.client.child "CATEGORY")),
        assertEq (.field (.var "request") "path") (.path (paths.client.child "PATH"))])

def retrieveWithFilter (p : PlacedTable) (paths : TestPaths) : Function :=
  testFunction "retrieve_with_filter"
    ([constructPair] ++ primeSingleton p paths
      ++ [.bindName "result" (methodCall (.var "client") "get"
          [.ref (methodCall newQuery "filter" [.text (filterText p)])]), assertOk,
        lastRequest,
        assertEq
          (methodCall (methodCall (.field (.var "request") "query") "get" [.text "filter"]) "map"
            [.path (.rel ["String", "as_str"])])
          (callName "Some" [.text (filterText p)])])

/-- The object that was created is read back by its key, and deleted if it can be. -/
def readBackByKey (r : Resource) (k : KeySample) : List Stmt :=
  [respondGet (keyPathOf k.text)
      (callPath (runtime ["Value", "Array"]) [.invoke "vec" .bracket [objectValue (.var "body")]]),
    .bindName "fetched" (expecting
      (methodCall (.var "client") "get_by_key" [k.argument, .ref newQuery]) "read back succeeds"),
    assertEq (.var "fetched") (.var "payload")]
  ++ (if r.supports .delete then
      [.run (expecting (methodCall (.var "client") "delete" [k.argument]) "delete succeeds"),
        lastRequest,
        assertEq (.field (.var "request") "method") (.path (methodPath .delete)),
        assertEq (.field (.var "request") "path") (keyPathOf k.text)]
    else [])

def readBackSingle (r : Resource) (paths : TestPaths) : List Stmt :=
  [respondGet (.path (paths.client.child "PATH")) (objectValue (.var "body")),
    .bindName "fetched" (expecting (methodCall (.var "client") "get" [.ref newQuery])
      "read back succeeds"),
    assertEq (.var "fetched") (.var "payload")]
  ++ (if r.supports .delete then
      [.run (expecting (methodCall (.var "client") "delete" []) "delete succeeds")]
    else [])

def sentBody : Stmt :=
  .bindName "body" (expecting
    (methodCall (methodCall (.var "transport") "last_request" []) "and_then"
      [.closure "request" (.field (.var "request") "body")])
    "create sends a body")

def checkRequired (paths : TestPaths) : Stmt :=
  .forEach "field" (.path (paths.validators.child "REQUIRED_FIELDS"))
    [.run (invocation "assert"
      [methodCall (.var "body") "contains_key" [.deref (.var "field")],
        .text "missing required field \x7bfield\x7d"])]

def createAndVerify (r : Resource) (p : PlacedTable) (paths : TestPaths) : Function :=
  testFunction "create_and_verify"
    ([constructPair,
      .bindName "payload" (callName "minimal_payload" []),
      .run (expecting (methodCall (.var "client") "post" [.ref (.var "payload")]) "create succeeds"),
      sentBody,
      checkRequired paths]
    ++ match p.mkeyField? with
      | some f => readBackByKey r (keySample f)
      | none => readBackSingle r paths)

def minimalPayloadPasses (paths : TestPaths) : Function :=
  testFunction "minimal_payload_passes_create_validation"
    [.bindName "payload" (expecting
        (callPath (runtime ["Model", "to_record"]) [.ref (callName "minimal_payload" [])])
        "payload serializes"),
      .bindName "result" (callPath (paths.validators.child "validate_create")
        [.ref (.var "payload")]),
      assertOk]

/-! ## Tests of the checks -/

/-- Expects one kind of validation error and looks at one of its fields. -/
def expectError (result : Expr) (variant field : String) (wanted : Expr) : Stmt :=
  .choose result
    [.block (.variant (.rel ["Err"]) (.record (runtime ["ValidationError", variant]) [field]))
        [assertEq (.var field) wanted],
      .value (.name "other") (invocation "panic"
        [.text ("Expected " ++ variant ++ ", got: \x7b:?\x7d"), .var "other"])]

def updateAcceptsEmpty (validators : Path) : Function :=
  testFunction "update_accepts_empty_payload"
    [.bindName "result" (callPath (validators.child "validate_update") [.ref newRecord]), assertOk]

def createRejectsEmpty (validators : Path) : Function :=
  testFunction "create_rejects_empty_payload"
    [expectError (callPath (validators.child "validate_create") [.ref newRecord])
      "MissingRequiredField" "fields" (.path (validators.child "REQUIRED_FIELDS"))]

/-- Puts one value into the payload. -/
def insertValue (wire : String) (value : Expr) : Stmt :=
  .run (methodCall (.var "payload") "insert"
    [methodCall (.text wire) "to_string" [], callPath (runtime ["Value", "from"]) [value]])

def mutableRecord : Stmt := .bind true (.name "payload") newRecord

def validateUpdate (validators : Path) : Expr :=
  callPath (validators.child "validate_update") [.ref (.var "payload")]

def acceptsDeclared (validators : Path) (f : Field) : Function :=
  testFunction (f.codeName ++ "_accepts_declared_values")
    [.forEach "value" (.path (validators.child (valuesConstant f.codeName)))
      [mutableRecord,
        insertValue f.wireName (.deref (.var "value")),
        .bindName "result" (validateUpdate validators),
        .run (invocation "assert"
          [methodCall (.var "result") "is_ok" [], .text "\x7bvalue\x7d: \x7b:?\x7d",
            methodCall (.var "result") "err" []])]]

def rejectsUndeclared (validators : Path) (f : Field) : Function :=
  testFunction (f.codeName ++ "_rejects_undeclared_value")
    [mutableRecord,
      insertValue f.wireName (.text (undeclaredValue f)),
      expectError (validateUpdate validators) "InvalidEnumValue" "field" (.text f.wireName)]

def tableTests (validators : Path) (p : PlacedTable) : List Function :=
  [updateAcceptsEmpty validators]
  ++ (if p.requiredFields.isEmpty then [] else [createRejectsEmpty validators])
  ++ p.enumFields.flatMap fun f => [acceptsDeclared validators f, rejectsUndeclared validators f]

/-- The checks of a table live below those of the root, along the chain of the table. -/
def validatorTests (validators : Path) : PlacedTable → List Item :=
  PlacedTable.fold fun p below =>
    (tableTests { validators with names := validators.names ++ p.chain } p).map .function
      ++ List.zipWith (fun c items => .module [] false c.codeName items) p.childTables below

/-! ## File -/

def clientTests (r : Resource) (p : PlacedTable) (paths : TestPaths) : List Function :=
  (if r.supports .get then [clientHelper paths] else [])
  ++ (if r.supports .post then [payloadHelper p paths] else [])
  ++ (if r.supports .get then [retrieveAll p paths, retrieveWithFilter p paths] else [])
  ++ (if r.supports .post then
      if r.supports .get then [createAndVerify r p paths] else [minimalPayloadPasses paths]
    else [])

def testsFile (r : Resource) (names : TypeNames) : File :=
  let p := PlacedTable.ofResource r
  let paths := testPaths r names
  { docs := [" Smoke tests for " ++ ticked r.dottedPath ++ "."]
    items := (clientTests r p paths).map .function ++ validatorTests paths.validators p }

end RestForge.Emit
