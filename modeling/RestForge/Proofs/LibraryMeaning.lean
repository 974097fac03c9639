import RestForge.Rest.MockTransport
import RestForge.Proofs.CheckMeaning

/-!
# What generated code finds in its libraries

Generated clients and their tests call a small part of the standard and of the runtime library. This
file says what that part does. A use that leaves it is stuck.

* `Datum`: what an expression stands for. A reference stands for what it leads to.
* `Run`: a run with the transport of a test, which ends in a value, in a panic or in a return.
* `libraryValue?`, `libraryCall`, `libraryMethod`: constants, functions and methods by name.
* `macroCall`: assertions.
-/

set_option autoImplicit false

namespace RestForge.Source

open Rest

/-! ## Values -/

inductive Datum where
  | unit
  | text (s : String)
  | integer (i : Int)
  | boolean (b : Bool)
  | list (items : List Datum)
  | tuple (items : List Datum)
  | absent
  | present (d : Datum)
  | done (d : Datum)
  | failed (d : Datum)
  | json (j : Json)
  | record (r : Record)
  | model (m : ModelShape) (slots : ModelValue)
  /-- A struct that is no model, with its fields. -/
  | struct (type : String) (fields : List (String × Datum))
  /-- The one transport of a test. -/
  | transport
  | endpoint (e : Endpoint)
  | params (p : GetParams)
  | query (q : Query)
  | method (m : Method)
  | category (c : Category)
  | request (r : Request)
  | response (r : Response)
  | validationError (e : ValidationError)
  | clientError (e : ClientError)

namespace Datum

def ofOption {α : Type} (f : α → Datum) : Option α → Datum
  | none => absent
  | some a => present (f a)

def ofExcept {ε α : Type} (error : ε → Datum) (f : α → Datum) : Except ε α → Datum
  | .ok a => done (f a)
  | .error e => failed (error e)

mutual

def ofValue : Value → Datum
  | .text s => text s
  | .list items => list (ofValues items)
  | .tuple items => tuple (ofValues items)
  | .record r => record r

def ofValues : List Value → List Datum
  | [] => []
  | v :: vs => ofValue v :: ofValues vs

end

def ofVerdict : Verdict → Datum := ofExcept validationError fun _ => unit

def ofTexts (items : List String) : Datum := list (items.map text)

@[simp] theorem ofValue_ofTexts (items : List String) :
    ofValue (Value.ofTexts items) = ofTexts items := by
  have hitems : ofValues (items.map .text) = items.map text := by
    induction items with
    | nil => rfl
    | cons s items ih => rw [List.map_cons, List.map_cons, ofValues, ih, ofValue]
  rw [Value.ofTexts, ofValue, hitems, ofTexts]

def json? : Datum → Option Json
  | json j => some j
  | _ => none

/-- The key of a request, which may be left out. -/
def key? : Datum → Option (Option String)
  | absent => some none
  | present (text key) => some (some key)
  | _ => none

/-- The part of a value that goes by a name. -/
def field? : Datum → String → Option Datum
  | struct _ fields, name => fields.lookup name
  | request r, "method" => some (method r.method)
  | request r, "category" => some (category r.category)
  | request r, "path" => some (text r.path)
  | request r, "body" => some (ofOption record r.body)
  | _, _ => none

end Datum

/-! ## Runs -/

/-- How a run ends before its value is known. -/
inductive Exit where
  | panicked
  /-- The function returns at once. -/
  | returned (d : Datum)

/-- The transport is there from the moment a test makes it. -/
abbrev Run := ExceptT Exit (StateT (Option MockTransport) Option)

namespace Run

def stuck {α : Type} : Run α := fun _ => none

def given {α : Type} : Option α → Run α
  | some a => pure a
  | none => stuck

def panic {α : Type} : Run α := throw .panicked

/-- A test makes its transport once. -/
def newTransport : Run Datum := fun
  | none => some (.ok .transport, some .empty)
  | some _ => none

/-- Acts on the transport. -/
def onTransport {α : Type} (act : MockTransport → α × MockTransport) : Run α := fun
  | some t => let (a, t') := act t; some (.ok a, some t')
  | none => none

def send (op : Rest.Operation MockTransport Response) : Run Datum :=
  onTransport fun t =>
    let (answer, t') := op t
    (.ofExcept .clientError .response answer, t')

/-- An error is handed on to the caller, as an error of clients. -/
def handOn : Datum → Run Datum
  | .done d => pure d
  | .failed (.validationError e) => throw (.returned (.failed (.clientError (.validation e))))
  | .failed (.clientError e) => throw (.returned (.failed (.clientError e)))
  | _ => stuck

/-- A function returns what it was made to return on the way. -/
def returning (run : Run Datum) : Run Datum :=
  tryCatch run fun
    | .returned d => pure d
    | .panicked => panic

@[simp] theorem given_some {α : Type} (a : α) : given (some a) = pure a := rfl

@[simp] theorem handOn_done (d : Datum) : handOn (.done d) = pure d := rfl

@[simp] theorem returning_pure (d : Datum) : returning (pure d) = pure d := rfl

end Run

/-! ## Names of the libraries -/

def libraryValue? : Path → Option Datum
  | ⟨false, ["None"]⟩ => some .absent
  | ⟨false, ["true"]⟩ => some (.boolean true)
  | ⟨false, ["false"]⟩ => some (.boolean false)
  | ⟨true, ["stencil", "Category", "Config"]⟩ => some (.category .config)
  | ⟨true, ["stencil", "Category", "Monitor"]⟩ => some (.category .monitor)
  | ⟨true, ["stencil", "HttpMethod", "Get"]⟩ => some (.method .get)
  | ⟨true, ["stencil", "HttpMethod", "Post"]⟩ => some (.method .post)
  | ⟨true, ["stencil", "HttpMethod", "Put"]⟩ => some (.method .put)
  | ⟨true, ["stencil", "HttpMethod", "Delete"]⟩ => some (.method .delete)
  | _ => none

def libraryCall : Path → List Datum → Option (Run Datum)
  | ⟨false, ["Some"]⟩, [d] => some (pure (.present d))
  | ⟨false, ["Vec", "new"]⟩, [] => some (pure (.list []))
  | ⟨true, ["std", "string", "String", "new"]⟩, [] => some (pure (.text ""))
  | ⟨true, ["std", "sync", "Arc", "new"]⟩, [d] => some (pure d)
  | ⟨true, ["stencil", "testing", "MockTransport", "new"]⟩, [] => some .newTransport
  | ⟨true, ["stencil", "Endpoint", "new"]⟩, [.transport, .category c, .text path] =>
    some (pure (.endpoint ⟨c, path⟩))
  | ⟨true, ["stencil", "Model", "to_record"]⟩, [.model m slots] =>
    some (pure (.done (.record (m.write slots))))
  | ⟨true, ["stencil", "Record", "new"]⟩, [] => some (pure (.record []))
  | ⟨true, ["stencil", "GetParams", "new"]⟩, [] => some (pure (.params .empty))
  | ⟨true, ["stencil", "Value", "from"]⟩, [.text s] => some (pure (.json (.string s)))
  | ⟨true, ["stencil", "Value", "Object"]⟩, [.record r] => some (pure (.json (.object r)))
  | ⟨true, ["stencil", "Value", "Array"]⟩, [.list items] =>
    (items.mapM Datum.json?).map fun items => pure (.json (.array items))
  | ⟨true, ["stencil", "Response", "success"]⟩, [.json j] => some (pure (.response (.success j)))
  | _, _ => none

/-- A whole number is written in decimal digits. -/
def libraryMethod : Datum → String → List Datum → Run Datum
  | d, "clone", [] => pure d
  | .text s, "to_string", [] => pure (.text s)
  | .integer i, "to_string", [] => pure (.text (toString i))
  | .text s, "as_str", [] => pure (.text s)
  | .done _, "is_ok", [] => pure (.boolean true)
  | .failed _, "is_ok", [] => pure (.boolean false)
  | .done d, "expect", [.text _] => pure d
  | .present d, "expect", [.text _] => pure d
  | .failed _, "expect", [.text _] => .panic
  | .absent, "expect", [.text _] => .panic
  | .record r, "contains_key", [.text key] => pure (.boolean (r.contains key))
  | .params p, "to_query", [] => pure (.query p.query)
  | .endpoint e, "child", [.text segment] => pure (.endpoint (e.child segment))
  | .endpoint e, "path", [] => pure (.text e.path)
  | .endpoint e, "key_path", [key] => .given (key.key?.map fun key => .text (e.keyPath key))
  | .endpoint e, "get", [key, .query q] => do .send (e.get (← .given key.key?) q)
  | .endpoint e, "post", [.record body] => .send (e.post body)
  | .endpoint e, "put", [key, .record body] => do .send (e.put (← .given key.key?) body)
  | .endpoint e, "delete", [key] => do .send (e.delete (← .given key.key?))
  | .transport, "last_request", [] =>
    .onTransport fun t => (.ofOption .request t.lastRequest?, t)
  | .transport, "respond", [.method m, .text path, .response answer] =>
    .onTransport fun t => (.unit, t.respond m path answer)
  | _, _, _ => .stuck

/-! ## One use -/

section Uses

variable (d : Datum) (s : String) (r : Record)

@[simp] theorem libraryMethod_clone : libraryMethod d "clone" [] = pure d := by
  cases d <;> rfl

@[simp] theorem libraryMethod_toString : libraryMethod (.text s) "to_string" [] = pure (.text s) := rfl

@[simp] theorem libraryMethod_digits (i : Int) :
    libraryMethod (.integer i) "to_string" [] = pure (.text (toString i)) := rfl

@[simp] theorem libraryMethod_asStr : libraryMethod (.text s) "as_str" [] = pure (.text s) := rfl

@[simp] theorem libraryMethod_isOk : libraryMethod (.done d) "is_ok" [] = pure (.boolean true) := rfl

@[simp] theorem libraryMethod_expect_done :
    libraryMethod (.done d) "expect" [.text s] = pure d := rfl

@[simp] theorem libraryMethod_expect_present :
    libraryMethod (.present d) "expect" [.text s] = pure d := rfl

@[simp] theorem libraryMethod_containsKey :
    libraryMethod (.record r) "contains_key" [.text s] = pure (.boolean (r.contains s)) := rfl

@[simp] theorem libraryMethod_toQuery (p : GetParams) :
    libraryMethod (.params p) "to_query" [] = pure (.query p.query) := rfl

@[simp] theorem libraryMethod_lastRequest : libraryMethod .transport "last_request" []
    = .onTransport fun t => (.ofOption .request t.lastRequest?, t) := rfl

@[simp] theorem libraryMethod_respond (m : Method) (answer : Response) :
    libraryMethod .transport "respond" [.method m, .text s, .response answer]
      = .onTransport fun t => (.unit, t.respond m s answer) := rfl

variable (e : Endpoint) (key : Datum) (q : Query)

@[simp] theorem libraryMethod_child : libraryMethod (.endpoint e) "child" [.text s]
    = pure (.endpoint (e.child s)) := rfl

@[simp] theorem libraryMethod_path :
    libraryMethod (.endpoint e) "path" [] = pure (.text e.path) := rfl

@[simp] theorem libraryMethod_keyPath : libraryMethod (.endpoint e) "key_path" [key]
    = .given (key.key?.map fun key => .text (e.keyPath key)) := rfl

@[simp] theorem libraryMethod_get : libraryMethod (.endpoint e) "get" [key, .query q]
    = (do .send (e.get (← .given key.key?) q)) := rfl

@[simp] theorem libraryMethod_post :
    libraryMethod (.endpoint e) "post" [.record r] = .send (e.post r) := rfl

@[simp] theorem libraryMethod_delete : libraryMethod (.endpoint e) "delete" [key]
    = (do .send (e.delete (← .given key.key?))) := rfl

end Uses

end RestForge.Source
