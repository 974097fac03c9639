import RestForge.Rest.Failure
import RestForge.Rest.Model

/-!
# Responses

* `Response`: status, payload and message of an answer; `Response.read`, `Response.json`: its form in
  a document.
* `Response.checked`: an answer that reports a failure is an error.
* `decodeMany`, `decodeOne`: the models in a payload.
-/

set_option autoImplicit false

namespace RestForge.Rest

inductive Status where
  | success
  | error
  deriving Repr, DecidableEq

def Status.text : Status → String
  | success => "success"
  | error => "error"

structure Response where
  status : Status
  httpStatus : Nat
  results : Json
  message : Option String
  deriving Repr

namespace Response

def success (results : Json) : Response := ⟨.success, 200, results, none⟩

def failure (httpStatus : Nat) (message : String) : Response :=
  ⟨.error, httpStatus, .null, some message⟩

def isSuccess (r : Response) : Bool := r.status == .success

/-! ## Written form -/

def json (r : Response) : Json :=
  .object (Record.ofList
    ([("status", Json.string r.status.text), ("http_status", .nat r.httpStatus),
      ("results", r.results)] ++ (r.message.map fun m => ("message", Json.string m)).toList))

/-! ## Reading -/

def statusOf (word : String) : Except DecodeError Status :=
  if word = "success" then .ok .success
  else if word = "error" then .ok .error
  else .error (.unknownWord word "success" "error")

/-- The status is a word, or an object whose only key is the word and whose value is `null`. -/
def readStatus : Reader Status
  | .string word => statusOf word
  | .object [(word, value)] => do
    let status ← statusOf word
    if value.isNull then return status else Reader.mismatch .unit value
  | .object _ => .error (.wrongValue .map .singleKey)
  | j => Reader.mismatch .word j

/-- The members read so far. -/
structure Draft where
  status : Option Status
  httpStatus : Option Nat
  results : Json
  message : Option String

def Draft.empty : Draft := ⟨.none, .none, .null, .none⟩

def readMember (p : Draft) (key : String) (value : Json) : Except DecodeError Draft :=
  match key with
  | "status" => do return { p with status := some (← readStatus value) }
  | "http_status" => do return { p with httpStatus := some (← Reader.uint16 value) }
  | "results" => .ok { p with results := value }
  | "message" => do return { p with message := ← Reader.optional Reader.string value }
  | _ => .ok p

/-- Status and code are required. -/
def Draft.complete (p : Draft) : Except DecodeError Response :=
  match p.status, p.httpStatus with
  | .none, _ => .error (.missingField "status")
  | some _, .none => .error (.missingField "http_status")
  | some status, some httpStatus => .ok ⟨status, httpStatus, p.results, p.message⟩

/-- The members of a response in the order in which a list gives them. -/
def memberNames : List String := ["status", "http_status", "results", "message"]

/-- A list must reach the last required member and not go beyond the last one. -/
def readList (items : List Json) : Except DecodeError Response := do
  let p ← (memberNames.zip items).foldlM (fun p m => readMember p m.1 m.2) Draft.empty
  match p.complete with
  | .error _ => throw (.tooShort items.length "Response" memberNames.length)
  | .ok r => if items.length ≤ memberNames.length then return r else throw (.tooLong items.length)

def read : Reader Response
  | .object members => do
    (← members.foldlM (fun p m => readMember p m.1 m.2) Draft.empty).complete
  | .array items => readList items
  | j => Reader.mismatch (.record "Response") j

/-! ## Failure answers -/

def failureText (r : Response) : String :=
  r.message.getD s!"request failed with HTTP {r.httpStatus}"

def checked (r : Response) : Except ClientError Response :=
  if r.isSuccess then .ok r else .error (.api r.httpStatus r.failureText)

end Response

/-! ## Models in a payload -/

def decoded {α : Type} : Except DecodeError α → Except ClientError α := Except.mapError .decode

/-- All objects of a collection: the items of a list, a lone object, or nothing. -/
def decodeMany (m : ModelShape) (r : Response) : Except ClientError (List ModelValue) := do
  match (← r.checked).results with
  | .array items => decoded (items.mapM m.read)
  | .object members => do return [← decoded (m.read (.object members))]
  | .null => return []
  | other => throw (.decode (.wrongShape "array" other.compact))

/-- One object: the first item of a list, or a lone object. -/
def decodeOne (m : ModelShape) (r : Response) (path : String) : Except ClientError ModelValue := do
  match (← r.checked).results with
  | .array [] => throw (.notFound path)
  | .array (item :: _) => decoded (m.read item)
  | .object members => decoded (m.read (.object members))
  | .null => throw (.notFound path)
  | other => throw (.decode (.wrongShape "object" other.compact))

end RestForge.Rest
