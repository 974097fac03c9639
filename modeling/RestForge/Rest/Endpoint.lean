import RestForge.Rest.KeySegment
import RestForge.Rest.Query
import RestForge.Rest.Response
import RestForge.Schema.Basic

/-!
# Endpoints

* `Request`: what is sent for one operation.
* `Transport`: a way to send requests, with a state of its own.
* `Endpoint`: a path under a category, and the operations on it.

An operation sends one request. An answer that reports a failure is an error of the operation.
-/

set_option autoImplicit false

namespace RestForge.Rest

structure Request where
  method : Method
  category : Category
  path : String
  query : Query
  body : Option Record
  deriving Repr

class Transport (τ : Type) where
  send : Request → StateM τ (Except TransportError Response)

structure Endpoint where
  category : Category
  path : String
  deriving Repr, DecidableEq

namespace Endpoint

/-- The endpoint of a table nested in the one at this endpoint. -/
def child (e : Endpoint) (segment : String) : Endpoint := { e with path := e.path ++ "/" ++ segment }

/-- The path of one object, or of the endpoint itself where there is no key. -/
def keyPath (e : Endpoint) : Option String → String
  | none => e.path
  | some key => e.path ++ "/" ++ KeySegment.encode key

/-- The parts of an endpoint by name. -/
def detail (e : Endpoint) : String :=
  let category := match e.category with
    | .config => "Config"
    | .monitor => "Monitor"
  s!"Endpoint \x7b category: {category}, path: {Text.quote e.path}, .. \x7d"

/-! ## Requests -/

def getRequest (e : Endpoint) (key : Option String) (query : Query) : Request :=
  ⟨.get, e.category, e.keyPath key, query, none⟩

def postRequest (e : Endpoint) (body : Record) : Request :=
  ⟨.post, e.category, e.path, [], some body⟩

def putRequest (e : Endpoint) (key : Option String) (body : Record) : Request :=
  ⟨.put, e.category, e.keyPath key, [], some body⟩

def deleteRequest (e : Endpoint) (key : Option String) : Request :=
  ⟨.delete, e.category, e.keyPath key, [], none⟩

end Endpoint

/-! ## Operations -/

variable {τ : Type} [Transport τ]

/-- An operation goes on with the state of the transport, whether or not it succeeds. -/
abbrev Operation (τ : Type) := ExceptT ClientError (StateM τ)

/-- Sends a request and checks the answer. -/
def dispatch (r : Request) : Operation τ Response := fun t =>
  match Transport.send r t with
  | (.ok response, t) => (response.checked, t)
  | (.error e, t) => (.error (.transport e), t)

namespace Endpoint

def get (e : Endpoint) (key : Option String) (query : Query) : Operation τ Response :=
  dispatch (e.getRequest key query)

def post (e : Endpoint) (body : Record) : Operation τ Response := dispatch (e.postRequest body)

def put (e : Endpoint) (key : Option String) (body : Record) : Operation τ Response :=
  dispatch (e.putRequest key body)

def delete (e : Endpoint) (key : Option String) : Operation τ Response :=
  dispatch (e.deleteRequest key)

/-! ## Reads of models -/

def getMany (e : Endpoint) (m : ModelShape) (query : Query) : Operation τ (List ModelValue) := do
  MonadExcept.ofExcept (decodeMany m (← e.get none query))

def getOne (e : Endpoint) (m : ModelShape) (key : Option String) (query : Query) :
    Operation τ ModelValue := do
  MonadExcept.ofExcept (decodeOne m (← e.get key query) (e.keyPath key))

end Endpoint

end RestForge.Rest
