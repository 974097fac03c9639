import RestForge.Rest.Endpoint

/-!
# A transport for tests

* `MockTransport`: records every request and answers from a table; what has no entry there succeeds,
  a read with an empty list and any other request with `null`.
* `Interrupted`: a transport whose next request may fail before it is sent.
-/

set_option autoImplicit false

namespace RestForge.Rest

/-! ## Recording -/

structure MockTransport where
  /-- Requests, oldest first. -/
  requests : List Request
  /-- Answers by method and path, latest first. -/
  canned : List ((Method × String) × Response)

namespace MockTransport

def empty : MockTransport := ⟨[], []⟩

/-- Every request with the method on the path gets the answer, until another one is given. -/
def respond (t : MockTransport) (method : Method) (path : String) (response : Response) :
    MockTransport :=
  { t with canned := ((method, path), response) :: t.canned }

def lastRequest? (t : MockTransport) : Option Request := t.requests.getLast?

/-- Forgets the requests and keeps the answers. -/
def clear (t : MockTransport) : MockTransport := { t with requests := [] }

def standardAnswer : Method → Response
  | .get => .success (.array [])
  | _ => .success .null

def answer (t : MockTransport) (r : Request) : Response :=
  (t.canned.lookup (r.method, r.path)).getD (standardAnswer r.method)

def record (t : MockTransport) (r : Request) : MockTransport :=
  { t with requests := t.requests ++ [r] }

end MockTransport

instance : Transport MockTransport where
  send r := fun t => (.ok (t.answer r), t.record r)

/-! ## Interruption -/

structure Interrupted (τ : Type) where
  transport : τ
  /-- The error of the next request. -/
  pending : Option TransportError

namespace Interrupted

variable {τ : Type} [Transport τ]

/-- A request that fails is not sent on. -/
def send (r : Request) : StateM (Interrupted τ) (Except TransportError Response) := fun t =>
  match t.pending with
  | some e => (.error e, { t with pending := none })
  | none =>
    let (answer, transport) := Transport.send r t.transport
    (answer, { t with transport })

instance : Transport (Interrupted τ) where
  send := send

end Interrupted

end RestForge.Rest
