import RestForge.Rest.DecodeError

/-!
# Failures of a client

* `TransportError`: a request that got no answer.
* `ValidationError`: a payload that is not sent.
* `ClientError`: everything that an operation of a client can end with besides an answer.
-/

set_option autoImplicit false

namespace RestForge.Rest

/-! ## Transport -/

inductive TransportError where
  | connection (text : String)
  | timeout (milliseconds : Nat)
  | other (text : String)
  deriving Repr, DecidableEq

namespace TransportError

def message : TransportError → String
  | connection text => s!"Connection failed: {text}"
  | timeout milliseconds => s!"Request timeout after {milliseconds}ms"
  | other text => s!"Transport failure: {text}"

/-- The same request may succeed later. -/
def isRetryable : TransportError → Bool
  | connection _ => true
  | timeout _ => true
  | other _ => false

end TransportError

/-! ## Validation -/

inductive ValidationError where
  | missingRequired (resource : String) (fields : List String)
  | invalidEnum (resource field value : String) (allowed : List String)
  deriving Repr, DecidableEq

namespace ValidationError

def kind : ValidationError → String
  | missingRequired _ _ => "MissingRequiredFieldError"
  | invalidEnum _ _ _ _ => "InvalidEnumValueError"

def message : ValidationError → String
  | missingRequired resource fields =>
    s!"{resource}: missing required field(s): " ++ String.intercalate ", " fields
  | invalidEnum resource field value allowed =>
    s!"{resource}: invalid value {Text.quote value} for {field}, expected one of: "
      ++ String.intercalate ", " allowed

/-- The wire names of the fields at fault. -/
def fields : ValidationError → List String
  | missingRequired _ fields => fields
  | invalidEnum _ field _ _ => [field]

end ValidationError

/-! ## Clients -/

inductive ClientError where
  | transport (e : TransportError)
  | api (httpStatus : Nat) (text : String)
  | decode (e : DecodeError)
  | validation (e : ValidationError)
  | notFound (path : String)
  deriving Repr, DecidableEq

namespace ClientError

def kind : ClientError → String
  | transport _ => "Transport"
  | api _ _ => "Api"
  | decode _ => "Decode"
  | validation _ => "Validation"
  | notFound _ => "NotFound"

def message : ClientError → String
  | transport e => e.message
  | api httpStatus text => s!"HTTP {httpStatus}: {text}"
  | decode e => s!"Failed to decode response: {e.text}"
  | validation e => e.message
  | notFound path => s!"No object found at {path}"

def statusCode? : ClientError → Option Nat
  | api httpStatus _ => some httpStatus
  | notFound _ => some 404
  | _ => none

/-- Nothing was sent. -/
def isValidation : ClientError → Bool
  | validation _ => true
  | _ => false

end ClientError

end RestForge.Rest
