import RestForge.FileTree.Fault
import RestForge.Json.Reader
import RestForge.Naming.NameTable

/-!
# Why a schema is refused

* `Location`: a field of a schema, by its index in the root and in each nested table.
* `Spot`: a place in a schema that holds a value of the wrong sort.
* `Flaw`: a document that describes no resource.
* `Refusal`: everything that reading a document can meet.
* `SchemaError`: a refusal, or a file that holds no document, with the path of the file; each with
  the text and the class shown to the user.
-/

set_option autoImplicit false

namespace RestForge.Schema

/-! ## Places in a document -/

/-- Indices from the root's fields inwards. -/
structure Location where
  indices : List Nat
  deriving Repr, DecidableEq

namespace Location

/-- The field with index `i` of the table at this location. -/
def child (l : Location) (i : Nat) : Location := ⟨l.indices ++ [i]⟩

def text (l : Location) : String :=
  "fields" ++ String.intercalate ".children" (l.indices.map fun i => s!"[{i}]")

end Location

inductive Spot where
  | member (name : String)
  | method (i : Nat)
  | field (l : Location)
  | fieldMember (l : Location) (name : String)
  | option (l : Location) (j : Nat)
  deriving Repr, DecidableEq

def Spot.text : Spot → String
  | member name => name
  | method i => s!"methods[{i}]"
  | field l => l.text
  | fieldMember l name => l.text ++ "." ++ name
  | option l j => s!"{l.text}.options[{j}]"

/-! ## Flaws -/

inductive Flaw where
  | wrongKind (spot : Spot) (wanted found : Json.Kind)
  | missingCategory
  | unknownCategory (word : String)
  | missingPath
  | emptyPath
  | emptySegment (path : String)
  | missingMethods
  | unknownMethod (i : Nat) (word : String)
  | fieldsNotArray (found : Json.Kind)
  | keyUnknown (key : String)
  | keyIsTable (key : String)
  | unnamedField (l : Location)
  | duplicateField (l : Location) (name : String)
  | unknownType (l : Location) (tag name : String)
  | missingType (l : Location) (name : String)
  | requiredNotBoolean (l : Location) (found : Json.Kind)
  | optionsNotArray (l : Location) (found : Json.Kind)
  | unnamedOption (l : Location) (j : Nat)
  | enumWithoutOptions (l : Location) (name : String)
  | optionsWithoutEnum (l : Location) (name : String)
  | tableWithoutChildren (l : Location) (name : String)
  | childrenWithoutTable (l : Location) (name : String)
  | tableKeyUnknown (l : Location) (key name : String)
  | duplicateResource (dottedPath firstFile : String)
  deriving Repr, DecidableEq

def Flaw.message : Flaw → String
  | wrongKind spot wanted found => s!"{spot.text}: expected {wanted.phrase}, found {found.phrase}"
  | missingCategory => "missing category marker"
  | unknownCategory word => s!"unknown category '{word}'"
  | missingPath => "missing resource path"
  | emptyPath => "resource path is empty"
  | emptySegment path => s!"resource path '{path}' has an empty segment"
  | missingMethods => "missing method list"
  | unknownMethod i word => s!"methods[{i}]: unknown method '{word}'"
  | fieldsNotArray found => s!"'fields' must be an array, found {found.phrase}"
  | keyUnknown key => s!"mkey '{key}' does not name a field"
  | keyIsTable key => s!"mkey '{key}' names a nested table"
  | unnamedField l => s!"{l.text}: missing field name"
  | duplicateField l name => s!"{l.text}: duplicate field '{name}'"
  | unknownType l tag name => s!"{l.text}: unknown type '{tag}' for '{name}'"
  | missingType l name => s!"{l.text}: missing type for '{name}'"
  | requiredNotBoolean l found => s!"{l.text}: 'required' must be a boolean, found {found.phrase}"
  | optionsNotArray l found => s!"{l.text}: 'options' must be an array, found {found.phrase}"
  | unnamedOption l j => s!"{l.text}.options[{j}]: missing option name"
  | enumWithoutOptions l name => s!"{l.text}: enum '{name}' declares no options"
  | optionsWithoutEnum l name => s!"{l.text}: options declared on non-enum field '{name}'"
  | tableWithoutChildren l name => s!"{l.text}: table '{name}' needs a 'children' array"
  | childrenWithoutTable l name => s!"{l.text}: children declared on non-table field '{name}'"
  | tableKeyUnknown l key name => s!"{l.text}: mkey '{key}' does not name a field of '{name}'"
  | duplicateResource dottedPath firstFile =>
    s!"duplicate resource '{dottedPath}', already defined by {firstFile}"

/-! ## Refusals -/

inductive Refusal where
  | notObject (found : Json.Kind)
  | flawed (flaw : Flaw)
  | tooDeep (l : Location) (limit : Nat)
  | collides (c : Naming.Collision)
  deriving Repr, DecidableEq

inductive SchemaError where
  | unreadable (path : String) (fault : FileTree.Fault)
  | notJson (path : String) (e : Json.SyntaxError)
  | refused (path : String) (r : Refusal)
  deriving Repr, DecidableEq

namespace SchemaError

/-- The class of the error in reports. -/
def kind : SchemaError → String
  | unreadable _ _ => "SchemaIOError"
  | notJson _ _ => "SchemaFormatError"
  | refused _ (.notObject _) => "SchemaFormatError"
  | refused _ (.flawed _) => "SchemaSemanticError"
  | refused _ (.tooDeep _ _) => "SchemaDepthError"
  | refused _ (.collides _) => "IdentifierCollisionError"

def message : SchemaError → String
  | unreadable path fault => s!"Failed to read schema '{path}': {fault.message}"
  | notJson path e => s!"Malformed schema '{path}': {e.message}"
  | refused path (.notObject found) =>
    s!"Malformed schema '{path}': expected a JSON object, found {found.phrase}"
  | refused path (.flawed flaw) => s!"Invalid schema '{path}': {flaw.message}"
  | refused path (.tooDeep l limit) =>
    s!"Schema '{path}': table '{l.text}' exceeds the maximum nesting depth of {limit}"
  | refused _ (.collides c) => c.message

end SchemaError

end RestForge.Schema
