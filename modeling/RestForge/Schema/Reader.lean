import RestForge.Json.Printer
import RestForge.Schema.Basic
import RestForge.Schema.Error

/-!
# Reading a resource from a document

* `Reading`: reading gives names as it goes; names given before a refusal stay given.
* `Header`: category, path and methods, which can be read without giving any name.
* `readTable`: the fields of one table and the tables nested in it. Nesting is bounded.
* `readResource`: a whole resource.

Of several flaws the first in reading order is reported: the header, the modules, the help text of
the resource, then field by field, and the identifying field of a table after its fields.
-/

set_option autoImplicit false

namespace RestForge.Schema

open Naming (NameTable Scope)

abbrev Reading := ExceptT Refusal (StateM NameTable)

def flaw {α : Type} (f : Flaw) : Except Refusal α := .error (.flawed f)

/-- Gives a name in a scope. -/
def giveName (scope : Scope) (wire : String) : Reading String :=
  fun t =>
    match t.normalize scope wire with
    | (.ok code, t) => (.ok code, t)
    | (.error c, t) => (.error (.collides c), t)

/-! ## Members -/

def asObject : Json → Except Refusal Record
  | .object members => .ok members
  | other => .error (.notObject other.kind)

/-- An absent member and `null` mean the same. -/
def present? (doc : Record) (key : String) : Option Json :=
  match doc.get? key with
  | none => none
  | some .null => none
  | some value => some value

def optionalString (doc : Record) (key : String) (spot : Spot) :
    Except Refusal (Option String) :=
  match present? doc key with
  | none => .ok none
  | some (.string s) => .ok (some s)
  | some other => flaw (.wrongKind spot .string other.kind)

/-! ## Header -/

structure Header where
  category : Category
  segments : List String
  methods : List Method
  deriving Repr, DecidableEq

def Header.dottedPath (h : Header) : String :=
  h.category.text ++ "." ++ String.intercalate "." h.segments

def readCategory (doc : Record) : Except Refusal Category :=
  match present? doc "category" with
  | none => flaw .missingCategory
  | some (.string word) =>
    match Category.ofSpelling? word with
    | some c => .ok c
    | none => flaw (.unknownCategory word)
  | some other => flaw (.wrongKind (.member "category") .string other.kind)

/-- Slashes at both ends do not count. -/
def readSegments (doc : Record) : Except Refusal (List String) := do
  match ← optionalString doc "path" (.member "path") with
  | none => flaw .missingPath
  | some raw =>
    let path := Text.trimWhere (· == '/') raw
    if path.isEmpty then flaw .emptyPath
    else
      let segments := Text.split '/' path
      if segments.any String.isEmpty then flaw (.emptySegment raw) else return segments

def readMethod (i : Nat) : Json → Except Refusal Method
  | .string word =>
    match Method.ofSpelling? word with
    | some m => .ok m
    | none => flaw (.unknownMethod i word)
  | other => flaw (.wrongKind (.method i) .string other.kind)

def readMethodsFrom (i : Nat) : List Json → Except Refusal (List Method)
  | [] => .ok []
  | item :: items => do
    let m ← readMethod i item
    let ms ← readMethodsFrom (i + 1) items
    return m :: ms

/-- Each method once, in the order of `Method.all`. -/
def readMethods (doc : Record) : Except Refusal (List Method) :=
  match present? doc "methods" with
  | none => flaw .missingMethods
  | some (.array items) => do
    let listed ← readMethodsFrom 0 items
    return Method.all.filter listed.contains
  | some other => flaw (.wrongKind (.member "methods") .array other.kind)

def readHeader (doc : Record) : Except Refusal Header := do
  let category ← readCategory doc
  let segments ← readSegments doc
  let methods ← readMethods doc
  return ⟨category, segments, methods⟩

/-- The dotted path of a document, without giving names. -/
def readDottedPath (doc : Json) : Except Refusal String := do
  let members ← asObject doc
  let header ← readHeader members
  return header.dottedPath

/-- Gives the modules of a path, each in the scope of the dotted path above it. -/
def readModules (parent : String) : List String → Reading (List String)
  | [] => pure []
  | segment :: segments => do
    let code ← giveName (Scope.modules parent) segment
    let codes ← readModules (parent ++ "." ++ segment) segments
    return code :: codes

/-! ## Fields -/

def readName (l : Location) (seen : List String) (item : Record) : Except Refusal String :=
  match item.get? "name" with
  | some (.string name) =>
    if name.isEmpty then flaw (.unnamedField l)
    else if seen.contains name then flaw (.duplicateField l name)
    else .ok name
  | _ => flaw (.unnamedField l)

def readType (l : Location) (name : String) (item : Record) : Except Refusal FieldType :=
  match item.get? "type" with
  | some (.string tag) =>
    match FieldType.ofSpelling? tag with
    | some t => .ok t
    | none => flaw (.unknownType l tag name)
  | _ => flaw (.missingType l name)

def readRequired (l : Location) (item : Record) : Except Refusal Bool :=
  match present? item "required" with
  | none => .ok false
  | some (.bool b) => .ok b
  | some other => flaw (.requiredNotBoolean l other.kind)

/-- An option is a string or an object with a name. -/
def readOption (l : Location) (j : Nat) : Json → Except Refusal String
  | .string s => .ok s
  | .object members =>
    match Record.get? members "name" with
    | some (.string s) => .ok s
    | _ => flaw (.unnamedOption l j)
  | other => flaw (.wrongKind (.option l j) .string other.kind)

def readOptionsFrom (l : Location) (j : Nat) : List Json → Except Refusal (List String)
  | [] => .ok []
  | item :: items => do
    let s ← readOption l j item
    let ss ← readOptionsFrom l (j + 1) items
    return s :: ss

/-- Enums declare options, and nothing else does. -/
def readOptions (l : Location) (name : String) (type : FieldType) (item : Record) :
    Except Refusal (List String) := do
  let options ←
    match present? item "options" with
    | none => pure []
    | some (.array items) => readOptionsFrom l 0 items
    | some other => flaw (.optionsNotArray l other.kind)
  if type = .enum then
    if options.isEmpty then flaw (.enumWithoutOptions l name) else return options
  else
    if options.isEmpty then return options else flaw (.optionsWithoutEnum l name)

/-- A default that is no string is kept as its JSON text. -/
def readDefault (item : Record) : Option String :=
  match present? item "default" with
  | none => none
  | some (.string s) => some s
  | some other => some other.compact

/-- What a field holds before a name is given and nested tables are read. -/
structure FieldHead where
  name : String
  type : FieldType
  required : Bool
  values : List String
  default : Option String
  deriving Repr, DecidableEq

def readFieldHead (l : Location) (seen : List String) (item : Record) :
    Except Refusal FieldHead := do
  let name ← readName l seen item
  let type ← readType l name item
  let required ← readRequired l item
  let values ← readOptions l name type item
  return ⟨name, type, required, values, readDefault item⟩

/-! ## Tables -/

/-- Fields of a table in document order, and the tables nested in it. -/
abbrev Contents := List Field × List Table

/-- How the fields of a nested table are read, given its key and its location. -/
abbrev Descent := String → Location → List Json → Reading Contents

def readNested (descend : Descent) (tableKey : String) (l : Location) (head : FieldHead)
    (code : String) (item : Record) : Reading Table := do
  match item.get? "children" with
  | some (.array items) =>
    let (fields, children) ← descend (tableKey ++ ">" ++ head.name) l items
    let mkey ← optionalString item "mkey" (.fieldMember l "mkey")
    if let some key := mkey then
      if !fields.any fun f => f.wireName == key && !f.isTable then
        throw (.flawed (.tableKeyUnknown l key head.name))
    let help ← optionalString item "help" (.fieldMember l "help")
    return ⟨head.name, code, help, mkey, fields, children⟩
  | _ => throw (.flawed (.tableWithoutChildren l head.name))

/-- One field, with its table if it is a nested one. -/
def readField (descend : Descent) (tableKey : String) (l : Location) (seen : List String)
    (item : Json) : Reading (Field × Option Table) := do
  match item with
  | .object item =>
    let head ← readFieldHead l seen item
    let code ← giveName (Scope.fields tableKey) head.name
    let table ←
      if head.type = .nestedTable then some <$> readNested descend tableKey l head code item
      else if (present? item "children").isSome then
        throw (.flawed (.childrenWithoutTable l head.name))
      else pure none
    let help ← optionalString item "help" (.fieldMember l "help")
    let reference ← optionalString item "datasource" (.fieldMember l "datasource")
    return (⟨head.name, code, head.type, head.required, head.values, head.default, help, reference⟩,
      table)
  | other => throw (.flawed (.wrongKind (.field l) .object other.kind))

/-- The fields from index `i` on; `seen` holds the wire names before it. -/
def readFields (descend : Descent) (tableKey : String) (l : Location) (i : Nat)
    (seen : List String) : List Json → Reading Contents
  | [] => pure ([], [])
  | item :: items => do
    let (field, table) ← readField descend tableKey (l.child i) seen item
    let (fields, tables) ← readFields descend tableKey l (i + 1) (field.wireName :: seen) items
    return (field :: fields, table.toList ++ tables)

/-- Reads a table below which `room` levels of nesting are left. -/
def readTable (limit : Nat) : Nat → Descent
  | 0 => fun key l => readFields (fun _ l _ => throw (.tooDeep l limit)) key l 0 []
  | room + 1 => fun key l => readFields (readTable limit room) key l 0 []

/-! ## Resources -/

def readRootFields (doc : Record) : Except Refusal (List Json) :=
  match present? doc "fields" with
  | none => .ok []
  | some (.array items) => .ok items
  | some other => flaw (.fieldsNotArray other.kind)

def checkRootKey (fields : List Field) : Option String → Except Refusal Unit
  | none => .ok ()
  | some key =>
    match fields.find? fun f => f.wireName == key with
    | none => flaw (.keyUnknown key)
    | some f => if f.isTable then flaw (.keyIsTable key) else .ok ()

/-- Tables may nest `limit` levels deep. -/
def readResource (limit : Nat) (doc : Json) : Reading Resource := do
  let members ← asObject doc
  let header ← readHeader members
  let modules ← readModules header.category.text header.segments
  let help ← optionalString members "help" (.member "help")
  let items ← readRootFields members
  let (fields, children) ← readTable limit limit header.dottedPath ⟨[]⟩ items
  let mkey ← optionalString members "mkey" (.member "mkey")
  checkRootKey fields mkey
  return ⟨header.category, header.segments, modules, help, mkey, fields, children, header.methods⟩

end RestForge.Schema
