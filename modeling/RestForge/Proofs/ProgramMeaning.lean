import RestForge.Proofs.FunctionMeaning
import RestForge.Proofs.NestedPaths

/-!
# What the files of a resource mean together

The files of a resource refer to each other: the tests call functions of the client, which takes models
and calls the checks. This file says where the names in each of them lead, and runs a test.

* `Program`: the files of a resource, and the module that they are in.
* `Program.place?`: where a path leads from a place in the files.
* `modelType?`: a model type, read off its struct.
* `Program.names`: what names stand for in a place.
* `Program.run`: a function in its place.
* `Program.test?`, `Program.Passes`: a test by its name; it passes if it ends without panic.
-/

set_option autoImplicit false

namespace RestForge.Emit

open Source Rest

/-! ## Items by name -/

def moduleItems? (name : String) : Item → Option (List Item)
  | .module _ _ name' items => if name' = name then some items else none
  | _ => none

/-- The items of a module inside. -/
def itemsIn? (items : List Item) : List String → Option (List Item)
  | [] => some items
  | name :: names => (items.findSome? (moduleItems? name)).bind fun inner => itemsIn? inner names

def struct? (name : String) : Item → Option StructItem
  | .struct s => if s.name = name then some s else none
  | _ => none

/-- The functions of a type of its own, not those of a trait. -/
def impl? (type : String) : Item → Option ImplItem
  | .impl i => if i.trait? = none ∧ i.target = type then some i else none
  | _ => none

/-! ## Models -/

structure ModelField where
  code : String
  wire : String
  shape : FieldShape

structure ModelType where
  name : String
  fields : List ModelField

def ModelType.shape (m : ModelType) : ModelShape :=
  .model m.name (m.fields.map fun f => (f.wire, f.shape))

def slot? : FieldShape → Datum → Option FieldValue
  | .text, .text s => some (.text s)
  | .integer, .integer i => some (.integer i)
  | .boolean, .boolean b => some (.boolean b)
  | .rows _, .list [] => some (.rows [])
  | _, _ => none

/-- The slot of a field; without a value it is empty, if the other fields are left at their
defaults. -/
def ModelField.slot? (given : List (String × Datum)) (rest : Bool) (f : ModelField) :
    Option (Option FieldValue) :=
  match given.lookup f.code with
  | some .absent => some none
  | some (.present d) => (Emit.slot? f.shape d).map some
  | some _ => none
  | none => if rest then some none else none

def ModelType.build? (m : ModelType) (given : List (String × Datum)) (rest : Bool) : Option Datum :=
  if (given.map Prod.fst).Nodup ∧ given.map Prod.fst ⊆ m.fields.map ModelField.code then
    (m.fields.mapM (ModelField.slot? given rest)).map (.model m.shape)
  else none

def fieldShape? (rows : String → Option ModelShape) : Ty → Option FieldShape
  | .path ⟨true, ["std", "string", "String"]⟩ [] => some .text
  | .path ⟨false, ["i64"]⟩ [] => some .integer
  | .path ⟨false, ["bool"]⟩ [] => some .boolean
  | .path ⟨false, ["Vec"]⟩ [.path ⟨false, [name]⟩ []] => (rows name).map .rows
  | _ => none

def modelField? (rows : String → Option ModelShape) (f : StructField) : Option ModelField :=
  match f.type, f.attrs.findSome? wireName? with
  | .path ⟨false, ["Option"]⟩ [t], some wire => (fieldShape? rows t).map (⟨f.name, wire, ·⟩)
  | _, _ => none

/-- Models are compared, left at their defaults, written and read. -/
def neededTraits : List Path :=
  [.rel ["PartialEq"], .rel ["Default"], .glob ["serde", "Serialize"], .glob ["serde", "Deserialize"]]

def derives (s : StructItem) (trait : Path) : Bool :=
  s.attrs.any fun
    | .derive traits => traits.contains trait
    | _ => false

def isModelImpl (name : String) : Item → Bool
  | .impl i => i.trait? = some (runtime ["Model"]) && i.target == name
  | _ => false

/-- Model types may hold rows of others, down to the given depth. -/
def modelType? (items : List Item) : Nat → String → Option ModelType
  | 0, _ => none
  | depth + 1, name =>
    (items.findSome? (struct? name)).bind fun s =>
      if neededTraits.all (derives s) && items.any (isModelImpl name) then
        (s.fields.mapM (modelField? fun rows => (modelType? items depth rows).map ModelType.shape)).map
          (⟨name, ·⟩)
      else none

/-! ## Programs -/

structure Program where
  /-- The names of the module that holds the files. -/
  module : List String
  file : ArtifactKind → List Item

def program (r : Resource) (names : Naming.TypeNames) : Program :=
  ⟨(resourceModule r).names, fun k => (tree r names k).items⟩

/-- Where code stands: in a file, in modules inside, and perhaps in a function of a type. -/
structure Site where
  file : ArtifactKind
  modules : List String
  type? : Option String

/-- A name in a file, behind the names of the modules around it. -/
structure Place where
  file : ArtifactKind
  names : List String

def fileNamed? (name : String) : Option ArtifactKind :=
  ArtifactKind.all.find? fun k => k.moduleName == name

def placeBelow? : List String → Option Place
  | [] => none
  | name :: names => (fileNamed? name).map (⟨·, names⟩)

namespace Program

/-- The module around the top of a file is the one of the resource. -/
def place? (P : Program) (site : Site) (p : Path) : Option Place :=
  if p.isGlobal then none
  else if p.names.take P.module.length = P.module then placeBelow? (p.names.drop P.module.length)
  else
    match p.names, site.modules, site.type? with
    | "super" :: names, [], _ => placeBelow? names
    | "Self" :: names, modules, some type => some ⟨site.file, modules ++ type :: names⟩
    | names, modules, _ => some ⟨site.file, modules ++ names⟩

/-! ## What names stand for -/

/-- A constant of the checks of a table. -/
def checkConstant? (P : Program) (names : List String) : Option Datum :=
  (itemsIn? (P.file .validators) names.dropLast).bind fun items =>
    (constants? items []).bind fun env => (env.lookup (names.getLastD "")).map .ofValue

def constantOf? (P : Program) (type name : String) : Option Datum :=
  ((P.file .client).findSome? (impl? type)).bind fun i =>
    (i.constants.find? fun c => c.name = name).bind fun c =>
      match c.value with
      | .path p => libraryValue? p
      | .text s => some (.text s)
      | _ => none

def value? (P : Program) (site : Site) (p : Path) : Option Datum :=
  (libraryValue? p).or
    (match P.place? site p with
    | some ⟨.validators, names⟩ => P.checkConstant? names
    | some ⟨.client, [type, name]⟩ => P.constantOf? type name
    | _ => none)

def runCheck? (P : Program) (names : List String) : List Datum → Option Datum
  | [.record payload] =>
    (itemsIn? (P.file .validators) names.dropLast).bind fun items =>
      (Source.call items (names.getLastD "") payload).map .ofVerdict
  | _ => none

def functionOf? (P : Program) (type name : String) : Option Function :=
  ((P.file .client).findSome? (impl? type)).bind fun i => i.functions.find? fun f => f.name = name

/-- How functions run in their places. -/
abbrev Runs := Site → Function → List Datum → Run Datum

def call (P : Program) (runs : Runs) (site : Site) (p : Path) (args : List Datum) : Run Datum :=
  match libraryCall p args with
  | some run => run
  | none =>
    match P.place? site p with
    | some ⟨.validators, names⟩ => .given (P.runCheck? names args)
    | some ⟨.client, [type, name]⟩ =>
      match P.functionOf? type name with
      | some f => runs ⟨.client, [], some type⟩ f args
      | none => .stuck
    | some ⟨.tests, [name]⟩ =>
      match (P.file .tests).findSome? (function? name) with
      | some f => runs ⟨.tests, [], none⟩ f args
      | none => .stuck
    | _ => .stuck

def method (P : Program) (runs : Runs) : Datum → String → List Datum → Run Datum
  | .struct type fields, name, args =>
    match P.functionOf? type name with
    | some f => runs ⟨.client, [], some type⟩ f (.struct type fields :: args)
    | none => .stuck
  | d, name, args => libraryMethod d name args

def model? (P : Program) (name : String) : Option ModelType :=
  modelType? (P.file .model) (P.file .model).length name

/-- All fields of a client are given, each of them once. -/
def record? (P : Program) (site : Site) (p : Path) (given : List (String × Datum)) (rest : Bool) :
    Option Datum :=
  match P.place? site p with
  | some ⟨.model, [name]⟩ => (P.model? name).bind fun m => m.build? given rest
  | some ⟨.client, [type]⟩ =>
    ((P.file .client).findSome? (struct? type)).bind fun s =>
      if (given.map Prod.fst).Perm (s.fields.map StructField.name) ∧ rest = false then
        some (.struct type given)
      else none
  | _ => none

def shape? (P : Program) (site : Site) (p : Path) : Option ModelShape :=
  match P.place? site p with
  | some ⟨.model, [name]⟩ => (P.model? name).map ModelType.shape
  | _ => none

def names (P : Program) (runs : Runs) (site : Site) : Names :=
  { value? := P.value? site
    call := P.call runs site
    method := P.method runs
    record? := P.record? site
    model? := P.shape? site }

@[simp] theorem names_value? (P : Program) (runs : Runs) (site : Site) :
    (P.names runs site).value? = P.value? site := rfl

@[simp] theorem names_call (P : Program) (runs : Runs) (site : Site) :
    (P.names runs site).call = P.call runs site := rfl

@[simp] theorem names_method (P : Program) (runs : Runs) (site : Site) :
    (P.names runs site).method = P.method runs := rfl

@[simp] theorem names_record? (P : Program) (runs : Runs) (site : Site) :
    (P.names runs site).record? = P.record? site := rfl

section Calls

variable {P : Program} {runs : Runs} {site : Site} {p : Path} {args : List Datum}

theorem call_library {run : Run Datum} (h : libraryCall p args = some run) :
    P.call runs site p args = run := by
  simp only [call, h]

@[simp] theorem call_some (d : Datum) :
    P.call runs site (.rel ["Some"]) [d] = pure (.present d) := call_library rfl

@[simp] theorem call_newRecord :
    P.call runs site (runtime ["Record", "new"]) [] = pure (.record []) := call_library rfl

@[simp] theorem call_newParams :
    P.call runs site (runtime ["GetParams", "new"]) [] = pure (.params .empty) := call_library rfl

@[simp] theorem call_valueFrom (s : String) :
    P.call runs site (runtime ["Value", "from"]) [.text s] = pure (.json (.string s)) :=
  call_library rfl

@[simp] theorem call_valueObject (r : Record) :
    P.call runs site (runtime ["Value", "Object"]) [.record r] = pure (.json (.object r)) :=
  call_library rfl

@[simp] theorem call_valueArray (j : Json) :
    P.call runs site (runtime ["Value", "Array"]) [.list [.json j]] = pure (.json (.array [j])) :=
  call_library rfl

@[simp] theorem call_success (j : Json) :
    P.call runs site (runtime ["Response", "success"]) [.json j] = pure (.response (.success j)) :=
  call_library rfl

@[simp] theorem call_newEndpoint (c : Category) (path : String) :
    P.call runs site (runtime ["Endpoint", "new"]) [.transport, .category c, .text path]
      = pure (.endpoint ⟨c, path⟩) := call_library rfl

@[simp] theorem call_toRecord (m : ModelShape) (slots : ModelValue) :
    P.call runs site (runtime ["Model", "to_record"]) [.model m slots]
      = pure (.done (.record (m.write slots))) := call_library rfl

@[simp] theorem call_newTransport :
    P.call runs site (runtime ["testing", "MockTransport", "new"]) [] = .newTransport :=
  call_library rfl

@[simp] theorem call_newVec :
    P.call runs site (.rel ["Vec", "new"]) [] = pure (.list []) := call_library rfl

@[simp] theorem call_newString :
    P.call runs site (.glob ["std", "string", "String", "new"]) [] = pure (.text "") :=
  call_library rfl

@[simp] theorem call_newArc (d : Datum) :
    P.call runs site (.glob ["std", "sync", "Arc", "new"]) [d] = pure d := call_library rfl

variable (hlibrary : libraryCall p args = none)

include hlibrary

theorem call_validators {names : List String} (hplace : P.place? site p = some ⟨.validators, names⟩) :
    P.call runs site p args = .given (P.runCheck? names args) := by
  simp only [call, hlibrary, hplace]

theorem call_client {type name : String} {f : Function}
    (hplace : P.place? site p = some ⟨.client, [type, name]⟩)
    (hf : P.functionOf? type name = some f) :
    P.call runs site p args = runs ⟨.client, [], some type⟩ f args := by
  simp only [call, hlibrary, hplace, hf]

theorem call_tests {name : String} {f : Function} (hplace : P.place? site p = some ⟨.tests, [name]⟩)
    (hf : (P.file .tests).findSome? (function? name) = some f) :
    P.call runs site p args = runs ⟨.tests, [], none⟩ f args := by
  simp only [call, hlibrary, hplace, hf]

end Calls

/-! ## Runs -/

noncomputable def runWithin (P : Program) : Nat → Runs
  | 0 => fun _ _ _ => .stuck
  | depth + 1 => fun site f args => enter (P.names (P.runWithin depth) site) f args

def functionsOf : Item → List Function
  | .function f => [f]
  | .impl i => i.functions
  | _ => []

/-- As no generated function calls itself, not even through others, calls nest no deeper than there
are functions. -/
def depth (P : Program) : Nat :=
  ((P.file .client ++ P.file .tests).flatMap functionsOf).length

noncomputable def run (P : Program) : Runs := P.runWithin (P.depth + 1)

/-- The test of a name in a module of the tests, with the transport behind it if it makes one. -/
noncomputable def test? (P : Program) (modules : List String) (name : String) :
    Option (Except Exit Datum × Option MockTransport) :=
  (itemsIn? (P.file .tests) modules).bind fun items =>
    (items.findSome? (function? name)).bind fun f =>
      if .test ∈ f.attrs then P.run ⟨.tests, modules, none⟩ f [] none else none

def Passes (P : Program) (modules : List String) (name : String)
    (transport : Option MockTransport) : Prop :=
  P.test? modules name = some (.ok .unit, transport)

theorem passes_of_run {P : Program} {modules : List String} {items : List Item} {f : Function}
    {transport : Option MockTransport} (hitems : itemsIn? (P.file .tests) modules = some items)
    (hf : items.findSome? (function? f.name) = some f) (htest : .test ∈ f.attrs)
    (hrun : enter (P.names (P.runWithin P.depth) ⟨.tests, modules, none⟩) f [] none
      = some (.ok .unit, transport)) : P.Passes modules f.name transport := by
  rw [Passes, test?, hitems, Option.bind_some, hf, Option.bind_some, if_pos htest]
  exact hrun

end Program

end RestForge.Emit
