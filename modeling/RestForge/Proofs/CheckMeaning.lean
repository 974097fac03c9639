import Mathlib.Data.List.Nodup
import RestForge.Rest.Payload
import RestForge.Source.Tree

/-!
# What generated checks mean

Generated checks use a small part of the generated language: constants, functions of one record that
hand errors on, loops over rows, and modules. This file runs that part. A run that leaves it is
stuck, so that a program with a name that is missing or defined twice has no result.

* `Value`, `Env`: values, and what names stand for.
* `value?`, `constants?`: expressions, and the constants of a module.
* `Modules`: the functions of the modules inside, by name.
* `runStmt`, `runAll`: statements; an error ends a run.
* `call`: a function of a module, given the items of the module.
* `runAll_append`, `constants?_append`, `modulesOf_eq`: a run in parts.
-/

set_option autoImplicit false

namespace RestForge.Source

open Rest (ValidationError EnumField requireFields checkEnums tableRows)

/-! ## Values -/

inductive Value where
  | text (s : String)
  | list (items : List Value)
  | tuple (items : List Value)
  | record (r : Record)

namespace Value

def text? : Value → Option String
  | text s => some s
  | _ => none

def texts? : Value → Option (List String)
  | list items => items.mapM text?
  | _ => none

def enumField? : Value → Option EnumField
  | tuple [text field, values] => values.texts?.map (EnumField.mk field)
  | _ => none

def enumFields? : Value → Option (List EnumField)
  | list items => items.mapM enumField?
  | _ => none

def ofTexts (items : List String) : Value := list (items.map text)

def ofEnumField (e : EnumField) : Value := tuple [text e.field, ofTexts e.values]

def ofEnumFields (es : List EnumField) : Value := list (es.map ofEnumField)

@[simp] theorem texts?_ofTexts (items : List String) : (ofTexts items).texts? = some items := by
  rw [ofTexts, texts?]
  induction items with
  | nil => rfl
  | cons s items ih => simp [ih, text?]

@[simp] theorem enumFields?_ofEnumFields (es : List EnumField) :
    (ofEnumFields es).enumFields? = some es := by
  rw [ofEnumFields, enumFields?]
  induction es with
  | nil => rfl
  | cons e es ih => simp [ih, ofEnumField, enumField?]

end Value

/-! ## Expressions -/

/-- What names stand for; the first entry of a name counts. -/
abbrev Env := List (String × Value)

mutual

/-- A reference has the value that it leads to. -/
def value? (env : Env) : Expr → Option Value
  | .path ⟨false, [name]⟩ => env.lookup name
  | .text s => some (.text s)
  | .ref e => value? env e
  | .array items => (values? env items).map .list
  | .tuple items => (values? env items).map .tuple
  | _ => none

def values? (env : Env) : List Expr → Option (List Value)
  | [] => some []
  | e :: es =>
    match value? env e, values? env es with
    | some v, some vs => some (v :: vs)
    | _, _ => none

end

/-! ## Statements -/

abbrev Verdict := Except ValidationError Unit

/-- One run and then another, unless the first ends in an error or is stuck. -/
def andThen (first second : Option Verdict) : Option Verdict :=
  match first with
  | some (.ok ()) => second
  | other => other

/-- The functions of modules, each of one record, by the name of the module. -/
abbrev Modules := List (String × (String → Record → Option Verdict))

def requireFieldsPath : Path := .glob ["stencil", "validate", "require_fields"]

def checkEnumsPath : Path := .glob ["stencil", "validate", "check_enums"]

def tableRowsPath : Path := .glob ["stencil", "validate", "table_rows"]

/-- A call that can fail: a check of the runtime library, or a function of a module inside. -/
def runCall (modules : Modules) (p : Path) (args : List Value) : Option Verdict :=
  match args with
  | [.text resource, .record payload, fields] =>
    if p = requireFieldsPath then fields.texts?.map (requireFields resource payload)
    else if p = checkEnumsPath then fields.enumFields?.map (checkEnums resource payload)
    else none
  | [.record payload] =>
    match p with
    | ⟨false, [module, function]⟩ => (modules.lookup module).bind fun run => run function payload
    | _ => none
  | _ => none

def rows? (env : Env) : Expr → Option (List Record)
  | .call (.path p) [payload, .text field] _ =>
    match value? env payload with
    | some (.record payload) => if p = tableRowsPath then some (tableRows payload field) else none
    | _ => none
  | _ => none

def runRows (run : Record → Option Verdict) : List Record → Option Verdict
  | [] => some (.ok ())
  | row :: rows => andThen (run row) (runRows run rows)

mutual

def runStmt (modules : Modules) (env : Env) : Stmt → Option Verdict
  | .expr (.question (.call (.path p) args _)) true => (values? env args).bind (runCall modules p)
  | .expr (.call (.path ⟨false, ["Ok"]⟩) [.tuple []] _) false => some (.ok ())
  | .forEach name items body =>
    (rows? env items).bind fun rows =>
      runRows (fun row => runAll modules ((name, .record row) :: env) body) rows
  | _ => none

def runAll (modules : Modules) (env : Env) : List Stmt → Option Verdict
  | [] => some (.ok ())
  | s :: ss => andThen (runStmt modules env s) (runAll modules env ss)

end

/-! ## Items -/

/-- Constants and functions share their names. -/
def Item.valueName? : Item → Option String
  | .constant c => some c.name
  | .function f => some f.name
  | _ => none

/-- Adds the constants of items, each of which may use those before it. -/
def constants? : List Item → Env → Option Env
  | [], env => some env
  | .constant c :: items, env =>
    match value? env c.value with
    | some v => constants? items ((c.name, v) :: env)
    | none => none
  | _ :: items, env => constants? items env

def function? (name : String) : Item → Option Function
  | .function f => if f.name = name then some f else none
  | _ => none

/-- Calls a function, given the modules that its module holds. -/
def callIn (items : List Item) (modules : Modules) (function : String) (payload : Record) :
    Option Verdict :=
  if (items.filterMap Item.valueName?).Nodup ∧ (modules.map Prod.fst).Nodup then
    match constants? items [], items.findSome? (function? function) with
    | some env, some f =>
      match f.params with
      | [param] => runAll modules ((param.name, .record payload) :: env) f.body
      | _ => none
    | _, _ => none
  else none

mutual

/-- The functions of a module see the names of their own module alone. -/
def Item.asModule? : Item → Option (String × (String → Record → Option Verdict))
  | .module _ _ name items => some (name, callIn items (modulesOf items))
  | _ => none

def modulesOf : List Item → Modules
  | [] => []
  | i :: is => i.asModule?.toList ++ modulesOf is

end

def call (items : List Item) (function : String) (payload : Record) : Option Verdict :=
  callIn items (modulesOf items) function payload

/-! ## Runs in parts -/

theorem andThen_assoc (first second third : Option Verdict) :
    andThen (andThen first second) third = andThen first (andThen second third) := by
  rcases first with _ | ⟨_ | ⟨⟩⟩ <;> rfl

theorem runAll_append (modules : Modules) (env : Env) (ss ss' : List Stmt) :
    runAll modules env (ss ++ ss')
      = andThen (runAll modules env ss) (runAll modules env ss') := by
  induction ss with
  | nil => rfl
  | cons s ss ih => rw [List.cons_append, runAll, runAll, ih, andThen_assoc]

theorem constants?_append (items items' : List Item) (env : Env) :
    constants? (items ++ items') env = (constants? items env).bind (constants? items') := by
  induction items generalizing env with
  | nil => rfl
  | cons i items ih =>
    cases i with
    | constant c =>
      rw [List.cons_append, constants?, constants?]
      rcases value? env c.value with _ | v
      · rfl
      · exact ih _
    | _ => exact ih env

theorem modulesOf_eq (items : List Item) : modulesOf items = items.filterMap Item.asModule? := by
  induction items with
  | nil => rfl
  | cons i items ih =>
    rw [modulesOf, ih, List.filterMap_cons]
    cases i.asModule? <;> rfl

end RestForge.Source
