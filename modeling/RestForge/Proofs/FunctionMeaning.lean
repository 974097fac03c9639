import RestForge.Emit.Artifact
import RestForge.Proofs.LibraryMeaning

/-!
# What generated functions mean

Generated clients and their tests use more of the generated language than the checks do: variables,
records, results that are handed on, assertions and loops over constants. This file runs a function,
given what the names in it stand for. A run that leaves the generated part of the language is stuck.

* `Names`: what names stand for that a function does not bind itself.
* `eval`, `exec`, `execBody`: expressions, statements, and bodies of functions.
* `fits`: whether a value can be given to a parameter.
* `enter`: a function with its arguments.
-/

set_option autoImplicit false

namespace RestForge.Emit

open Source Rest

/-! ## Names -/

/-- Variables, the latest first. -/
abbrev Locals := List (String × Datum)

structure Names where
  value? : Path → Option Datum
  call : Path → List Datum → Run Datum
  method : Datum → String → List Datum → Run Datum
  /-- A record from the fields that are given; the others are left at their defaults if so said. -/
  record? : Path → List (String × Datum) → Bool → Option Datum
  model? : Path → Option ModelShape

/-! ## Expressions -/

open Classical in
/-- Equal values have to be of one type. -/
noncomputable def assertEqual (left right : Datum) : Run Datum :=
  if left = right then pure .unit else .panic

def assertTrue : Datum → Run Datum
  | .boolean true => pure .unit
  | .boolean false => .panic
  | _ => .stuck

/-- A variable hides a constant of its name. -/
def lookUp (ns : Names) (locals : Locals) : Path → Option Datum
  | ⟨false, [name]⟩ => (locals.lookup name).or (ns.value? ⟨false, [name]⟩)
  | p => ns.value? p

mutual

/-- The message of an assertion is looked at in a panic only. -/
noncomputable def eval (ns : Names) (locals : Locals) : Expr → Run Datum
  | .path p => .given (lookUp ns locals p)
  | .text s => pure (.text s)
  | .int n => pure (.integer n)
  | .ref e => eval ns locals e
  | .deref e => eval ns locals e
  | .question e => do .handOn (← eval ns locals e)
  | .call (.path p) args _ => do ns.call p (← evalAll ns locals args)
  | .method e "and_then" [.closure x body] _ => do
    match ← eval ns locals e with
    | .present d => eval ns ((x, d) :: locals) body
    | .absent => pure .absent
    | _ => .stuck
  | .method e name args _ => do
    let receiver ← eval ns locals e
    ns.method receiver name (← evalAll ns locals args)
  | .field e name => do .given ((← eval ns locals e).field? name)
  | .tuple items => do return .tuple (← evalAll ns locals items)
  | .record p fields rest => do .given (ns.record? p (← evalFields ns locals fields) rest)
  | .invoke "vec" .bracket items => do return .list (← evalAll ns locals items)
  | .invoke "assert" .paren (e :: _) => do assertTrue (← eval ns locals e)
  | .invoke "assert_eq" .paren [left, right] => do
    let d ← eval ns locals left
    assertEqual d (← eval ns locals right)
  | .invoke "panic" .paren _ => .panic
  | _ => .stuck

noncomputable def evalAll (ns : Names) (locals : Locals) : List Expr → Run (List Datum)
  | [] => pure []
  | e :: es => do
    let d ← eval ns locals e
    return d :: (← evalAll ns locals es)

noncomputable def evalFields (ns : Names) (locals : Locals) :
    List FieldInit → Run (List (String × Datum))
  | [] => pure []
  | .same name :: fields => do
    let d ← .given (locals.lookup name)
    return (name, d) :: (← evalFields ns locals fields)
  | .value name e :: fields => do
    let d ← eval ns locals e
    return (name, d) :: (← evalFields ns locals fields)

end

/-! ## Statements -/

/-- What a pattern binds in a value that it fits. -/
def bindings? : Pattern → Datum → Option Locals
  | .name x, d => some [(x, d)]
  | .tuple [x, y], .tuple [d, d'] => some [(y, d'), (x, d)]
  | .variant ⟨false, ["Err"]⟩ pattern, .failed d => bindings? pattern d
  | .record ⟨true, ["stencil", "ValidationError", "MissingRequiredField"]⟩ ["fields"],
      .validationError (.missingRequired _ fields) => some [("fields", .ofTexts fields)]
  | .record ⟨true, ["stencil", "ValidationError", "InvalidEnumValue"]⟩ ["field"],
      .validationError (.invalidEnum _ field _ _) => some [("field", .text field)]
  | _, _ => none

/-- Puts a member into the record that a variable holds. -/
def insertInto (x : String) (key : String) (value : Json) : Locals → Option Locals
  | [] => none
  | (y, d) :: locals =>
    if x = y then
      match d with
      | .record r => some ((y, .record (r.insert key value)) :: locals)
      | _ => none
    else (insertInto x key value locals).map ((y, d) :: ·)

/-- Behind a block its variables are gone. -/
def leave (outer inner : Locals) : Locals := inner.drop (inner.length - outer.length)

/-- Runs the body of a loop for one item after another. -/
def execEach (body : Datum → Locals → Run Locals) : List Datum → Locals → Run Locals
  | [], locals => pure locals
  | d :: ds, locals => do
    let inner ← body d locals
    execEach body ds (leave locals inner)

mutual

noncomputable def exec (ns : Names) (locals : Locals) : Stmt → Run Locals
  | .bind _ pattern value => do
    let bound ← .given (bindings? pattern (← eval ns locals value))
    return bound ++ locals
  | .expr (.method (.path ⟨false, [x]⟩) "insert" [key, value] _) true => do
    match ← eval ns locals key, ← eval ns locals value with
    | .text key, .json j => .given (insertInto x key j locals)
    | _, _ => .stuck
  | .expr e true => do
    let _ ← eval ns locals e
    return locals
  | .forEach x items body => do
    match ← eval ns locals items with
    | .list ds => execEach (fun d locals => execAll ns ((x, d) :: locals) body) ds locals
    | _ => .stuck
  | .choose on arms => do
    let inner ← execArms ns locals (← eval ns locals on) arms
    return leave locals inner
  | _ => .stuck

noncomputable def execAll (ns : Names) (locals : Locals) : List Stmt → Run Locals
  | [] => pure locals
  | s :: ss => do execAll ns (← exec ns locals s) ss

/-- The first arm that fits is taken. -/
noncomputable def execArms (ns : Names) (locals : Locals) (d : Datum) : List Arm → Run Locals
  | [] => .stuck
  | .block pattern body :: arms =>
    match bindings? pattern d with
    | some bound => execAll ns (bound ++ locals) body
    | none => execArms ns locals d arms
  | .value pattern e :: arms =>
    match bindings? pattern d with
    | some bound => do
      let _ ← eval ns (bound ++ locals) e
      return locals
    | none => execArms ns locals d arms

end

/-! ## Functions -/

/-- What `Result` holds besides an error. -/
def resultOf? : Option Ty → Option Ty
  | some (.path ⟨false, ["Result"]⟩ [t, _]) => some t
  | _ => none

def modelOf? (ns : Names) : Ty → Option ModelShape
  | .path p [] => ns.model? p
  | _ => none

/-- Answers are read as what the function returns. -/
def decode (ns : Names) (returns : Option Ty) : Path → List Datum → Option Datum
  | ⟨true, ["stencil", "decode_one"]⟩, [.response r, .text path] => do
    let m ← modelOf? ns (← resultOf? returns)
    return .ofExcept .clientError (.model m) (decodeOne m r path)
  | ⟨true, ["stencil", "decode_many"]⟩, [.response r] =>
    match resultOf? returns with
    | some (.path ⟨false, ["Vec"]⟩ [item]) => do
      let m ← modelOf? ns item
      return .ofExcept .clientError (fun rows => .list (rows.map (.model m))) (decodeMany m r)
    | _ => none
  | _, _ => none

def decoders : List Path := [.glob ["stencil", "decode_one"], .glob ["stencil", "decode_many"]]

/-- The last expression of a body is its value. -/
noncomputable def execResult (ns : Names) (returns : Option Ty) (locals : Locals) : Expr → Run Datum
  | .call (.path p) args trailing =>
    if p ∈ decoders then do .given (decode ns returns p (← evalAll ns locals args))
    else eval ns locals (.call (.path p) args trailing)
  | e => eval ns locals e

noncomputable def execBody (ns : Names) (returns : Option Ty) (locals : Locals) :
    List Stmt → Run Datum
  | [] => pure .unit
  | [.expr e false] => execResult ns returns locals e
  | s :: ss => do execBody ns returns (← exec ns locals s) ss

/-- Whether a value can stand for a parameter. -/
def fits : Ty → Datum → Bool
  | .path ⟨true, ["std", "sync", "Arc"]⟩ [.dyn ⟨true, ["stencil", "Transport"]⟩], .transport => true
  | .path ⟨true, ["stencil", "Endpoint"]⟩ [], .endpoint _ => true
  | .path ⟨false, ["i64"]⟩ [], .integer _ => true
  | .ref false (.path ⟨false, ["str"]⟩ []), .text _ => true
  | .ref false (.path ⟨true, ["stencil", "GetParams"]⟩ []), .params _ => true
  | .ref false (.path ⟨false, ["super", "model", name]⟩ []), .model m _ => m.name == name
  | _, _ => false

def bindParams? : List Param → List Datum → Option Locals
  | [], [] => some []
  | p :: ps, d :: ds =>
    if fits p.type d then (bindParams? ps ds).map fun locals => locals ++ [(p.name, d)] else none
  | _, _ => none

/-- The receiver is the first argument of a function that takes one. -/
def arguments? (f : Function) (args : List Datum) : Option Locals :=
  if f.takesSelf then
    match args with
    | [] => none
    | receiver :: args => (bindParams? f.params args).map fun locals => locals ++ [("self", receiver)]
  else bindParams? f.params args

noncomputable def enter (ns : Names) (f : Function) (args : List Datum) : Run Datum := do
  let locals ← .given (arguments? f args)
  .returning (execBody ns f.returns locals f.body)

/-! ## One step -/

section Steps

variable (ns : Names) (locals : Locals)

theorem eval_var (x : String) :
    eval ns locals (.var x) = .given ((locals.lookup x).or (ns.value? (.rel [x]))) := rfl

theorem eval_path {p : Path} (h : p.names.length ≠ 1) :
    eval ns locals (.path p) = .given (ns.value? p) := by
  rw [eval, lookUp]
  rintro x rfl
  exact h rfl

theorem eval_text (s : String) : eval ns locals (.text s) = pure (.text s) := rfl

theorem eval_int (n : Nat) : eval ns locals (.int n) = pure (.integer n) := rfl

theorem eval_ref (e : Expr) : eval ns locals (.ref e) = eval ns locals e := rfl

theorem eval_deref (e : Expr) : eval ns locals (.deref e) = eval ns locals e := rfl

theorem eval_question (e : Expr) :
    eval ns locals (.question e) = (do .handOn (← eval ns locals e)) := rfl

theorem eval_call (p : Path) (args : List Expr) :
    eval ns locals (callPath p args) = (do ns.call p (← evalAll ns locals args)) := rfl

theorem eval_method {e : Expr} {name : String} {args : List Expr} {trailing : Bool}
    (h : name ≠ "and_then") : eval ns locals (.method e name args trailing) = (do
      let receiver ← eval ns locals e
      ns.method receiver name (← evalAll ns locals args)) := by
  rw [eval]
  rintro x body he -
  exact h he

theorem eval_field (e : Expr) (name : String) :
    eval ns locals (.field e name) = (do .given ((← eval ns locals e).field? name)) := rfl

theorem eval_tuple (items : List Expr) :
    eval ns locals (.tuple items) = (do return .tuple (← evalAll ns locals items)) := rfl

theorem eval_record (p : Path) (fields : List FieldInit) (rest : Bool) :
    eval ns locals (.record p fields rest)
      = (do .given (ns.record? p (← evalFields ns locals fields) rest)) := rfl

theorem eval_vec (items : List Expr) : eval ns locals (.invoke "vec" .bracket items)
    = (do return .list (← evalAll ns locals items)) := rfl

theorem eval_assert (e : Expr) (message : List Expr) :
    eval ns locals (invocation "assert" (e :: message))
      = (do assertTrue (← eval ns locals e)) := rfl

theorem eval_assertEq (left right : Expr) :
    eval ns locals (invocation "assert_eq" [left, right]) = (do
      let d ← eval ns locals left
      assertEqual d (← eval ns locals right)) := rfl

theorem evalAll_nil : evalAll ns locals [] = pure [] := rfl

theorem evalAll_cons (e : Expr) (es : List Expr) : evalAll ns locals (e :: es) = (do
    let d ← eval ns locals e
    return d :: (← evalAll ns locals es)) := rfl

theorem exec_bind (isMutable : Bool) (x : String) (e : Expr) :
    exec ns locals (.bind isMutable (.name x) e) = (do
      let d ← eval ns locals e
      return (x, d) :: locals) := rfl

theorem exec_bindName (x : String) (e : Expr) : exec ns locals (.bindName x e) = (do
    let d ← eval ns locals e
    return (x, d) :: locals) := rfl

theorem exec_run {e : Expr}
    (h : ∀ x key value t, e ≠ .method (.path ⟨false, [x]⟩) "insert" [key, value] t) :
    exec ns locals (.run e) = (do
      let _ ← eval ns locals e
      return locals) := by
  rw [Stmt.run, exec]
  exact h

theorem exec_insert {x : String} {key value : Expr} {k : String} {j : Json}
    (hkey : eval ns locals key = pure (.text k)) (hvalue : eval ns locals value = pure (.json j)) :
    exec ns locals (.run (methodCall (.var x) "insert" [key, value]))
      = .given (insertInto x k j locals) := by
  rw [Stmt.run, methodCall, Expr.var, Path.rel, exec, hkey, hvalue]
  rfl

@[simp] theorem leave_append (inner : Locals) : leave locals (inner ++ locals) = locals := by
  simp [leave]

/-- Each turn of a loop begins with the variables from before. -/
theorem execEach_pure {body : Datum → Locals → Run Locals} {ds : List Datum}
    (h : ∀ d ∈ ds, ∃ inner, body d locals = pure (inner ++ locals)) :
    execEach body ds locals = pure locals := by
  induction ds with
  | nil => rfl
  | cons d ds ih =>
    obtain ⟨inner, hd⟩ := h d List.mem_cons_self
    have hds := ih fun d hd => h d (List.mem_cons_of_mem _ hd)
    simp [execEach, hd, hds]

theorem exec_forEach {x : String} {items : Expr} {body : List Stmt} {ds : List Datum}
    (hitems : eval ns locals items = pure (.list ds))
    (hbody : ∀ d ∈ ds, ∃ inner, execAll ns ((x, d) :: locals) body = pure (inner ++ locals)) :
    exec ns locals (.forEach x items body) = pure locals := by
  rw [exec, hitems]
  exact execEach_pure locals hbody

theorem execAll_nil : execAll ns locals [] = pure locals := rfl

theorem execAll_cons (s : Stmt) (ss : List Stmt) :
    execAll ns locals (s :: ss) = (do execAll ns (← exec ns locals s) ss) := rfl

/-- The first arm of a match is taken if it fits. -/
theorem exec_choose_first {on : Expr} {pattern : Pattern} {body : List Stmt} {arms : List Arm}
    {d : Datum} {bound inner : Locals} (hon : eval ns locals on = pure d)
    (hbound : bindings? pattern d = some bound)
    (hbody : execAll ns (bound ++ locals) body = pure (inner ++ locals)) :
    exec ns locals (.choose on (.block pattern body :: arms)) = pure locals := by
  rw [exec, hon, pure_bind, execArms, hbound]
  simp [hbody]

theorem execBody_cons (returns : Option Ty) (s s' : Stmt) (ss : List Stmt) :
    execBody ns returns locals (s :: s' :: ss)
      = (do execBody ns returns (← exec ns locals s) (s' :: ss)) := by
  rw [execBody]
  simp

theorem execBody_last (returns : Option Ty) {s : Stmt} (h : ∀ e, s ≠ .result e) :
    execBody ns returns locals [s] = (do
      let _ ← exec ns locals s
      return .unit) := by
  rw [execBody]
  · simp [execBody]
  · rintro e rfl -
    exact h e rfl

theorem execBody_result (returns : Option Ty) (e : Expr) :
    execBody ns returns locals [.result e] = execResult ns returns locals e := rfl

@[simp] theorem assertTrue_true : assertTrue (.boolean true) = pure .unit := rfl

@[simp] theorem assertEqual_self (d : Datum) : assertEqual d d = pure .unit := if_pos rfl

end Steps

end RestForge.Emit
