import RestForge.Proofs.ProgramMeaning

/-!
# Runs with a transport

Some functions send requests, so that their runs depend on the transport and change it. This file has
one rule for each form of the language: how a run of the whole comes from runs of its parts.

* `Run.Yields`: a run that ends in a value, between two states of the transport.
* `yields_dispatch`: one request.
* `yields_method`, `yields_call`, `yields_question`, …: expressions.
* `yields_bindName`, `yields_run`, `yields_step`, `yields_enter`: statements, bodies and functions.
* `yields_callPure`, `yields_methodPure`: what a program does without its transport.
-/

set_option autoImplicit false

namespace RestForge.Source.Run

open Rest

variable {α β : Type} {t t' t'' : Option MockTransport}

/-- A run that ends in a value, with the transport before and behind it. -/
def Yields (run : Run α) (before : Option MockTransport) (a : α) (after : Option MockTransport) :
    Prop :=
  run before = some (.ok a, after)

theorem yields_pure (a : α) (t : Option MockTransport) : Yields (pure a) t a t := rfl

theorem yields_of_eq {run : Run α} {a : α} (h : run = pure a) (t : Option MockTransport) :
    run.Yields t a t := h ▸ yields_pure a t

theorem Yields.bind {run : Run α} {next : α → Run β} {a : α} {b : β} (h : run.Yields t a t')
    (hnext : (next a).Yields t' b t'') : (run >>= next).Yields t b t'' := by
  change ((run t).bind fun s => ExceptT.bindCont next s.1 s.2) = _
  rw [h]
  exact hnext

theorem Yields.returning {run : Run Datum} {d : Datum} (h : run.Yields t d t') :
    (returning run).Yields t d t' := by
  change ((run t).bind fun s => _) = _
  rw [h]
  rfl

/-- A request that is answered with success. -/
theorem yields_dispatch {t : MockTransport} {req : Request} (h : (t.answer req).isSuccess = true) :
    (Run.send (dispatch req)).Yields (some t) (.done (.response (t.answer req)))
      (some (t.record req)) := by
  have hchecked : (t.answer req).checked = .ok (t.answer req) := if_pos h
  change some (Except.ok (Datum.ofExcept .clientError .response (t.answer req).checked), _) = _
  rw [hchecked]
  rfl

end RestForge.Source.Run

namespace RestForge.Emit

open Source Rest

section Rules

variable {ns : Names} {locals inner : Locals} {t t' t'' t''' : Option MockTransport}

/-! ## Expressions -/

theorem yields_var {x : String} {d : Datum} (h : locals.lookup x = some d) :
    (eval ns locals (.var x)).Yields t d t := by
  rw [eval_var, h]
  exact Run.yields_pure d t

theorem yields_text (s : String) (t : Option MockTransport) :
    (eval ns locals (.text s)).Yields t (.text s) t := Run.yields_pure _ t

theorem yields_path {p : Path} {d : Datum} (hp : p.names.length ≠ 1) (h : ns.value? p = some d) :
    (eval ns locals (.path p)).Yields t d t := by
  rw [eval_path ns locals hp, h]
  exact Run.yields_pure d t

theorem yields_nil : (evalAll ns locals []).Yields t [] t := Run.yields_pure [] t

theorem yields_cons {e : Expr} {es : List Expr} {d : Datum} {ds : List Datum}
    (h : (eval ns locals e).Yields t d t') (hes : (evalAll ns locals es).Yields t' ds t'') :
    (evalAll ns locals (e :: es)).Yields t (d :: ds) t'' := by
  rw [evalAll_cons]
  exact h.bind (hes.bind (Run.yields_pure _ _))

theorem yields_single {e : Expr} {d : Datum} (h : (eval ns locals e).Yields t d t') :
    (evalAll ns locals [e]).Yields t [d] t' := yields_cons h yields_nil

theorem yields_call {p : Path} {args : List Expr} {ds : List Datum} {d : Datum}
    (hargs : (evalAll ns locals args).Yields t ds t') (h : (ns.call p ds).Yields t' d t'') :
    (eval ns locals (callPath p args)).Yields t d t'' := by
  rw [eval_call]
  exact hargs.bind h

theorem yields_method {e : Expr} {name : String} {args : List Expr} {trailing : Bool}
    {receiver d : Datum} {ds : List Datum} (hname : name ≠ "and_then")
    (he : (eval ns locals e).Yields t receiver t') (hargs : (evalAll ns locals args).Yields t' ds t'')
    (h : (ns.method receiver name ds).Yields t'' d t''') :
    (eval ns locals (.method e name args trailing)).Yields t d t''' := by
  rw [eval_method ns locals hname]
  exact he.bind (hargs.bind h)

/-- The body of the closure is looked at with its variable. -/
theorem yields_andThen {e body : Expr} {x : String} {trailing : Bool} {d d' : Datum}
    (he : (eval ns locals e).Yields t (.present d) t')
    (hbody : (eval ns ((x, d) :: locals) body).Yields t' d' t'') :
    (eval ns locals (.method e "and_then" [.closure x body] trailing)).Yields t d' t'' := by
  rw [eval]
  exact he.bind hbody

theorem yields_field {e : Expr} {name : String} {d d' : Datum}
    (he : (eval ns locals e).Yields t d t') (h : d.field? name = some d') :
    (eval ns locals (.field e name)).Yields t d' t' := by
  rw [eval_field]
  refine he.bind ?_
  rw [h]
  exact Run.yields_pure d' t'

/-- A result that is no error is handed on as its value. -/
theorem yields_question {e : Expr} {d : Datum} (he : (eval ns locals e).Yields t (.done d) t') :
    (eval ns locals (.question e)).Yields t d t' := by
  rw [eval_question]
  exact he.bind (Run.yields_pure d t')

theorem yields_tuple {items : List Expr} {ds : List Datum}
    (h : (evalAll ns locals items).Yields t ds t') :
    (eval ns locals (.tuple items)).Yields t (.tuple ds) t' := by
  rw [eval_tuple]
  exact h.bind (Run.yields_pure _ _)

theorem yields_vec {items : List Expr} {ds : List Datum}
    (h : (evalAll ns locals items).Yields t ds t') :
    (eval ns locals (.invoke "vec" .bracket items)).Yields t (.list ds) t' := by
  rw [eval_vec]
  exact h.bind (Run.yields_pure _ _)

theorem yields_assertEq {left right : Expr} {d : Datum} (hleft : (eval ns locals left).Yields t d t')
    (hright : (eval ns locals right).Yields t' d t'') :
    (eval ns locals (invocation "assert_eq" [left, right])).Yields t .unit t'' := by
  rw [eval_assertEq]
  refine hleft.bind (hright.bind ?_)
  rw [assertEqual, if_pos rfl]
  exact Run.yields_pure _ _

/-! ## Statements -/

theorem yields_bind {isMutable : Bool} {pattern : Pattern} {e : Expr} {d : Datum} {bound : Locals}
    (he : (eval ns locals e).Yields t d t') (h : bindings? pattern d = some bound) :
    (exec ns locals (.bind isMutable pattern e)).Yields t (bound ++ locals) t' := by
  rw [exec]
  refine he.bind ?_
  rw [h]
  exact Run.yields_pure _ _

theorem yields_bindName {x : String} {e : Expr} {d : Datum}
    (he : (eval ns locals e).Yields t d t') :
    (exec ns locals (.bindName x e)).Yields t ((x, d) :: locals) t' := by
  rw [exec_bindName]
  exact he.bind (Run.yields_pure _ _)

theorem yields_run {e : Expr} {d : Datum}
    (hform : ∀ x key value tr, e ≠ .method (.path ⟨false, [x]⟩) "insert" [key, value] tr)
    (he : (eval ns locals e).Yields t d t') : (exec ns locals (.run e)).Yields t locals t' := by
  rw [exec_run ns locals hform]
  exact he.bind (Run.yields_pure _ _)

/-! ## Functions -/

variable {returns : Option Ty} {d : Datum}

/-- A statement that is not the result of the body. -/
theorem yields_step {s : Stmt} {ss : List Stmt} (hform : ∀ e, s ≠ .result e)
    (hs : (exec ns locals s).Yields t inner t') (hss : (execBody ns returns inner ss).Yields t' d t'') :
    (execBody ns returns locals (s :: ss)).Yields t d t'' := by
  rw [execBody]
  · exact hs.bind hss
  · rintro e rfl -
    exact hform e rfl

theorem yields_end : (execBody ns returns locals []).Yields t .unit t := by
  rw [execBody]
  exact Run.yields_pure _ _

theorem yields_result {e : Expr} (hform : ∀ p args tr, e = .call (.path p) args tr → p ∉ decoders)
    (he : (eval ns locals e).Yields t d t') :
    (execBody ns returns locals [.result e]).Yields t d t' := by
  rw [execBody_result]
  cases e with
  | call callee args trailing =>
    cases callee with
    | path p => rwa [execResult, if_neg (hform p args trailing rfl)]
    | _ => exact he
  | _ => exact he

/-- The last expression of a function that reads an answer. -/
theorem yields_decode {p : Path} {args : List Expr} {ds : List Datum} (hp : p ∈ decoders)
    (hargs : (evalAll ns locals args).Yields t ds t') (h : decode ns returns p ds = some d) :
    (execBody ns returns locals [.result (callPath p args)]).Yields t d t' := by
  rw [execBody_result, callPath, execResult, if_pos hp]
  refine hargs.bind ?_
  rw [h]
  exact Run.yields_pure _ _

theorem yields_enter {f : Function} {args : List Datum} (hargs : arguments? f args = some locals)
    (hbody : (execBody ns f.returns locals f.body).Yields t d t') :
    (enter ns f args).Yields t d t' := by
  rw [enter, hargs]
  exact hbody.returning

end Rules

/-! ## Calls that leave the transport alone -/

section Calls

variable {P : Program} {runs : Program.Runs} {site : Site} {locals : Locals}
  {t t' t'' : Option MockTransport}

theorem yields_callPure {p : Path} {args : List Expr} {ds : List Datum} {d : Datum}
    (hargs : (evalAll (P.names runs site) locals args).Yields t ds t')
    (h : P.call runs site p ds = pure d) :
    (eval (P.names runs site) locals (callPath p args)).Yields t d t' :=
  yields_call hargs (Run.yields_of_eq h t')

theorem yields_methodPure {e : Expr} {name : String} {args : List Expr} {trailing : Bool}
    {receiver d : Datum} {ds : List Datum} (hname : name ≠ "and_then")
    (he : (eval (P.names runs site) locals e).Yields t receiver t')
    (hargs : (evalAll (P.names runs site) locals args).Yields t' ds t'')
    (h : P.method runs receiver name ds = pure d) :
    (eval (P.names runs site) locals (.method e name args trailing)).Yields t d t'' :=
  yields_method hname he hargs (Run.yields_of_eq h t'')

end Calls

end RestForge.Emit
