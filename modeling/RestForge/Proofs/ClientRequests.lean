import RestForge.Proofs.ClientRuns

/-!
# The requests of a client

An operation of a client sends one request to its endpoint and hands on the answer.

* `KeyGiven`: an argument for the key of a table, and the text that is sent for it.
* `run_post`: a payload that passes the check of its table is sent as it is written.
* `run_getByKey`, `run_getSingle`: an object is read from the answer.
* `run_delete`: the key, or the endpoint itself.
-/

set_option autoImplicit false

namespace RestForge.Emit

open Source Naming Schema
open Rest (Endpoint MockTransport ModelShape ModelValue GetParams decodeOne)

/-! ## Keys -/

/-- The arguments for the key of a table, and its text in a request. -/
inductive KeyGiven : Option Key → List Datum → Option String → Prop where
  | none : KeyGiven none [] none
  | integer {k : Key} (h : k.isInteger = true) (i : Int) :
      KeyGiven (some k) [.integer i] (some (toString i))
  | text {k : Key} (h : k.isInteger = false) (s : String) : KeyGiven (some k) [.text s] (some s)

theorem KeyGiven.bindParams? {k : Option Key} {args : List Datum} {text : Option String}
    (h : KeyGiven k args text) {params : List Param} {rest : List Datum} {locals : Locals}
    (hrest : bindParams? params rest = some locals) :
    Emit.bindParams? (keyParams k ++ params) (args ++ rest)
      = some (locals ++ args.map fun d => ("key", d)) := by
  cases h with
  | none => simpa [keyParams] using hrest
  | integer h i => simp [keyParams, Emit.bindParams?, Key.param, h, fits, hrest, Ty.named, Path.rel]
  | text h s =>
    simp [keyParams, Emit.bindParams?, Key.param, h, fits, hrest, strRef, Ty.named, Path.rel]

section Keys

variable {P : Program} {runs : Program.Runs} {site : Site} {locals : Locals} {returns : Option Ty}
  {t t' : Option MockTransport} {d : Datum}

/-- Behind these statements the key stands for its text. -/
theorem yields_keyToText {k : Option Key} {args : List Datum} {text : Option String}
    (h : KeyGiven k args text) {rest : List Stmt} (hkey : locals.lookup "key" = args.head?)
    (hrest : ∀ inner : Locals, (∀ x ≠ "key", inner.lookup x = locals.lookup x) →
      inner.lookup "key" = text.map .text →
      (execBody (P.names runs site) returns inner rest).Yields t d t') :
    (execBody (P.names runs site) returns locals (keyToText k ++ rest)).Yields t d t' := by
  cases h with
  | none => exact hrest locals (fun x _ => rfl) hkey
  | integer h i =>
    have htext : (eval (P.names runs site) locals (.method (.var "key") "to_string" [] false)).Yields t
        (.text (toString i)) t :=
      yields_methodPure (by decide) (yields_var hkey) yields_nil (libraryMethod_digits i)
    have hborrow : (eval (P.names runs site) (("key", .text (toString i)) :: locals)
        (.method (.var "key") "as_str" [] false)).Yields t (.text (toString i)) t :=
      yields_methodPure (by decide) (yields_var rfl) yields_nil (libraryMethod_asStr _)
    rw [keyToText, Option.toList_some, List.flatMap_singleton, Key.toText, if_pos h]
    refine yields_step (by simp [Stmt.bindName, Stmt.result]) (yields_bindName htext)
      (yields_step (by simp [Stmt.bindName, Stmt.result]) (yields_bindName hborrow)
        (hrest _ (fun x hx => ?_) rfl))
    simp [List.lookup_cons, beq_eq_false_iff_ne.mpr hx]
  | text h s =>
    rw [keyToText, Option.toList_some, List.flatMap_singleton, Key.toText, if_neg (by simp [h])]
    exact hrest locals (fun x _ => rfl) hkey

theorem yields_keyArgument {k : Option Key} {args : List Datum} {text : Option String}
    (h : KeyGiven k args text) (hkey : locals.lookup "key" = text.map .text)
    (hnone : locals.lookup "None" = none) (t : Option MockTransport) :
    (eval (P.names runs site) locals (keyArgument k)).Yields t (.ofOption .text text) t := by
  have hsome : ∀ s, locals.lookup "key" = some (.text s) →
      (eval (P.names runs site) locals someKey).Yields t (.present (.text s)) t := fun s hs =>
    yields_callPure (yields_single (yields_var hs)) (Program.call_some _)
  cases h with
  | none =>
    change (eval _ locals (.var "None")).Yields _ _ _
    rw [eval_var, hnone]
    exact Run.yields_pure _ _
  | integer h i => exact hsome _ hkey
  | text h s => exact hsome s hkey

end Keys

/-! ## Sending -/

section Sending

variable {e : Endpoint} {t : MockTransport} {text : Option String}

theorem key?_ofOption (text : Option String) : (Datum.ofOption .text text).key? = some text := by
  cases text <;> rfl

theorem yields_sendDelete (ht : (t.answer (e.deleteRequest text)).isSuccess = true) :
    (libraryMethod (.endpoint e) "delete" [.ofOption .text text]).Yields (some t)
      (.done (.response (t.answer (e.deleteRequest text))))
      (some (t.record (e.deleteRequest text))) := by
  rw [libraryMethod_delete, key?_ofOption]
  exact (Run.yields_pure text _).bind (Run.yields_dispatch ht)

theorem yields_sendGet {q : Rest.Query} (ht : (t.answer (e.getRequest text q)).isSuccess = true) :
    (libraryMethod (.endpoint e) "get" [.ofOption .text text, .query q]).Yields (some t)
      (.done (.response (t.answer (e.getRequest text q)))) (some (t.record (e.getRequest text q))) := by
  rw [libraryMethod_get, key?_ofOption]
  exact (Run.yields_pure text _).bind (Run.yields_dispatch ht)

end Sending

section Operations

variable {r : Resource} {names : TypeNames} (h : Ready r names) {p : PlacedTable} (hp : p ∈ r.tables)
  {e : Endpoint} {d : Datum} (hd : ClientAt names p e d) (runs : Program.Runs)

/-! ## Calls -/

include hd in
theorem yields_endpoint {ns : Names} {locals : Locals} (hself : locals.lookup "self" = some d)
    (t : Option MockTransport) : (eval ns locals endpointField).Yields t (.endpoint e) t := by
  obtain ⟨fields, rfl, hendpoint⟩ := hd
  exact yields_field (yields_var hself) hendpoint

include h hp hd

theorem method_function {f : Function} (hf : f ∈ (clientImpl r names p).functions)
    (args : List Datum) : (program r names).method runs d f.name args
      = runs (clientSite names p) f (d :: args) := by
  obtain ⟨fields, rfl, -⟩ := hd
  simp only [Program.method, functionOf?_eq h hp hf, clientSite]

theorem method_operation {o : Operation} (ho : o ∈ operations r p) (args : List Datum) :
    (program r names).method runs d o.name args
      = runs (clientSite names p) (operationFunction names p o) (d :: args) := by
  rw [← Operation.name_operationFunction names p o]
  exact method_function h hp hd runs (List.mem_append_right _ (List.mem_map_of_mem ho)) args

omit h hp in
theorem run_endpoint (t : Option MockTransport) :
    (enter ((program r names).names runs (clientSite names p)) endpointFunction [d]).Yields t
      (.endpoint e) t :=
  yields_enter rfl (yields_result (by simp) (yields_endpoint hd rfl t))

/-! ## Requests -/

variable {t : MockTransport}

omit hd in
/-- A payload is written and checked. -/
theorem yields_checkedBody (check : Check) {m : ModelShape} {slots : ModelValue}
    (hcheck : call (validatorItems p) check.name (m.write slots) = some (.ok ())) {locals : Locals}
    (hpayload : locals.lookup "payload" = some (.model m slots)) {returns : Option Ty}
    {rest : List Stmt} {t t' : Option MockTransport} {answer : Datum}
    (hrest : (execBody ((program r names).names runs (clientSite names p)) returns
      (("body", .record (m.write slots)) :: locals) rest).Yields t answer t') :
    (execBody ((program r names).names runs (clientSite names p)) returns locals
      (checkedBody p check.name ++ rest)).Yields t answer t' := by
  have hwrite : (eval ((program r names).names runs (clientSite names p)) locals
      (callPath (runtime ["Model", "to_record"]) [.var "payload"])).Yields t
        (.done (.record (m.write slots))) t := by
    exact yields_callPure (yields_single (yields_var hpayload)) (Program.call_toRecord m slots)
  have hcalled : (program r names).call runs (clientSite names p)
      ((validatorsModule p).child check.name) [.record (m.write slots)] = pure (.done .unit) := by
    have hplace : (program r names).place? (clientSite names p) ((validatorsModule p).child check.name)
        = some ⟨.validators, p.chain ++ [check.name]⟩ :=
      place?_beside r names .client .validators (some (names.client p)) (p.chain ++ [check.name])
    rw [Program.call_validators rfl hplace, runCheck?_eq h.named hp, hcheck]
    rfl
  have hchecked : (eval ((program r names).names runs (clientSite names p))
      (("body", .record (m.write slots)) :: locals)
      (callPath ((validatorsModule p).child check.name) [.ref (.var "body")])).Yields t
        (.done .unit) t :=
    yields_callPure (yields_single (yields_var rfl)) hcalled
  exact yields_step (by simp [Stmt.bindName, Stmt.result]) (yields_bindName (yields_question hwrite))
    (yields_step (by simp [Stmt.run, Stmt.result]) (yields_run (by simp) (yields_question hchecked))
      hrest)

/-- A payload that passes the check is sent as it is written. -/
theorem run_post {m : ModelShape} (hm : m.name = names.model p) {slots : ModelValue}
    (hcheck : call (validatorItems p) "validate_create" (m.write slots) = some (.ok ()))
    (ht : (t.answer (e.postRequest (m.write slots))).isSuccess = true) :
    (enter ((program r names).names runs (clientSite names p)) (postFunction names p)
        [d, .model m slots]).Yields (some t)
      (.done (.response (t.answer (e.postRequest (m.write slots)))))
      (some (t.record (e.postRequest (m.write slots)))) := by
  have hargs : arguments? (postFunction names p) [d, .model m slots]
      = some [("payload", .model m slots), ("self", d)] := by
    simp [arguments?, postFunction, bindParams?, payloadParam, modelRef, fits, hm, Ty.named, Path.rel]
  refine yields_enter hargs (yields_checkedBody h hp runs .create hcheck rfl
    (yields_result (by simp) ?_))
  exact yields_method (by decide) (yields_endpoint hd rfl _) (yields_single (yields_var rfl))
    (Run.yields_dispatch ht)

omit h hp in
/-- The request goes to the path of the key, or of the endpoint itself. -/
theorem run_delete {k : Option Key} {args : List Datum} {text : Option String}
    (hk : KeyGiven k args text) (ht : (t.answer (e.deleteRequest text)).isSuccess = true) :
    (enter ((program r names).names runs (clientSite names p)) (deleteFunction k)
        (d :: args)).Yields (some t) (.done (.response (t.answer (e.deleteRequest text))))
      (some (t.record (e.deleteRequest text))) := by
  have hargs : arguments? (deleteFunction k) (d :: args)
      = some ((args.map fun a => ("key", a)) ++ [("self", d)]) := by
    have hparams : bindParams? (keyParams k ++ []) (args ++ [])
        = some ([] ++ args.map fun a => ("key", a)) := hk.bindParams? rfl
    rw [List.append_nil, List.append_nil, List.nil_append] at hparams
    change (bindParams? (keyParams k) args).map _ = _
    rw [hparams, Option.map_some]
  refine yields_enter hargs (yields_keyToText hk (by cases hk <;> rfl) fun inner hinner hkey => ?_)
  have hself : inner.lookup "self" = some d := by
    rw [hinner "self" (by decide)]
    cases hk <;> rfl
  have hnone : inner.lookup "None" = none := by
    rw [hinner "None" (by decide)]
    cases hk <;> rfl
  exact yields_result (by simp) (yields_method (by decide) (yields_endpoint hd hself _)
    (yields_single (yields_keyArgument hk hkey hnone _)) (yields_sendDelete ht))

/-! ## Reads -/

variable {m : ModelType} (hmodel : (program r names).model? (names.model p) = some m)

include hmodel

omit h hp hd in
/-- The model that a client reads is that of its table. -/
theorem shape?_modelRef : ((program r names).names runs (clientSite names p)).model?
    (.rel ["super", "model", names.model p]) = some m.shape := by
  have hplace := place?_beside r names .client .model (some (names.client p)) [names.model p]
  change (program r names).shape? (clientSite names p)
    (.rel ("super" :: ArtifactKind.model.moduleName :: [names.model p])) = _
  rw [Program.shape?, clientSite, hplace]
  exact congrArg (Option.map ModelType.shape) hmodel

omit h hp hmodel in
theorem yields_requestGet {locals : Locals} (hself : locals.lookup "self" = some d)
    {params : GetParams} (hparams : locals.lookup "params" = some (.params params)) {key : Expr}
    {text : Option String} (hkey : ∀ t,
      (eval ((program r names).names runs (clientSite names p)) locals key).Yields t
        (.ofOption .text text) t)
    (ht : (t.answer (e.getRequest text params.query)).isSuccess = true) :
    (exec ((program r names).names runs (clientSite names p)) locals (requestGet key)).Yields (some t)
      (("response", .response (t.answer (e.getRequest text params.query))) :: locals)
      (some (t.record (e.getRequest text params.query))) := by
  have hquery : (eval ((program r names).names runs (clientSite names p)) locals
      (.ref (.method (.var "params") "to_query" [] false))).Yields (some t)
        (.query params.query) (some t) :=
    yields_methodPure (by decide) (yields_var hparams) yields_nil (libraryMethod_toQuery params)
  exact yields_bindName (yields_question (yields_method (by decide) (yields_endpoint hd hself _)
    (yields_cons (hkey _) (yields_single hquery)) (yields_sendGet ht)))

omit h hp hd in
/-- The end of a function that reads one object. -/
theorem yields_readOne {returns : Option Ty} (hreturns : returns = some (fallible (modelRef names p)))
    {locals : Locals} {a : Rest.Response} (hresponse : locals.lookup "response" = some (.response a))
    {t : Option MockTransport} {path : Expr} {s : String}
    (hpath : (eval ((program r names).names runs (clientSite names p)) locals path).Yields t
      (.text s) t)
    {slots : ModelValue} (hdecode : decodeOne m.shape a s = .ok slots) :
    (execBody ((program r names).names runs (clientSite names p)) returns locals
      [.result (callPath (runtime ["decode_one"]) [.var "response", path])]).Yields t
        (.done (.model m.shape slots)) t := by
  refine yields_decode List.mem_cons_self (yields_cons (yields_var hresponse) (yields_single hpath)) ?_
  have hmodelOf : modelOf? ((program r names).names runs (clientSite names p)) (modelRef names p)
      = some m.shape := shape?_modelRef runs hmodel
  rw [hreturns]
  change ((modelOf? ((program r names).names runs (clientSite names p)) (modelRef names p)).bind _) = _
  rw [hmodelOf]
  exact congrArg some (congrArg (Datum.ofExcept .clientError (.model m.shape)) hdecode)

omit h hp in
/-- One object is read from the answer to the request for its key. -/
theorem run_getByKey {k : Key} {arg : Datum} {text : String} (hk : KeyGiven (some k) [arg] (some text))
    {params : GetParams} {slots : ModelValue}
    (ht : (t.answer (e.getRequest (some text) params.query)).isSuccess = true)
    (hdecode : decodeOne m.shape (t.answer (e.getRequest (some text) params.query))
      (e.keyPath (some text)) = .ok slots) :
    (enter ((program r names).names runs (clientSite names p)) (getByKeyFunction names p k)
        [d, arg, .params params]).Yields (some t) (.done (.model m.shape slots))
      (some (t.record (e.getRequest (some text) params.query))) := by
  have hargs : arguments? (getByKeyFunction names p k) [d, arg, .params params]
      = some [("params", .params params), ("key", arg), ("self", d)] := by
    have hparams : bindParams? (keyParams (some k) ++ [queryParam]) ([arg] ++ [.params params])
        = some ([("params", .params params)] ++ [("key", arg)]) := hk.bindParams? rfl
    change (bindParams? (keyParams (some k) ++ [queryParam]) ([arg] ++ [.params params])).map _ = _
    rw [hparams]
    rfl
  have hbody : (getByKeyFunction names p k).body = keyToText (some k)
      ++ [requestGet someKey, .result (callPath (runtime ["decode_one"])
        [.var "response", .ref (.method endpointField "key_path" [someKey] false)])] := by
    simp [getByKeyFunction, keyToText]
  refine yields_enter hargs ?_
  rw [hbody]
  refine yields_keyToText hk rfl fun inner hinner hkey => ?_
  have hself : inner.lookup "self" = some d := hinner "self" (by decide)
  have hnone : inner.lookup "None" = none := hinner "None" (by decide)
  have hpath : ∀ answer t, (eval ((program r names).names runs (clientSite names p))
      (("response", answer) :: inner)
      (.ref (.method endpointField "key_path" [someKey] false))).Yields t
        (.text (e.keyPath (some text))) t := fun answer t =>
    yields_methodPure (by decide) (yields_endpoint hd hself t)
      (yields_single (yields_keyArgument hk hkey hnone t)) rfl
  exact yields_step (by simp [requestGet, Stmt.bindName, Stmt.result])
    (yields_requestGet hd runs hself (hinner "params" (by decide))
      (yields_keyArgument hk hkey hnone) ht)
    (yields_readOne runs hmodel rfl rfl (hpath _ _) hdecode)

omit h hp in
/-- One object is read from the answer to the request for the endpoint itself. -/
theorem run_getSingle (hsingle : readsSingle p = true) {params : GetParams} {slots : ModelValue}
    (ht : (t.answer (e.getRequest none params.query)).isSuccess = true)
    (hdecode : decodeOne m.shape (t.answer (e.getRequest none params.query)) e.path = .ok slots) :
    (enter ((program r names).names runs (clientSite names p)) (getFunction names p)
        [d, .params params]).Yields (some t) (.done (.model m.shape slots))
      (some (t.record (e.getRequest none params.query))) := by
  have hbody : (getFunction names p).body = [requestGet noKey,
      .result (callPath (runtime ["decode_one"])
        [.var "response", .method endpointField "path" [] false])] := by
    simp [getFunction, hsingle]
  have hreturns : (getFunction names p).returns = some (fallible (modelRef names p)) := by
    simp [getFunction, hsingle]
  have hpath : ∀ answer t, (eval ((program r names).names runs (clientSite names p))
      [("response", answer), ("params", .params params), ("self", d)]
      (.method endpointField "path" [] false)).Yields t (.text e.path) t := fun answer t =>
    yields_methodPure (by decide) (yields_endpoint hd rfl t) yields_nil (libraryMethod_path e)
  have hargs : arguments? (getFunction names p) [d, .params params]
      = some [("params", .params params), ("self", d)] := rfl
  refine yields_enter hargs ?_
  rw [hbody]
  exact yields_step (by simp [requestGet, Stmt.bindName, Stmt.result])
    (yields_requestGet hd runs rfl rfl (yields_keyArgument .none rfl rfl) ht)
    (yields_readOne runs hmodel hreturns rfl (hpath _ _) hdecode)

end Operations

end RestForge.Emit
