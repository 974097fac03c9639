import RestForge.Proofs.ClientTests
import RestForge.Proofs.ValidatorTests

/-!
# The generated create cycle

One test of a resource creates an object with the smallest payload, reads it back, and deletes it if
the resource can. The test, the client and the runtime library are written apart, and have to agree
on the key, on the paths and on the form of the payload.

* `keyText?`: the text of the key in the paths of the test.
* `createRequests`, `createAnswer`: what is sent, and what is answered to the read.
* `yields_create`, `yields_readBackByKey`, `yields_readBackSingle`: the steps of the test.
* `CreateCycle`: the test passes, and this is what happens in it.
* `create_cycle_holds`: so it is for every resource that was read in a run and can be read and created.
-/

set_option autoImplicit false

namespace RestForge.Emit

open Source Naming Schema
open Rest (Endpoint MockTransport GetParams Request Response decodeOne)

/-! ## What is sent and answered -/

section Requests

variable (r : Resource)

/-- The text of the key, if the root has one. -/
def keyText? : Option String :=
  (PlacedTable.ofResource r).mkeyField?.map fun f => (keySample f).text

def createdBody : Record := payloadRecord (.ofResource r)

/-- An object with a key is found in a list. -/
def createAnswer : Response :=
  match keyText? r with
  | some _ => .success (.array [.object (createdBody r)])
  | none => .success (.object (createdBody r))

def createRequest : Request := (rootEndpoint r).postRequest (createdBody r)

def readRequest : Request := (rootEndpoint r).getRequest (keyText? r) GetParams.empty.query

def removeRequest : Request := (rootEndpoint r).deleteRequest (keyText? r)

/-- The requests of the test, in order. -/
def createRequests : List Request :=
  [createRequest r, readRequest r] ++ if r.supports .delete then [removeRequest r] else []

/-! ## The transport -/

/-- The transport once the object is created. -/
def createdTransport : MockTransport := ⟨[createRequest r], []⟩

/-- The transport once the answer to the read is set. -/
def answeringTransport : MockTransport :=
  (createdTransport r).respond .get ((rootEndpoint r).keyPath (keyText? r)) (createAnswer r)

def readTransport : MockTransport := (answeringTransport r).record (readRequest r)

/-- The transport at the end of the test. -/
def finishedTransport : MockTransport :=
  ⟨createRequests r, [((.get, (rootEndpoint r).keyPath (keyText? r)), createAnswer r)]⟩

variable {r}

theorem isSuccess_createAnswer : (createAnswer r).isSuccess = true := by
  rw [createAnswer]
  cases keyText? r <;> rfl

theorem answer_readRequest : (answeringTransport r).answer (readRequest r) = createAnswer r := by
  simp [MockTransport.answer, answeringTransport, MockTransport.respond, readRequest,
    Endpoint.getRequest]

theorem finishedTransport_delete (h : r.supports .delete = true) :
    finishedTransport r = (readTransport r).record (removeRequest r) := by
  simp [finishedTransport, createRequests, h, readTransport, answeringTransport, createdTransport,
    MockTransport.record, MockTransport.respond]

theorem finishedTransport_read (h : ¬ r.supports .delete = true) :
    finishedTransport r = readTransport r := by
  simp [finishedTransport, createRequests, h, readTransport, answeringTransport, createdTransport,
    MockTransport.record, MockTransport.respond]

end Requests

/-! ## Keys -/

/-- Only whole numbers are no text as an argument. -/
theorem keySample_argument {f : Field} (h : f.type ≠ .integer) :
    (keySample f).argument = .text (keySample f).text := by
  rw [keySample]
  cases htype : f.type <;> first | rfl | exact absurd htype h

theorem keySample_integer {f : Field} (h : f.type = .integer) :
    (keySample f).argument = .int 1 ∧ (keySample f).text = toString (1 : Int) := by
  rw [keySample, h]
  exact ⟨rfl, rfl⟩

/-- A sample key is given to a client, and is sent as its text. -/
theorem keyGiven_sample {p : PlacedTable} {f : Field} (hf : p.mkeyField? = some f) :
    ∃ k arg, Key.of? p = some k ∧ KeyGiven (some k) [arg] (some (keySample f).text)
      ∧ ∀ (ns : Names) (locals : Locals) (t : Option MockTransport),
        (eval ns locals (keySample f).argument).Yields t arg t := by
  have hkey : Key.of? p = some ⟨f.wireName, f.type == .integer⟩ := by rw [Key.of?, hf, Option.map_some]
  by_cases htype : f.type = .integer
  · obtain ⟨hargument, htext⟩ := keySample_integer htype
    refine ⟨_, .integer 1, hkey, ?_, fun ns locals t => ?_⟩
    · rw [htext]
      exact .integer (beq_iff_eq.mpr htype) 1
    · rw [hargument]
      exact Run.yields_pure _ t
  · refine ⟨_, .text (keySample f).text, hkey, .text (beq_eq_false_iff_ne.mpr htype) _,
      fun ns locals t => ?_⟩
    rw [keySample_argument htype]
    exact Run.yields_pure _ t

/-! ## Creating -/

/-- The variables of the test once the object is created. -/
def createdLocals (r : Resource) (d : Datum) (m : ModelType) : Locals :=
  [("body", .record (createdBody r)), ("payload", .model m.shape (payloadSlots (.ofResource r))),
    ("client", d), ("transport", .transport)]

/-- The variables once it is read back. -/
def fetchedLocals (r : Resource) (d : Datum) (m : ModelType) : Locals :=
  ("fetched", .model m.shape (payloadSlots (.ofResource r))) :: createdLocals r d m

/-- The model type of the root. -/
structure RootModel (r : Resource) (names : TypeNames) (m : ModelType) : Prop where
  found : (program r names).model? names.rootModel = some m
  name : m.name = names.rootModel
  fields : List.Forall₂ Modelled r.fields m.fields

section Create

variable {r : Resource} {names : TypeNames} (h : Ready r names) {limit : Nat}
  (hformed : WellFormed limit (.ofResource r)) {m : ModelType} (hm : RootModel r names m)
  {depth : Nat} {d : Datum}

include hformed

theorem contains_createdBody {f : Field} (hf : f ∈ r.fields) (hrequired : f.required = true) :
    (createdBody r).contains f.wireName = true := by
  have hmem : f ∈ payloadFields (.ofResource r) :=
    List.mem_filter.mpr ⟨hf, by simp [hrequired]⟩
  rw [Record.contains, createdBody, get?_payloadRecord hformed.names hmem]
  rfl

include hm in
theorem write_createdBody : m.shape.write (payloadSlots (.ofResource r)) = createdBody r :=
  write_payloadSlots hformed hm.fields

include hm in
/-- The answer to the read holds the payload. -/
theorem decode_createAnswer (path : String) :
    decodeOne m.shape (createAnswer r) path = .ok (payloadSlots (.ofResource r)) := by
  have hread : m.shape.read (.object (createdBody r)) = .ok (payloadSlots (.ofResource r)) :=
    read_payloadRecord hformed hm.fields
  have hdecoded := congrArg Rest.decoded hread
  rw [createAnswer]
  cases keyText? r <;> exact hdecoded

include h

/-- The body that was sent has all that the check of a created object asks for. -/
theorem exec_checkRequired (runs : Program.Runs) :
    exec ((program r names).names runs testSite) (createdLocals r d m)
      (checkRequired (testPaths r names)) = pure (createdLocals r d m) := by
  have hvalidators : (testPaths r names).validators = validatorsOf r (.ofResource r) := by
    simp [validatorsOf, testPaths, PlacedTable.ofResource]
  obtain ⟨env, henv, hconstant⟩ := (checksAgree h.named).required
  have hitems := eval_constant names runs testSite (createdLocals r d m) h.named
    (ofResource_mem_tables r) henv hconstant
  rw [Datum.ofValue_ofTexts] at hitems
  rw [checkRequired, hvalidators]
  refine exec_forEach _ _ hitems fun item hitem => ⟨[("field", item)], ?_⟩
  obtain ⟨wire, hwire, rfl⟩ := List.mem_map.mp hitem
  obtain ⟨f, hf, rfl⟩ := List.mem_map.mp hwire
  obtain ⟨hf, hrequired⟩ := List.mem_filter.mp hf
  have hcontains := contains_createdBody hformed hf hrequired
  have hcall : eval ((program r names).names runs testSite)
      (("field", .text f.wireName) :: createdLocals r d m)
      (methodCall (.var "body") "contains_key" [.deref (.var "field")]) = pure (.boolean true) := by
    have hbody : (("field", .text f.wireName) :: createdLocals r d m).lookup "body"
        = some (.record (createdBody r)) := rfl
    rw [methodCall, eval_method _ _ (by decide), evalAll_cons, eval_deref, eval_var, eval_var, hbody]
    simp [evalAll_nil, Program.method, hcontains]
  rw [execAll_cons, exec_run _ _ (by simp [invocation]), eval_assert, hcall]
  simp [execAll_nil]

include hm

/-- The client sends the smallest payload as it is. -/
theorem yields_post (depth : Nat) (hd : ClientAt names (.ofResource r) (rootEndpoint r) d)
    (hpost : r.supports .post = true) (locals : Locals) (hclient : locals.lookup "client" = some d)
    (hpayload : locals.lookup "payload" = some (.model m.shape (payloadSlots (.ofResource r)))) :
    (eval (testNames r names (depth + 1)) locals
      (methodCall (.var "client") "post" [.ref (.var "payload")])).Yields (some .empty)
      (.done (.response (.success .null))) (some (createdTransport r)) := by
  have hwrite := write_createdBody hformed hm
  have hcheck : call (validatorItems (.ofResource r)) "validate_create"
      (m.shape.write (payloadSlots (.ofResource r))) = some (.ok ()) := by
    rw [hwrite, createdBody, ← rowVerdict_of_passes (passes_payloadRecord hformed .create)]
    exact call_of_rowless h.named (rowless_payloadRecord _) .create
  have hrun := run_post h (ofResource_mem_tables r) hd ((program r names).runWithin depth)
    (m := m.shape) (hm.name.trans h.rootModel) hcheck (t := .empty) rfl
  rw [hwrite] at hrun
  exact yields_operation h hd hclient (o := .post) (mem_operations_iff.mpr ⟨hpost, List.mem_cons_self⟩)
    (yields_single (yields_var hpayload)) hrun

/-- An object is created with the smallest payload. -/
theorem yields_create (hself : ∀ p ∈ r.tables, names.client p ≠ "Self")
    (hdepth : r.tables.length ≤ depth) (hget : r.supports .get = true)
    (hpost : r.supports .post = true) {rest : List Stmt} {after : Option MockTransport}
    (hrest : ∀ d, ClientAt names (.ofResource r) (rootEndpoint r) d →
      (execBody (testNames r names (depth + 2)) none (createdLocals r d m) rest).Yields
        (some (createdTransport r)) .unit after) :
    (execBody (testNames r names (depth + 2)) none []
      ([constructPair, .bindName "payload" (callName "minimal_payload" []),
        .run (expecting (methodCall (.var "client") "post" [.ref (.var "payload")]) "create succeeds"),
        sentBody, checkRequired (testPaths r names)] ++ rest)).Yields none .unit after := by
  obtain ⟨d, hd, hpair⟩ := run_clientHelper h hself hdepth
  let payload := Datum.model m.shape (payloadSlots (.ofResource r))
  have hhelpers : clientHelper (testPaths r names) ∈ clientTests r (.ofResource r) (testPaths r names)
      ∧ payloadHelper (.ofResource r) (testPaths r names)
        ∈ clientTests r (.ofResource r) (testPaths r names) := by
    simp [clientTests, hget, hpost]
  have hclient : (eval (testNames r names (depth + 2)) [] (callName "client" [])).Yields none
      (.tuple [.transport, d]) (some .empty) := by
    refine yields_call yields_nil ?_
    rw [Program.names_call]
    exact (call_helper h hhelpers.1 List.mem_cons_self _) ▸ hpair
  have hpayload : (eval (testNames r names (depth + 2)) [("client", d), ("transport", .transport)]
      (callName "minimal_payload" [])).Yields (some .empty) payload (some .empty) := by
    refine yields_call yields_nil ?_
    rw [Program.names_call]
    refine (call_helper h hhelpers.2 (List.mem_cons_of_mem _ List.mem_cons_self) _) ▸ ?_
    exact Run.yields_of_eq (run_payloadHelper _ _ hformed hm.found hm.fields) _
  have hposted := yields_post h hformed hm (depth + 1) hd hpost
    [("payload", payload), ("client", d), ("transport", .transport)] rfl rfl
  have hsent : (eval (testNames r names (depth + 2))
      [("payload", payload), ("client", d), ("transport", .transport)]
      (methodCall (methodCall (.var "transport") "last_request" []) "and_then"
        [.closure "request" (.field (.var "request") "body")])).Yields (some (createdTransport r))
        (.present (.record (createdBody r))) (some (createdTransport r)) :=
    yields_andThen (yields_lastRequest rfl rfl) (yields_field (yields_var rfl) rfl)
  have hchecked := Run.yields_of_eq (exec_checkRequired h (d := d) hformed
    ((program r names).runWithin (depth + 2)) (m := m)) (some (createdTransport r))
  refine yields_step (by simp [constructPair, Stmt.result]) (yields_bind hclient rfl) ?_
  refine yields_step (by simp [Stmt.bindName, Stmt.result]) (yields_bindName hpayload) ?_
  refine yields_step (by simp [Stmt.run, Stmt.result])
    (yields_run (by simp [expecting, methodCall]) (yields_expectDone _ hposted)) ?_
  refine yields_step (by simp [sentBody, Stmt.bindName, Stmt.result])
    (yields_bindName (yields_expectPresent _ hsent)) ?_
  exact yields_step (by simp [checkRequired, Stmt.result]) hchecked (hrest d hd)

end Create

/-! ## Reading back -/

/-- What is read is compared with the payload. -/
theorem yields_readBack {r : Resource} {names : TypeNames} {depth : Nat} {d : Datum} {m : ModelType}
    {path answer read : Expr} {j : Json} {message : String} {rest : List Stmt}
    {after : Option MockTransport} (hj : createAnswer r = .success j)
    (hpath : ∀ t, (eval (testNames r names depth) (createdLocals r d m) path).Yields t
      (.text ((rootEndpoint r).keyPath (keyText? r))) t)
    (hanswer : ∀ t, (eval (testNames r names depth) (createdLocals r d m) answer).Yields t (.json j) t)
    (hread : (eval (testNames r names depth) (createdLocals r d m) read).Yields
      (some (answeringTransport r)) (.done (.model m.shape (payloadSlots (.ofResource r))))
      (some (readTransport r)))
    (hrest : (execBody (testNames r names depth) none (fetchedLocals r d m) rest).Yields
      (some (readTransport r)) .unit after) :
    (execBody (testNames r names depth) none (createdLocals r d m)
      ([respondGet path answer, .bindName "fetched" (expecting read message),
        assertEq (.var "fetched") (.var "payload")] ++ rest)).Yields (some (createdTransport r)) .unit
      after := by
  have hrespond : (exec (testNames r names depth) (createdLocals r d m) (respondGet path answer)).Yields
      (some (createdTransport r)) (createdLocals r d m) (some (answeringTransport r)) := by
    rw [answeringTransport, hj]
    exact yields_respondGet rfl hpath hanswer
  refine yields_step (by simp [respondGet, Stmt.run, Stmt.result]) hrespond ?_
  refine yields_step (by simp [Stmt.bindName, Stmt.result])
    (yields_bindName (yields_expectDone _ hread)) ?_
  exact yields_step (by simp [assertEq, Stmt.run, Stmt.result])
    (yields_run (by simp [invocation]) (yields_assertEq (yields_var rfl) (yields_var rfl))) hrest

section ReadBack

variable {r : Resource} {names : TypeNames} (h : Ready r names) {limit : Nat}
  (hformed : WellFormed limit (.ofResource r)) {m : ModelType} (hm : RootModel r names m)
  (depth : Nat) {d : Datum} (hd : ClientAt names (.ofResource r) (rootEndpoint r) d)

include h hd

/-- What was created is removed under the same key. -/
theorem yields_remove (hdelete : r.supports .delete = true) (args : List Expr) {ds : List Datum}
    (hargs : ∀ t, (evalAll (testNames r names (depth + 1)) (fetchedLocals r d m) args).Yields t ds t)
    (hkey : KeyGiven (Key.of? (.ofResource r)) ds (keyText? r)) :
    (eval (testNames r names (depth + 1)) (fetchedLocals r d m)
      (methodCall (.var "client") "delete" args)).Yields (some (readTransport r))
      (.done (.response (.success .null))) (some ((readTransport r).record (removeRequest r))) := by
  -- The answer that was set is for reads only, so the removal succeeds.
  have hrun := run_delete (r := r) hd ((program r names).runWithin depth) (t := readTransport r) hkey
    rfl
  exact yields_operation h hd rfl (o := .delete (Key.of? (.ofResource r)))
    (mem_operations_iff.mpr ⟨hdelete, List.mem_cons_self⟩) (hargs _) hrun

include hformed hm

theorem yields_readBackByKey (hget : r.supports .get = true) {f : Field}
    (hf : (PlacedTable.ofResource r).mkeyField? = some f) :
    (execBody (testNames r names (depth + 1)) none (createdLocals r d m)
      (readBackByKey r (keySample f))).Yields (some (createdTransport r)) .unit
      (some (finishedTransport r)) := by
  obtain ⟨k, arg, hk, hgiven, hargument⟩ := keyGiven_sample hf
  have htext : keyText? r = some (keySample f).text := by rw [keyText?, hf, Option.map_some]
  have hanswer : createAnswer r = .success (.array [.object (createdBody r)]) := by
    rw [createAnswer, htext]
  have hpath : ∀ locals : Locals, locals.lookup "client" = some d → ∀ t,
      (eval (testNames r names (depth + 1)) locals (keyPathOf (keySample f).text)).Yields t
        (.text ((rootEndpoint r).keyPath (keyText? r))) t := by
    intro locals hclient t
    rw [htext]
    exact yields_keyPathOf h hd hclient _ t
  have hlist : ∀ t, (eval (testNames r names (depth + 1)) (createdLocals r d m)
      (callPath (runtime ["Value", "Array"])
        [.invoke "vec" .bracket [objectValue (.var "body")]])).Yields t
      (.json (.array [.object (createdBody r)])) t := fun t =>
    yields_callPure (yields_single (yields_vec (yields_single (yields_objectValue (yields_var rfl)))))
      (Program.call_valueArray _)
  have hread : (eval (testNames r names (depth + 1)) (createdLocals r d m)
      (methodCall (.var "client") "get_by_key" [(keySample f).argument, .ref newQuery])).Yields
      (some (answeringTransport r)) (.done (.model m.shape (payloadSlots (.ofResource r))))
      (some (readTransport r)) := by
    have hrequest : (rootEndpoint r).getRequest (some (keySample f).text) GetParams.empty.query
        = readRequest r := by rw [readRequest, htext]
    have hsuccess : ((answeringTransport r).answer ((rootEndpoint r).getRequest
        (some (keySample f).text) GetParams.empty.query)).isSuccess = true := by
      rw [hrequest, answer_readRequest]
      exact isSuccess_createAnswer
    have hdecode : decodeOne m.shape ((answeringTransport r).answer ((rootEndpoint r).getRequest
        (some (keySample f).text) GetParams.empty.query))
        ((rootEndpoint r).keyPath (some (keySample f).text)) = .ok (payloadSlots (.ofResource r)) := by
      rw [hrequest, answer_readRequest]
      exact decode_createAnswer hformed hm _
    have hrun := run_getByKey hd ((program r names).runWithin depth) (h.rootModel ▸ hm.found) hgiven
      hsuccess hdecode
    rw [hrequest] at hrun
    have hmem : .getByKey k ∈ operationsOf (.ofResource r) .get := by
      simp [operationsOf, hk]
    exact yields_operation h hd rfl (o := .getByKey k) (mem_operations_iff.mpr ⟨hget, hmem⟩)
      (yields_cons (hargument _ _ _) (yields_single (yields_newQuery _))) hrun
  refine yields_readBack hanswer (hpath _ rfl) hlist hread ?_
  split
  · rename_i hdelete
    have hgone := yields_remove h depth hd (m := m) hdelete [(keySample f).argument]
      (fun t => yields_single (hargument _ _ t)) (hk ▸ htext ▸ hgiven)
    let locals : Locals := ("request", .request (removeRequest r)) :: fetchedLocals r d m
    let removed := (readTransport r).record (removeRequest r)
    have hmethod : (exec (testNames r names (depth + 1)) locals
        (assertEq (.field (.var "request") "method") (.path (methodPath .delete)))).Yields
        (some removed) locals (some removed) :=
      yields_run (by simp [invocation])
        (yields_assertEq (yields_field (yields_var rfl) rfl) (yields_path (by decide) rfl))
    have hsame : (exec (testNames r names (depth + 1)) locals
        (assertEq (.field (.var "request") "path") (keyPathOf (keySample f).text))).Yields
        (some removed) locals (some removed) :=
      yields_run (by simp [invocation])
        (yields_assertEq (yields_field (yields_var rfl) rfl) (hpath locals rfl _))
    rw [finishedTransport_delete hdelete]
    exact yields_step (by simp [Stmt.run, Stmt.result])
      (yields_run (by simp [expecting, methodCall]) (yields_expectDone _ hgone))
      (yields_step (by simp [lastRequest, Stmt.bindName, Stmt.result])
        (yields_bindName (yields_expectPresent _ (yields_lastRequest rfl rfl)))
        (yields_step (by simp [assertEq, Stmt.run, Stmt.result]) hmethod
          (yields_step (by simp [assertEq, Stmt.run, Stmt.result]) hsame yields_end)))
  · rename_i hdelete
    rw [finishedTransport_read hdelete]
    exact yields_end

/-- Without a key there is one object only. -/
theorem yields_readBackSingle (hget : r.supports .get = true)
    (hf : (PlacedTable.ofResource r).mkeyField? = none) :
    (execBody (testNames r names (depth + 1)) none (createdLocals r d m)
      (readBackSingle r (testPaths r names))).Yields (some (createdTransport r)) .unit
      (some (finishedTransport r)) := by
  have htext : keyText? r = none := by rw [keyText?, hf, Option.map_none]
  have hkey : Key.of? (.ofResource r) = none := by rw [Key.of?, hf, Option.map_none]
  have hanswer : createAnswer r = .success (.object (createdBody r)) := by
    rw [createAnswer, htext]
  have hsingle : readsSingle (.ofResource r) = true := by
    have hmkey := (key_eq_none_iff hformed).mp hkey
    rw [readsSingle, hmkey]
    rfl
  have hpath : ∀ t, (eval (testNames r names (depth + 1)) (createdLocals r d m)
      (.path ((testPaths r names).client.child "PATH"))).Yields t
        (.text ((rootEndpoint r).keyPath (keyText? r))) t := by
    intro t
    rw [htext]
    exact yields_rootPath h t
  have hread : (eval (testNames r names (depth + 1)) (createdLocals r d m)
      (methodCall (.var "client") "get" [.ref newQuery])).Yields (some (answeringTransport r))
      (.done (.model m.shape (payloadSlots (.ofResource r)))) (some (readTransport r)) := by
    have hrequest : (rootEndpoint r).getRequest none GetParams.empty.query = readRequest r := by
      rw [readRequest, htext]
    have hsuccess : ((answeringTransport r).answer ((rootEndpoint r).getRequest none
        GetParams.empty.query)).isSuccess = true := by
      rw [hrequest, answer_readRequest]
      exact isSuccess_createAnswer
    have hdecode : decodeOne m.shape ((answeringTransport r).answer ((rootEndpoint r).getRequest none
        GetParams.empty.query)) (rootEndpoint r).path = .ok (payloadSlots (.ofResource r)) := by
      rw [hrequest, answer_readRequest]
      exact decode_createAnswer hformed hm _
    have hrun := run_getSingle hd ((program r names).runWithin depth) (h.rootModel ▸ hm.found) hsingle
      hsuccess hdecode
    rw [hrequest] at hrun
    exact yields_operation h hd rfl (o := .get) (mem_operations_iff.mpr ⟨hget, List.mem_cons_self⟩)
      (yields_single (yields_newQuery _)) hrun
  refine yields_readBack hanswer hpath (fun t => yields_objectValue (yields_var rfl)) hread ?_
  split
  · rename_i hdelete
    have hgone := yields_remove h depth hd (m := m) hdelete [] (fun t => yields_nil)
      (hkey ▸ htext ▸ .none)
    rw [finishedTransport_delete hdelete]
    exact yields_step (by simp [Stmt.run, Stmt.result])
      (yields_run (by simp [expecting, methodCall]) (yields_expectDone _ hgone)) yields_end
  · rename_i hdelete
    rw [finishedTransport_read hdelete]
    exact yields_end

end ReadBack

/-! ## The whole cycle -/

/-- What holds of the test of a resource that creates an object. -/
structure CreateCycle (r : Resource) (names : TypeNames) : Prop where
  /-- No assertion of the test fails, and these are the requests that it sends. -/
  passes : (program r names).Passes [] "create_and_verify" (some (finishedTransport r))
  /-- The created object has every required field under its wire name. -/
  complete : ∀ f ∈ r.fields, f.required = true → (createdBody r).contains f.wireName = true
  /-- What is read is the payload, and the payload is what was sent. -/
  fetched : ∃ m, (program r names).model? names.rootModel = some m
    ∧ m.shape.write (payloadSlots (.ofResource r)) = createdBody r
    ∧ decodeOne m.shape (createAnswer r) ((rootEndpoint r).keyPath (keyText? r))
      = .ok (payloadSlots (.ofResource r))

/-- A client of a table has three functions besides its operations. -/
theorem tables_le_depth (r : Resource) (names : TypeNames) :
    r.tables.length + 2 ≤ (program r names).depth := by
  have hclient : ∀ ps : List PlacedTable, 3 * ps.length
      ≤ ((ps.flatMap fun p =>
        [Item.struct (clientStruct names p), .impl (clientImpl r names p)]).flatMap
          Program.functionsOf).length := by
    intro ps
    induction ps with
    | nil => exact Nat.le_refl _
    | cons p ps ih =>
      have hthree : 3 ≤ (clientImpl r names p).functions.length := by
        simp [clientImpl]
      simp only [List.flatMap_cons, List.flatMap_append, List.length_append, List.length_cons,
        List.flatMap_nil, Program.functionsOf, List.length_nil]
      omega
  have hpos : 0 < r.tables.length := List.length_pos_of_mem (ofResource_mem_tables r)
  have hall : 3 * r.tables.length ≤ ((clientFile r names).items.flatMap Program.functionsOf).length :=
    hclient r.tables
  have hfile : (program r names).depth = (((clientFile r names).items
      ++ (testsFile r names).items).flatMap Program.functionsOf).length := rfl
  rw [hfile, List.flatMap_append, List.length_append]
  omega

/-- The model file has two items for each table, so that models nest no deeper than it is long. -/
theorem exists_rootModel {r : Resource} {names : TypeNames} (h : Ready r names) :
    ∃ m, RootModel r names m := by
  have hlength : r.tables.length ≤ (modelFile r names).items.length := by
    have hitems : (modelFile r names).items.length = (r.tables.map fun _ => 2).sum :=
      List.length_flatMap
    rw [hitems]
    simp
    omega
  obtain ⟨m, hfound, hname, hfields⟩ := exists_modelType h (ofResource_mem_tables r) hlength
  rw [← h.rootModel] at hfound hname
  exact ⟨m, hfound, hname, hfields⟩

/-- **The generated create cycle holds for every schema.** Take a resource that was read in a run and
the type names that it was given there, and let it support reads and creation, with or without a key.
Its generated test passes against a fresh transport: what is sent is the smallest payload, with every
required field under its wire name; the read goes to the path that the answer was set for, and gives
back a model equal to the payload; the object is deleted under its key, if that is supported. Nothing
else is sent. -/
theorem create_cycle_holds {steps : List NamingStep} {r : Resource} {names : TypeNames}
    (hread : r ∈ resourcesRead steps) (hresolved : Run.ResolvedIn steps (r, names))
    (hget : r.supports .get = true) (hpost : r.supports .post = true) : CreateCycle r names := by
  have h := ready_of_run hread hresolved
  obtain ⟨limit, hformed⟩ := exists_wellFormed hread
  have hroot := hformed _ (ofResource_mem_tables r)
  obtain ⟨m, hm⟩ := exists_rootModel h
  have hself : ∀ p ∈ r.tables, names.client p ≠ "Self" := by
    obtain ⟨before, after, -, hok⟩ := hresolved
    intro p hp he
    have hends := Run.client_ends (Prod.ext hok rfl) hp
    rw [he] at hends
    exact absurd hends (by decide)
  refine ⟨?_, fun f hf hrequired => contains_createdBody hroot hf hrequired,
    m, hm.found, write_createdBody hroot hm, decode_createAnswer hroot hm _⟩
  obtain ⟨depth, hdepth⟩ := Nat.exists_eq_add_of_le (tables_le_depth r names)
  have hmem : createAndVerify r (.ofResource r) (testPaths r names)
      ∈ clientTests r (.ofResource r) (testPaths r names) := by
    simp [clientTests, hget, hpost]
  have hfound := (apart_tests h.named names).function_found
    (List.mem_append_left _ (List.mem_map_of_mem hmem))
  refine Program.passes_of_run rfl hfound List.mem_cons_self ?_
  have hsplit : (program r names).depth = r.tables.length + depth + 2 := by omega
  rw [hsplit]
  refine yields_enter rfl (yields_create h hroot hm hself (Nat.le_add_right _ depth) hget hpost
    fun d hd => ?_)
  split
  · exact yields_readBackByKey h hroot hm _ hd hget ‹_›
  · exact yields_readBackSingle h hroot hm _ hd hget ‹_›

/-! ## Objects with a whole number as their key -/

def freePortDocument : Record :=
  [("category", .string "cmdb"), ("fields", .array [.object portItem, .object linksItem]),
    ("methods", .strings ["post", "delete", "GET"]), ("mkey", .string "port"),
    ("path", .string "/net/port/")]

def freePortResource : Resource := { portResource with methods := [.get, .post, .delete] }

/-- Only the methods differ from those of the other document. -/
theorem freePortDocument_read : ∃ t,
    readResource 1 (.object freePortDocument) (tableFrom .empty []) = (.ok freePortResource, t) := by
  obtain ⟨t, hread⟩ := portDocument_read
  obtain ⟨members, ⟨category, segments, methods⟩, items, modules, t₁, hdoc, hheader, hcategory,
    hsegments, -, hmodules, hnames, hhelp, hitems, hreads, hmkey, hkey⟩ := readResource_ok_iff.mp hread
  cases hdoc
  cases hcategory
  cases hsegments
  have hfree : HasHeader freePortDocument ⟨.config, ["net", "port"], [.get, .post, .delete]⟩ :=
    readHeader_ok_iff.mp rfl
  have hroot : RootItems freePortDocument items := by
    cases hitems with
    | omitted h => exact .omitted h
    | listed items h => exact .listed items h
  exact ⟨t, readResource_ok_iff.mpr ⟨freePortDocument, _, items, modules, t₁, rfl, hfree, rfl, rfl, rfl,
    hmodules, hnames, .omitted (.inl rfl), hroot, hreads, .text "port" rfl, hkey⟩⟩

def freePortSteps : List NamingStep :=
  [.read 1 (.object freePortDocument), .resolve freePortResource]

theorem freePortResource_resolved : Run.ResolvedIn freePortSteps (freePortResource, portNames) := by
  have hfresh : SameIn (Scope.types freePortResource.dottedPath) .empty
      (tableFrom .empty [.read 1 (.object freePortDocument)]) :=
    (program_readResource 1 (.object freePortDocument)).sameTypes .empty _ rfl
  -- the names of types do not depend on the methods
  have hsame : resolve freePortResource = resolve portResource := by
    rw [← Walk.run_ofResource, ← Walk.run_ofResource]
    rfl
  refine ⟨[.read 1 (.object freePortDocument)], [], rfl, (resolve_sameIn hfresh).symm.trans ?_⟩
  rw [hsame]
  exact portResource_named

/-- The key is a number to the client, and text in the paths. -/
theorem create_cycle_holds_port :
    freePortResource ∈ resourcesRead freePortSteps
      ∧ Run.ResolvedIn freePortSteps (freePortResource, portNames)
      ∧ freePortResource.supports .get = true ∧ freePortResource.supports .post = true
      ∧ CreateCycle freePortResource portNames
      ∧ createdBody freePortResource = [("port", .nat 1)]
      ∧ (createRequests freePortResource).map (fun q => (q.method, q.path))
        = [(.post, "net/port"), (.get, "net/port/1"), (.delete, "net/port/1")] := by
  obtain ⟨t, hread⟩ := freePortDocument_read
  have hmem : freePortResource ∈ resourcesRead freePortSteps := mem_resourcesFrom_of_read hread
  exact ⟨hmem, freePortResource_resolved, rfl, rfl,
    create_cycle_holds hmem freePortResource_resolved rfl rfl, by rfl, by decide +kernel⟩

end RestForge.Emit
