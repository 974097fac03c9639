import RestForge.Proofs.ClientRequests

/-!
# The tests of a client

Tests make their own client with a transport behind it, call its operations, and look at what was sent.

* `yields_expectDone`, `yields_lastRequest`, `yields_respondGet`, …: the forms that tests are made of.
* `run_clientHelper`: the function that makes transport and client.
* `yields_operation`: an operation of the client, from a test.
-/

set_option autoImplicit false

namespace RestForge.Emit

open Source Naming Schema
open Rest (Endpoint MockTransport Request)

/-! ## Forms -/

section Parts

variable {P : Program} {runs : Program.Runs} {site : Site} {locals : Locals}
  {t t' t'' : Option MockTransport} {d : Datum}

theorem yields_expectDone {e : Expr} (message : String)
    (he : (eval (P.names runs site) locals e).Yields t (.done d) t') :
    (eval (P.names runs site) locals (expecting e message)).Yields t d t' :=
  yields_methodPure (by decide) he (yields_single (yields_text message t'))
    (libraryMethod_expect_done d message)

theorem yields_expectPresent {e : Expr} (message : String)
    (he : (eval (P.names runs site) locals e).Yields t (.present d) t') :
    (eval (P.names runs site) locals (expecting e message)).Yields t d t' :=
  yields_methodPure (by decide) he (yields_single (yields_text message t'))
    (libraryMethod_expect_present d message)

theorem yields_newQuery (t : Option MockTransport) :
    (eval (P.names runs site) locals (.ref newQuery)).Yields t (.params .empty) t :=
  yields_callPure yields_nil Program.call_newParams

theorem yields_objectValue {e : Expr} {body : Record}
    (he : (eval (P.names runs site) locals e).Yields t (.record body) t') :
    (eval (P.names runs site) locals (objectValue e)).Yields t (.json (.object body)) t' :=
  yields_callPure (yields_single he) (Program.call_valueObject body)

variable {transport : MockTransport} (htransport : locals.lookup "transport" = some .transport)

include htransport

theorem yields_lastRequest {request : Request} (hlast : transport.lastRequest? = some request) :
    (eval (P.names runs site) locals (methodCall (.var "transport") "last_request" [])).Yields
      (some transport) (.present (.request request)) (some transport) := by
  refine yields_method (by decide) (yields_var htransport) yields_nil ?_
  change some (Except.ok (Datum.ofOption .request transport.lastRequest?), some transport) = _
  rw [hlast]
  rfl

theorem yields_respondGet {path answer : Expr} {s : String} {j : Json}
    (hpath : ∀ t, (eval (P.names runs site) locals path).Yields t (.text s) t)
    (hanswer : ∀ t, (eval (P.names runs site) locals answer).Yields t (.json j) t) :
    (exec (P.names runs site) locals (respondGet path answer)).Yields (some transport) locals
      (some (transport.respond .get s (.success j))) := by
  have hmethod : ∀ t, (eval (P.names runs site) locals (.path (methodPath .get))).Yields t
      (.method .get) t := fun t => yields_path (by decide) rfl
  have hresponse : (eval (P.names runs site) locals (callPath (runtime ["Response", "success"])
      [answer])).Yields (some transport) (.response (.success j)) (some transport) :=
    yields_callPure (yields_single (hanswer _)) (Program.call_success j)
  exact yields_run (by simp) (yields_method (by decide) (yields_var htransport)
    (yields_cons (hmethod _) (yields_cons (hpath _) (yields_single hresponse))) rfl)

end Parts

/-! ## Names in a test -/

/-- Code in the tests of a client. -/
def testSite : Site := ⟨.tests, [], none⟩

/-- What names stand for there, for calls down to the given depth. -/
noncomputable abbrev testNames (r : Resource) (names : TypeNames) (depth : Nat) : Names :=
  (program r names).names ((program r names).runWithin depth) testSite

theorem client_child (r : Resource) (names : TypeNames) (name : String) :
    (testPaths r names).client.child name = .rel ((resourceModule r).names
      ++ ArtifactKind.client.moduleName :: [names.rootClient, name]) := by
  simp [testPaths, Path.child, Path.rel, resourceModule, ArtifactKind.moduleName]

/-- The client of a resource sends to its path. -/
def rootEndpoint (r : Resource) : Endpoint := ⟨r.category, r.wirePath⟩

section Tests

variable {r : Resource} {names : TypeNames} (h : Ready r names)

include h

theorem call_helper {f : Function} (hf : f ∈ clientTests r (.ofResource r) (testPaths r names))
    (hname : f.name ∈ ["client", "minimal_payload"]) (runs : Program.Runs) :
    (program r names).call runs testSite (.rel [f.name]) [] = runs testSite f [] := by
  have hfound : ((program r names).file .tests).findSome? (function? f.name) = some f :=
    (apart_tests h.named names).function_found (List.mem_append_left _ (List.mem_map_of_mem hf))
  have hlocal : ∀ name ∈ ["client", "minimal_payload"], name ∉ ["crate", "super", "Self"] := by decide
  have hlibrary : ∀ name ∈ ["client", "minimal_payload"], name ∉ ["Some", "new"] := by decide
  refine Program.call_tests (libraryCall_none rfl ?_ _)
    (place?_own r names testSite (hlocal _ hname) []) hfound
  simpa [Path.rel] using hlibrary _ hname

/-- The helper makes a transport, and a client that sends through it. -/
theorem run_clientHelper (hself : ∀ p ∈ r.tables, names.client p ≠ "Self") {depth : Nat}
    (hdepth : r.tables.length ≤ depth) : ∃ d, ClientAt names (.ofResource r) (rootEndpoint r) d
    ∧ ((program r names).runWithin (depth + 2) testSite (clientHelper (testPaths r names)) []).Yields
      none (.tuple [.transport, d]) (some .empty) := by
  have hp := ofResource_mem_tables r
  obtain ⟨d, hd, hnew⟩ := run_new h hp hself hdepth
  refine ⟨d, hd, ?_⟩
  let ns := testNames r names (depth + 1)
  have hcall : (program r names).call ((program r names).runWithin (depth + 1)) testSite
      ((testPaths r names).client.child "new") [.transport] = pure d := by
    have hplace := place?_inside r names testSite .client [names.rootClient, "new"]
    rw [← client_child, h.rootClient] at hplace
    rw [Program.call_client rfl hplace (functionOf?_new h hp)]
    exact hnew
  have htransport : (eval ns [] (callPath (.glob ["std", "sync", "Arc", "new"])
      [callPath (runtime ["testing", "MockTransport", "new"]) []])).Yields none .transport
        (some .empty) := by
    have hmade : (eval ns [] (callPath (runtime ["testing", "MockTransport", "new"]) [])).Yields none
        .transport (some .empty) := yields_call yields_nil rfl
    exact yields_callPure (yields_single hmade) (Program.call_newArc _)
  have hclone : (eval ns [("transport", .transport)] (methodCall (.var "transport") "clone" [])).Yields
      (some .empty) .transport (some .empty) :=
    yields_methodPure (by decide) (yields_var rfl) yields_nil (libraryMethod_clone _)
  have hstep : ∀ e x, ∀ e', Stmt.bindName x e ≠ .result e' := by simp [Stmt.bindName, Stmt.result]
  exact yields_enter rfl (yields_step (hstep _ _) (yields_bindName htransport)
    (yields_step (hstep _ _) (yields_bindName (yields_callPure (yields_single hclone) hcall))
      (yields_result (by simp) (yields_tuple (yields_cons (yields_var rfl)
        (yields_single (yields_var rfl)))))))

theorem yields_rootPath {locals : Locals} {depth : Nat} (t : Option MockTransport) :
    (eval (testNames r names depth) locals (.path ((testPaths r names).client.child "PATH"))).Yields t
      (.text r.wirePath) t := by
  have hplace := place?_inside r names testSite .client [names.rootClient, "PATH"]
  rw [← client_child] at hplace
  have hvalue : (program r names).value? testSite ((testPaths r names).client.child "PATH")
      = some (.text r.wirePath) := by
    rw [Program.value?, hplace, h.rootClient]
    exact constantOf?_path h (ofResource_mem_tables r)
  refine yields_path ?_ hvalue
  rw [client_child]
  simp [Path.rel, resourceModule]

/-! ## Calls of the client -/

variable {depth : Nat} {d : Datum} (hd : ClientAt names (.ofResource r) (rootEndpoint r) d)
  {locals : Locals} (hclient : locals.lookup "client" = some d)

include hd hclient

theorem yields_operation {o : Operation} (ho : o ∈ operations r (.ofResource r)) {args : List Expr}
    {ds : List Datum} {t t' t'' : Option MockTransport} {answer : Datum}
    (hargs : (evalAll (testNames r names (depth + 1))
      locals args).Yields t ds t')
    (hrun : (enter ((program r names).names ((program r names).runWithin depth)
      (clientSite names (.ofResource r))) (operationFunction names (.ofResource r) o)
        (d :: ds)).Yields t' answer t'') :
    (eval (testNames r names (depth + 1)) locals
      (methodCall (.var "client") o.name args)).Yields t answer t'' := by
  have hname : o.name ≠ "and_then" := by cases o <;> simp [Operation.name]
  refine yields_method hname (yields_var hclient) hargs ?_
  rw [Program.names_method, method_operation h (ofResource_mem_tables r) hd _ ho]
  exact hrun

theorem yields_keyPathOf (text : String) (t : Option MockTransport) :
    (eval (testNames r names (depth + 1)) locals
      (keyPathOf text)).Yields t (.text ((rootEndpoint r).keyPath (some text))) t := by
  have hendpoint : (eval (testNames r names (depth + 1))
      locals (methodCall (.var "client") "endpoint" [])).Yields t (.endpoint (rootEndpoint r)) t := by
    refine yields_method (by decide) (yields_var hclient) yields_nil ?_
    have hcall := method_function h (ofResource_mem_tables r) hd
      ((program r names).runWithin (depth + 1)) (f := endpointFunction)
      (List.mem_append_left _ (List.mem_cons_of_mem _ (List.mem_cons_of_mem _ List.mem_cons_self))) []
    rw [Program.names_method]
    refine hcall ▸ ?_
    exact run_endpoint hd ((program r names).runWithin depth) t
  have hkey : (eval (testNames r names (depth + 1)) locals
      (callName "Some" [.text text])).Yields t (.present (.text text)) t :=
    yields_callPure (yields_single (yields_text _ _)) (Program.call_some _)
  exact yields_methodPure (by decide) hendpoint (yields_single hkey) rfl

end Tests

end RestForge.Emit
