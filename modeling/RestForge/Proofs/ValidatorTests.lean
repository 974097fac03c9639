import RestForge.Proofs.ItemLookup
import RestForge.Proofs.References
import RestForge.Proofs.SamplePayload

/-!
# The generated tests of the checks

The tests of a table and its checks are generated apart, and agree for every schema.

* `ChecksAgree`: what the checks of a table say of the payloads of its tests; `checksAgree`.
* `run_tableTests`: every test of a table passes.
* `validator_tests_hold`: so it is for every table of every resource that was read in a run.
-/

set_option autoImplicit false

namespace RestForge.Emit

open Source Naming Schema

/-! ## What the checks say of the payloads -/

/-- What the checks of a table say of the payloads of its tests. -/
structure ChecksAgree (p : PlacedTable) : Prop where
  /-- The constant lists the required fields in the order of the schema. -/
  required : ∃ env, constants? (validatorItems p) [] = some env
    ∧ env.lookup "REQUIRED_FIELDS" = some (.ofTexts (p.requiredFields.map Field.wireName))
  update_empty : call (validatorItems p) "validate_update" [] = some (.ok ())
  create_empty : p.requiredFields ≠ [] → call (validatorItems p) "validate_create" []
    = some (.error (.missingRequired p.dotted (p.requiredFields.map Field.wireName)))
  update_declared : ∀ f ∈ p.enumFields, ∀ v ∈ f.values,
    call (validatorItems p) "validate_update" [(f.wireName, .string v)] = some (.ok ())
  update_undeclared : ∀ f ∈ p.enumFields,
    call (validatorItems p) "validate_update" [(f.wireName, .string (undeclaredValue f))]
      = some (.error (.invalidEnum p.dotted f.wireName (undeclaredValue f) f.distinctValues))

section Table

variable {p : PlacedTable} (hp : p.IsNamed)

theorem passes_update_nil (p : PlacedTable) : Passes .update p [] := by
  refine ⟨nofun, fun f _ _ value hvalue => ?_⟩
  cases hvalue

theorem get?_single {key text wire : String} {value : Json}
    (h : Record.get? [(key, .string text)] wire = some value) : wire = key ∧ value = .string text := by
  rw [Record.get?, KeyedList.get?_cons] at h
  split at h
  · cases h
    exact ⟨‹_›, rfl⟩
  · cases h

theorem missingFields_nil (p : PlacedTable) :
    missingFields p [] = p.requiredFields.map Field.wireName := by
  simp [missingFields, PlacedTable.requiredFields, hasValue, Record.get?_nil]

include hp

theorem lookup_validatorEnv_required : (validatorEnv p).lookup "REQUIRED_FIELDS"
    = some (.ofTexts (p.requiredFields.map Field.wireName)) := lookup_required hp []

theorem passes_update_declared {f : Field} (hf : f ∈ p.enumFields) {v : String} (hv : v ∈ f.values) :
    Passes .update p [(f.wireName, .string v)] := by
  refine ⟨nofun, fun g hg _ value hvalue _ => ?_⟩
  obtain ⟨hwire, rfl⟩ := get?_single hvalue
  rw [List.inj_on_of_nodup_map hp.here.wires hg (List.mem_of_mem_filter hf) hwire]
  exact hv

theorem fault_update_undeclared {f : Field} (hf : f ∈ p.enumFields) {v : String} (hv : v ∉ f.values) :
    Fault .update p [(f.wireName, .string v)]
      (.invalidEnum p.dotted f.wireName v f.distinctValues) := by
  obtain ⟨hfield, henum⟩ := List.mem_filter.mp hf
  obtain ⟨before, after, hfields⟩ := List.append_of_mem hfield
  have hwires := hp.here.wires
  rw [hfields, List.map_append, List.map_cons, List.nodup_middle, List.nodup_cons] at hwires
  refine .undeclared f before after (.string v) nofun hfields ?_ henum ?_ rfl hv
  · intro g hg _ value hvalue _
    obtain ⟨hwire, -⟩ := get?_single hvalue
    exact absurd (List.mem_append_left _ (List.mem_map.mpr ⟨g, hg, hwire⟩)) hwires.1
  · simp [Record.get?, KeyedList.get?_cons]

theorem lookup_validatorEnv_values {f : Field} (hf : f ∈ p.enumFields) :
    (validatorEnv p).lookup (valuesConstant f.codeName) = some (.ofTexts f.distinctValues) := by
  have hne : (valuesConstant f.codeName == "ENUM_FIELDS") = false :=
    beq_eq_false_iff_ne.mpr fun he => valuesConstant_ne (by decide) he
  have hmem : valuesEntry f ∈ valuesEnv p :=
    List.mem_append_left _ (List.mem_reverse.mpr (List.mem_map_of_mem hf))
  rw [validatorEnv, List.lookup_cons, hne]
  exact lookup_of_mem (nodup_valuesEnv hp) hmem

theorem checksAgree : ChecksAgree p where
  required := ⟨validatorEnv p, constants?_validatorItems hp, lookup_validatorEnv_required hp⟩
  update_empty := by
    rw [← rowVerdict_of_passes (passes_update_nil p)]
    exact call_of_rowless hp rowless_nil .update
  create_empty := fun h => by
    have hmissing : missingFields p [] ≠ [] := by
      rw [missingFields_nil]
      simpa using h
    rw [← missingFields_nil, ← rowVerdict_of_fault (.missing rfl hmissing)]
    exact call_of_rowless hp rowless_nil .create
  update_declared := fun f hf v hv => by
    rw [← rowVerdict_of_passes (passes_update_declared hp hf hv)]
    exact call_of_rowless hp (rowless_single _ _) .update
  update_undeclared := fun f hf => by
    rw [← rowVerdict_of_fault (fault_update_undeclared hp hf (undeclaredValue_notMem f))]
    exact call_of_rowless hp (rowless_single _ _) .update

end Table

/-! ## Runs of the tests -/

theorem enter_test (ns : Names) (name : String) (body : List Stmt) :
    enter ns (testFunction name body) [] = .returning (execBody ns none [] body) := rfl

section Runs

variable {r : Resource} (names : TypeNames) (runs : Program.Runs) (site : Site) (locals : Locals)

theorem eval_newRecord :
    eval ((program r names).names runs site) locals newRecord = pure (.record []) := by
  simp [newRecord, eval_call, evalAll_nil]

/-- The result of a check was bound before. -/
theorem exec_assertIsOk {d : Datum} (h : locals.lookup "result" = some (.done d))
    (message : List Expr) : exec ((program r names).names runs site) locals
      (.run (invocation "assert" (methodCall (.var "result") "is_ok" [] :: message)))
        = pure locals := by
  have hcall : eval ((program r names).names runs site) locals
      (methodCall (.var "result") "is_ok" []) = pure (.boolean true) := by
    rw [methodCall, eval_method _ _ (by decide), eval_var, h]
    simp [evalAll_nil, Program.method]
  rw [exec_run _ _ (by simp [invocation]), eval_assert, hcall]
  simp

/-- A check that fails with the error that is expected, in the field that is looked at. -/
theorem exec_expectError {on wanted : Expr} {variant field : String} {e : Rest.ValidationError}
    {d : Datum}
    (hon : eval ((program r names).names runs site) locals on = pure (.ofVerdict (.error e)))
    (hbound : bindings? (.record (runtime ["ValidationError", variant]) [field]) (.validationError e)
      = some [(field, d)])
    (hwanted : eval ((program r names).names runs site) ((field, d) :: locals) wanted = pure d) :
    exec ((program r names).names runs site) locals (expectError on variant field wanted)
      = pure locals := by
  have hequal : execAll ((program r names).names runs site) ([(field, d)] ++ locals)
      [assertEq (.var field) wanted] = pure ([(field, d)] ++ locals) := by
    rw [execAll_cons, assertEq, exec_run _ _ (by simp [invocation]), eval_assertEq, eval_var]
    simp [hwanted, execAll_nil]
  exact exec_choose_first _ _ hon hbound hequal

/-- A value is put into a record that was made before. -/
theorem exec_insertValue {value : Expr} {wire v : String} {payload : Record}
    (hvalue : eval ((program r names).names runs site) (("payload", .record payload) :: locals) value
      = pure (.text v)) :
    exec ((program r names).names runs site) (("payload", .record payload) :: locals)
      (insertValue wire value)
        = pure (("payload", .record (payload.insert wire (.string v))) :: locals) := by
  have hkey : eval ((program r names).names runs site) (("payload", .record payload) :: locals)
      (methodCall (.text wire) "to_string" []) = pure (.text wire) := by
    rw [methodCall, eval_method _ _ (by decide), eval_text, evalAll_nil]
    simp [Program.method]
  have hjson : eval ((program r names).names runs site) (("payload", .record payload) :: locals)
      (callPath (runtime ["Value", "from"]) [value]) = pure (.json (.string v)) := by
    simp [eval_call, evalAll_cons, evalAll_nil, hvalue]
  rw [insertValue, exec_insert _ _ hkey hjson]
  rfl

variable (hr : (PlacedTable.ofResource r).IsNamed) {p : PlacedTable} (hp : p ∈ r.tables)

include hr hp

theorem eval_check (check : Check) {e : Expr} {payload : Record} {verdict : Verdict}
    (he : eval ((program r names).names runs site) locals e = pure (.record payload))
    (h : call (validatorItems p) check.name payload = some verdict) :
    eval ((program r names).names runs site) locals
      (callPath ((validatorsOf r p).child check.name) [.ref e]) = pure (.ofVerdict verdict) := by
  simp [eval_call, evalAll_cons, evalAll_nil, eval_ref, he, call_check hr hp, h]

theorem eval_constant {env : Env} {name : String} {v : Value}
    (henv : constants? (validatorItems p) [] = some env) (hv : env.lookup name = some v) :
    eval ((program r names).names runs site) locals (.path ((validatorsOf r p).child name))
      = pure (.ofValue v) := by
  have hlength : ((validatorsOf r p).child name).names.length ≠ 1 := by
    rw [child_validatorsOf]
    simp [Path.rel]
    omega
  rw [eval_path _ _ hlength, Program.names_value?, value?_constant hr hp names site henv hv,
    Run.given_some]

theorem run_updateAcceptsEmpty : enter ((program r names).names runs site)
    (updateAcceptsEmpty (validatorsOf r p)) [] = pure .unit := by
  have hagree := checksAgree (PlacedTable.isNamed_of_mem_walk hr p hp)
  have hcheck : eval ((program r names).names runs site) []
      (callPath ((validatorsOf r p).child "validate_update") [.ref newRecord])
        = pure (.done .unit) :=
    eval_check names runs site [] hr hp .update (eval_newRecord names runs site []) hagree.update_empty
  rw [updateAcceptsEmpty, enter_test, execBody_cons, exec_bindName, hcheck, pure_bind, pure_bind,
    execBody_last _ _ _ (by simp [assertOk, Stmt.run, Stmt.result]), assertOk,
    exec_assertIsOk names runs site _ rfl]
  rfl

theorem run_createRejectsEmpty (hrequired : p.requiredFields ≠ []) :
    enter ((program r names).names runs site) (createRejectsEmpty (validatorsOf r p)) []
      = pure .unit := by
  have hagree := checksAgree (PlacedTable.isNamed_of_mem_walk hr p hp)
  obtain ⟨env, henv, hconstant⟩ := hagree.required
  have hcheck := eval_check names runs site [] hr hp .create (eval_newRecord names runs site [])
    (hagree.create_empty hrequired)
  have hwanted := eval_constant names runs site
    [("fields", .ofTexts (p.requiredFields.map Field.wireName))] hr hp henv hconstant
  rw [Datum.ofValue_ofTexts] at hwanted
  have hexpect : exec ((program r names).names runs site) []
      (expectError (callPath ((validatorsOf r p).child "validate_create") [.ref newRecord])
        "MissingRequiredField" "fields" (.path ((validatorsOf r p).child "REQUIRED_FIELDS")))
        = pure [] := exec_expectError names runs site [] hcheck rfl hwanted
  rw [createRejectsEmpty, enter_test, execBody_last _ _ _ (by simp [expectError, Stmt.result]),
    hexpect]
  rfl

/-- A payload with one value, and what a check says of it. -/
theorem exec_singleValue {f : Field} {value : Expr} {v : String}
    (hvalue : eval ((program r names).names runs site) (("payload", .record []) :: locals) value
      = pure (.text v)) {verdict : Verdict}
    (h : call (validatorItems p) "validate_update" [(f.wireName, .string v)] = some verdict) :
    exec ((program r names).names runs site) locals mutableRecord
        = pure (("payload", .record []) :: locals)
      ∧ exec ((program r names).names runs site) (("payload", .record []) :: locals)
          (insertValue f.wireName value)
        = pure (("payload", .record [(f.wireName, .string v)]) :: locals)
      ∧ eval ((program r names).names runs site)
          (("payload", .record [(f.wireName, .string v)]) :: locals)
          (validateUpdate (validatorsOf r p)) = pure (.ofVerdict verdict) := by
  refine ⟨?_, exec_insertValue names runs site locals hvalue, ?_⟩
  · rw [mutableRecord, exec_bind, eval_newRecord, pure_bind]
  · refine eval_check names runs site _ hr hp .update ?_ h
    rw [eval_var]
    rfl

theorem run_acceptsDeclared {f : Field} (hf : f ∈ p.enumFields) :
    enter ((program r names).names runs site) (acceptsDeclared (validatorsOf r p) f) []
      = pure .unit := by
  have hnamed := PlacedTable.isNamed_of_mem_walk hr p hp
  have hitems := eval_constant names runs site [] hr hp (constants?_validatorItems hnamed)
    (lookup_validatorEnv_values hnamed hf)
  rw [Datum.ofValue_ofTexts] at hitems
  rw [acceptsDeclared, enter_test, execBody_last _ _ _ (by simp [Stmt.result]),
    exec_forEach _ [] hitems]
  · rfl
  · intro d hd
    obtain ⟨v, hv, rfl⟩ := List.mem_map.mp hd
    have hvalue : eval ((program r names).names runs site)
        [("payload", .record []), ("value", .text v)] (.deref (.var "value")) = pure (.text v) := by
      rw [eval_deref, eval_var]
      rfl
    obtain ⟨hrecord, hinsert, hcheck⟩ := exec_singleValue names runs site _ hr hp hvalue
      ((checksAgree hnamed).update_declared f hf v (mem_distinctValues.mp hv))
    refine ⟨[("result", .done .unit), ("payload", .record [(f.wireName, .string v)]),
      ("value", .text v)], ?_⟩
    rw [execAll_cons, hrecord, pure_bind, execAll_cons, hinsert, pure_bind, execAll_cons,
      exec_bindName, hcheck, pure_bind, pure_bind, execAll_cons,
      exec_assertIsOk names runs site _ rfl, pure_bind, execAll_nil]
    rfl

theorem run_rejectsUndeclared {f : Field} (hf : f ∈ p.enumFields) :
    enter ((program r names).names runs site) (rejectsUndeclared (validatorsOf r p) f) []
      = pure .unit := by
  have hnamed := PlacedTable.isNamed_of_mem_walk hr p hp
  obtain ⟨hrecord, hinsert, hcheck⟩ := exec_singleValue names runs site [] hr hp
    (eval_text _ _ (undeclaredValue f)) ((checksAgree hnamed).update_undeclared f hf)
  rw [rejectsUndeclared, enter_test, execBody_cons, hrecord, pure_bind, execBody_cons, hinsert,
    pure_bind, execBody_last _ _ _ (by simp [expectError, Stmt.result]),
    exec_expectError names runs site _ hcheck rfl (eval_text _ _ _)]
  rfl

/-- Every test of a table passes, whatever else its file holds. -/
theorem run_tableTests {f : Function} (hf : f ∈ tableTests (validatorsOf r p) p) :
    enter ((program r names).names runs site) f [] = pure .unit := by
  obtain hf | hf := List.mem_append.mp hf
  · obtain hf | hf := List.mem_append.mp hf
    · obtain rfl := List.mem_singleton.mp hf
      exact run_updateAcceptsEmpty names runs site hr hp
    · split at hf
      · cases hf
      · rename_i hrequired
        obtain rfl := List.mem_singleton.mp hf
        exact run_createRejectsEmpty names runs site hr hp (by simpa using hrequired)
  · obtain ⟨g, hg, hf⟩ := List.mem_flatMap.mp hf
    obtain rfl | hf := List.mem_cons.mp hf
    · exact run_acceptsDeclared names runs site hr hp hg
    · obtain rfl := List.mem_singleton.mp hf
      exact run_rejectsUndeclared names runs site hr hp hg

end Runs

/-! ## All tests of a file -/

theorem isTest_of_mem_tableTests {validators : Path} {p : PlacedTable} {f : Function}
    (hf : f ∈ tableTests validators p) : .test ∈ f.attrs := by
  obtain rfl | rfl | ⟨e, -, rfl | rfl⟩ := mem_tableTests hf <;> exact List.mem_singleton_self _

theorem passes_tableTests {r : Resource} (hr : (PlacedTable.ofResource r).IsNamed) (names : TypeNames)
    {p : PlacedTable} (hp : p ∈ r.tables) {f : Function} (hf : f ∈ tableTests (validatorsOf r p) p) :
    (program r names).Passes p.chain f.name none := by
  obtain ⟨inner, hinner, happart, htests⟩ := itemsIn?_tests hr names hp
  refine Program.passes_of_run hinner (happart.function_found (htests f hf))
    (isTest_of_mem_tableTests hf) ?_
  rw [run_tableTests names _ _ hr hp hf]
  rfl

/-- **The generated tests of the checks hold for every schema.** Take a resource that was read in a
run, whatever was read before, and its root or a nested table at any depth. The checks generated for
the table are found along its chain, and they say of the payloads of its tests what the tests expect:
nothing is enough for an update; a create payload with nothing in it fails with all required fields;
a declared enum value passes, and the value that stands for an undeclared one is refused. So the tests
pass when they are run. Moreover the smallest payload passes as a create payload of the root. -/
theorem validator_tests_hold {steps : List NamingStep} {r : Resource} (h : r ∈ resourcesRead steps)
    (names : TypeNames) :
    (∀ p ∈ r.tables, itemsIn? (validatorsFile r).items p.chain = some (validatorItems p)
      ∧ ChecksAgree p
      ∧ ∀ f ∈ tableTests (validatorsOf r p) p, (program r names).Passes p.chain f.name none)
    ∧ call (validatorsFile r).items "validate_create" (payloadRecord (.ofResource r))
      = some (.ok ()) := by
  have hr := PlacedTable.isNamed_ofResource h
  obtain ⟨limit, hformed⟩ := exists_wellFormed h
  refine ⟨fun p hp => ⟨itemsIn?_validators hr hp,
    checksAgree (PlacedTable.isNamed_of_mem_walk hr p hp),
    fun f hf => passes_tableTests hr names hp hf⟩, ?_⟩
  have hpasses := passes_payloadRecord (hformed _ (ofResource_mem_tables r)) .create
  rw [← rowVerdict_of_passes hpasses]
  exact call_of_rowless hr (rowless_payloadRecord _) .create

/-! ## A table with an enum field and rows below it -/

/-- The test of an undeclared value, the one of rows without their required field, and the smallest
payload. -/
theorem validator_tests_hold_rows :
    rowsResource ∈ resourcesRead [.read 4 rowsDocument]
      ∧ (program rowsResource rowsNames).Passes [] "mode_rejects_undeclared_value" none
      ∧ (program rowsResource rowsNames).Passes ["rows"] "create_rejects_empty_payload" none
      ∧ call (validatorsFile rowsResource).items "validate_create" [("mode", .string "on")]
        = some (.ok ()) := by
  obtain ⟨htables, hpayload⟩ := validator_tests_hold rowsResource_read rowsNames
  have hall : rowsResource.tables
      = [.ofResource rowsResource, (PlacedTable.ofResource rowsResource).child rowsTable] := rfl
  rw [hall] at htables
  obtain ⟨-, -, hroot⟩ := htables _ List.mem_cons_self
  obtain ⟨-, -, hrows⟩ := htables _ (List.mem_cons_of_mem _ List.mem_cons_self)
  have hmode : rejectsUndeclared (validatorsOf rowsResource (.ofResource rowsResource)) modeRead
      ∈ tableTests (validatorsOf rowsResource (.ofResource rowsResource)) (.ofResource rowsResource) :=
    List.mem_append_right _ (List.mem_flatMap.mpr ⟨modeRead, List.mem_cons_self, by simp⟩)
  exact ⟨rowsResource_read, hroot _ hmode,
    hrows (createRejectsEmpty _) (List.mem_cons_of_mem _ List.mem_cons_self), hpayload⟩

end RestForge.Emit
