import RestForge.Emit.Artifact
import RestForge.Proofs.TreePaths
import RestForge.Proofs.Validation

/-!
# Paths in generated items

Which paths lead out of the files of a resource, item by item.

* `OutTo`: a path that is local or one of those that are expected.
* `modelStruct_paths`, `clientStruct_paths`, …: the paths of an item are local or those named there.
* `operationFunction_paths`, `checkFunction_paths`, `clientTest_paths`, `tableTest_paths`: so it is for
  the functions, whose statements end where they have to (`clientImpl_ended`, `clientTest_ended`, …).
-/

set_option autoImplicit false

namespace RestForge.Emit

open Source Naming

/-! ## Local paths -/

/-- If the path leads out, it is one of these. -/
def OutTo (A : Path → Prop) (p : Path) : Prop := p.isLocal = true ∨ A p

@[simp] theorem isLocal_glob (names : List String) : (Path.glob names).isLocal = true := rfl

@[simp] theorem isLocal_runtime (names : List String) : (runtime names).isLocal = true := rfl

@[simp] theorem isLocal_name (name : String) : (Path.rel [name]).isLocal = true := rfl

@[simp] theorem isLocal_rel (w n : String) (names : List String) :
    (Path.rel (w :: n :: names)).isLocal = decide (w ∉ outward) := by
  simp [Path.isLocal, Path.rel]

theorem mem_outward {w : String} : w ∈ outward ↔ w = "super" ∨ w = "crate" := by
  simp [outward]

/-! ## Paths of what items are made of -/

@[simp] theorem paths_docAttributes (text : String) :
    (docAttributes text).flatMap Attribute.paths = [] := by
  simp [docAttributes]

section Parts

variable (name : String) (p : Path) (t t' : Ty) (e : Expr) (args : List Expr)

@[simp] theorem paths_named : (Ty.named p).paths = [p] := rfl

@[simp] theorem paths_runtimeType : (runtimeType name).paths = [runtime [name]] := rfl

@[simp] theorem paths_strRef (isStatic : Bool) : (strRef isStatic).paths = [.rel ["str"]] := rfl

@[simp] theorem paths_textList (isStatic : Bool) : (textList isStatic).paths = [.rel ["str"]] := rfl

@[simp] theorem paths_applied (ts : List Ty) :
    (applied name ts).paths = .rel [name] :: Ty.pathsAll ts :=
  rfl

@[simp] theorem paths_outcome : (outcome t t').paths = .rel ["Result"] :: (t.paths ++ t'.paths) := by
  simp [outcome]

@[simp] theorem paths_fallible :
    (fallible t).paths = .rel ["Result"] :: (t.paths ++ [runtime ["ClientError"]]) := by
  simp [fallible, clientError]

@[simp] theorem paths_responseType :
    responseType.paths = [.rel ["Result"], runtime ["Response"], runtime ["ClientError"]] := rfl

@[simp] theorem paths_var : (Expr.var name).paths = [.rel [name]] := rfl

@[simp] theorem paths_callPath : (callPath p args).paths = p :: Expr.pathsAll args := rfl

@[simp] theorem paths_callName : (callName name args).paths = .rel [name] :: Expr.pathsAll args := rfl

@[simp] theorem paths_endpointField : endpointField.paths = [.rel ["self"]] := rfl

@[simp] theorem paths_bindName : (Stmt.bindName name e).paths = e.paths := rfl

@[simp] theorem paths_run : (Stmt.run e).paths = e.paths := rfl

@[simp] theorem paths_result : (Stmt.result e).paths = e.paths := rfl

@[simp] theorem paths_texts (items : List String) : (texts items).paths = [] := by
  simp [texts, Expr.pathsAll_eq]

end Parts

section Items

variable {A : Path → Prop} {names : TypeNames} {p : PlacedTable}

theorem scalarType_paths (f : Field) : ∀ q ∈ (scalarType f).paths, OutTo A q := by
  unfold scalarType
  split <;> simp [OutTo, textType]

/-! ## Models -/

theorem modelStruct_paths : ∀ q ∈ (modelStruct names p).paths, OutTo A q := by
  have hfield : ∀ f, ∀ q ∈ (modelField names p f).paths, OutTo A q := by
    intro f
    have htype : ∀ q ∈ (fieldType names p f).paths, OutTo A q := by
      unfold fieldType
      split
      · split
        · simp [OutTo]
        · exact scalarType_paths f
      · exact scalarType_paths f
    simpa [modelField, OutTo] using htype
  rw [StructItem.paths, List.forall_mem_append]
  refine ⟨by simp [modelStruct, modelTraits, OutTo], fun q hq => ?_⟩
  obtain ⟨f', hf, hq⟩ := List.mem_flatMap.mp hq
  obtain ⟨f, -, rfl⟩ := List.mem_map.mp hf
  exact hfield f q hq

theorem modelImpl_paths : ∀ q ∈ (modelImpl names p).paths, OutTo A q := by
  simp [modelImpl, OutTo]

/-! ## Clients -/

theorem clientStruct_paths : ∀ q ∈ (clientStruct names p).paths, OutTo A q := by
  rw [StructItem.paths, List.forall_mem_append, clientStruct, List.flatMap_cons,
    List.forall_mem_append]
  refine ⟨by simp [OutTo], by simp [OutTo], fun q hq => ?_⟩
  obtain ⟨f, hf, hq⟩ := List.mem_flatMap.mp hq
  obtain ⟨c, -, rfl⟩ := List.mem_map.mp hf
  rw [show q = .rel [names.client c] by simpa [childField] using hq]
  exact .inl rfl

theorem clientConstants_paths (r : Resource) :
    ∀ q ∈ (clientConstants r p).flatMap Constant.paths, OutTo A q := by
  have hmethod : ∀ m, (methodPath m).isLocal = true := by
    intro m
    cases m <;> rfl
  have hcategory : (categoryPath r.category).isLocal = true := by
    cases r.category <;> rfl
  have hmethods : ∀ q ∈ Expr.pathsAll (r.methods.map fun m => .path (methodPath m)), OutTo A q := by
    intro q hq
    rw [Expr.pathsAll_eq, List.flatMap_map] at hq
    obtain ⟨m, -, hq⟩ := List.mem_flatMap.mp hq
    rw [List.mem_singleton.mp hq]
    exact .inl (hmethod m)
  rw [clientConstants]
  cases p.mkey <;> simpa [mkeyConstant, OutTo, hcategory] using hmethods

def modelPath (names : TypeNames) (p : PlacedTable) : Path := .rel ["super", "model", names.model p]

@[simp] theorem paths_modelRef : (modelRef names p).paths = [modelPath names p] := rfl

section Operations

variable (hmodel : A (modelPath names p))
  (hcheck : ∀ check : Check, A ((validatorsModule p).child check.name))

include hmodel

theorem getFunction_paths : ∀ q ∈ (getFunction names p).paths, OutTo A q := by
  unfold getFunction
  split <;> simp [queryParam, requestGet, noKey, OutTo, hmodel]

theorem getByKeyFunction_paths (k : Key) :
    ∀ q ∈ (getByKeyFunction names p k).paths, OutTo A q := by
  obtain ⟨wire, isInteger⟩ := k
  cases isInteger <;>
    simp [getByKeyFunction, Key.param, Key.toText, queryParam, requestGet, someKey, OutTo, hmodel]

include hcheck

theorem postFunction_paths : ∀ q ∈ (postFunction names p).paths, OutTo A q := by
  have hcreate : A ((validatorsModule p).child "validate_create") := hcheck .create
  simp [postFunction, payloadParam, checkedBody, bodyRef, OutTo, hmodel, hcreate]

theorem putFunction_paths (k : Option Key) : ∀ q ∈ (putFunction names p k).paths, OutTo A q := by
  have hupdate : A ((validatorsModule p).child "validate_update") := hcheck .update
  rcases k with _ | ⟨wire, _ | _⟩ <;>
    simp [putFunction, keyParams, Key.param, keyToText, Key.toText, keyArgument, noKey, someKey,
      payloadParam, checkedBody, bodyRef, OutTo, hmodel, hupdate]

omit hmodel hcheck in
theorem deleteFunction_paths (k : Option Key) : ∀ q ∈ (deleteFunction k).paths, OutTo A q := by
  rcases k with _ | ⟨wire, _ | _⟩ <;>
    simp [deleteFunction, keyParams, Key.param, keyToText, Key.toText, keyArgument, noKey, someKey,
      OutTo]

theorem operationFunction_paths (o : Operation) :
    ∀ q ∈ (operationFunction names p o).paths, OutTo A q := by
  cases o with
  | get => exact getFunction_paths hmodel
  | getByKey k => exact getByKeyFunction_paths hmodel k
  | post => exact postFunction_paths hmodel hcheck
  | put k => exact putFunction_paths hmodel hcheck k
  | delete k => exact deleteFunction_paths k

end Operations

theorem operationFunction_ended (o : Operation) :
    Stmt.isEndedAll (operationFunction names p o).body = true := by
  cases o with
  | get => rfl
  | getByKey k => obtain ⟨wire, _ | _⟩ := k <;> rfl
  | post => rfl
  | put k => rcases k with _ | ⟨wire, _ | _⟩ <;> rfl
  | delete k => rcases k with _ | ⟨wire, _ | _⟩ <;> rfl

theorem newFunction_paths : ∀ q ∈ newFunction.paths, OutTo A q := by
  simp [newFunction, OutTo, mem_outward]

theorem endpointFunction_paths : ∀ q ∈ endpointFunction.paths, OutTo A q := by
  simp [endpointFunction, OutTo]

section Clients

variable (hclients : ∀ c ∈ p.childTables, names.client c ∉ outward)

include hclients

theorem fromEndpointFunction_paths : ∀ q ∈ (fromEndpointFunction names p).paths, OutTo A q := by
  have hfields : ∀ q ∈ Expr.pathsFields (p.childTables.map (childInit names) ++ [.same "endpoint"]),
      OutTo A q := by
    intro q hq
    obtain ⟨name, e, he, hq⟩ := Expr.mem_pathsFields.mp hq
    obtain ⟨c, hc, hchild⟩ : ∃ c ∈ p.childTables, childInit names c = .value name e := by
      simpa using he
    cases hchild
    obtain rfl | rfl : q = .rel [names.client c, "from_endpoint"] ∨ q = .rel ["endpoint"] := by
      simpa using hq
    · exact .inl (by simpa using hclients c hc)
    · exact .inl rfl
  simpa [fromEndpointFunction, OutTo] using hfields

theorem clientImpl_paths (r : Resource) (hmodel : A (modelPath names p))
    (hcheck : ∀ check : Check, A ((validatorsModule p).child check.name)) :
    ∀ q ∈ (clientImpl r names p).paths, OutTo A q := by
  have hfunctions : ∀ f ∈ (clientImpl r names p).functions, ∀ q ∈ f.paths, OutTo A q := by
    intro f hf
    obtain rfl | rfl | rfl | ⟨o, -, rfl⟩ := by simpa [clientImpl] using hf
    · exact newFunction_paths
    · exact fromEndpointFunction_paths hclients
    · exact endpointFunction_paths
    · exact operationFunction_paths hmodel hcheck o
  rw [ImplItem.paths, List.forall_mem_append, List.forall_mem_append]
  refine ⟨⟨by simp [clientImpl], clientConstants_paths r⟩, fun q hq => ?_⟩
  obtain ⟨f, hf, hq⟩ := List.mem_flatMap.mp hq
  exact hfunctions f hf q hq

omit hclients in
theorem clientImpl_ended (r : Resource) :
    ∀ f ∈ (clientImpl r names p).functions, Stmt.isEndedAll f.body = true := by
  intro f hf
  obtain rfl | rfl | rfl | ⟨o, -, rfl⟩ := by simpa [clientImpl] using hf
  · rfl
  · rfl
  · rfl
  · exact operationFunction_ended o

end Clients

/-! ## Checks -/

theorem validatorConstants_paths : ∀ c ∈ validatorConstants p, ∀ q ∈ c.paths, OutTo A q := by
  have hentries : ∀ q ∈ Expr.pathsAll (p.enumFields.map enumEntry), OutTo A q := by
    intro q hq
    rw [Expr.pathsAll_eq, List.flatMap_map] at hq
    obtain ⟨f, -, hq⟩ := List.mem_flatMap.mp hq
    rw [show q = .rel [valuesConstant f.codeName] by simpa [enumEntry] using hq]
    exact .inl rfl
  have hvalues : ∀ f, ∀ q ∈ (valuesConstantOf f).paths, OutTo A q := by
    simp [valuesConstantOf, OutTo]
  intro c hc
  obtain (rfl | rfl) | ⟨f, -, rfl⟩ | rfl :
      (c = _ ∨ c = _) ∨ (∃ f ∈ p.enumFields, valuesConstantOf f = c) ∨ c = _ := by
    simpa [validatorConstants, or_assoc] using hc
  · simp [OutTo]
  · simp [OutTo]
  · exact hvalues f
  · simpa [OutTo] using hentries

theorem rowCheck_paths {check : Check} {c : PlacedTable} (hcode : c.codeName ∉ outward) :
    ∀ q ∈ (rowCheck check c).paths, OutTo A q := by
  simp [rowCheck, OutTo, hcode]

theorem checkFunction_paths (check : Check) (hcodes : ∀ c ∈ p.childTables, c.codeName ∉ outward) :
    ∀ q ∈ (checkFunction p check).paths, OutTo A q := by
  have hown : ∀ q ∈ (ownChecks check).flatMap Stmt.paths, OutTo A q := by
    cases check <;> simp [ownChecks, validateCall, OutTo]
  have hrows : ∀ q ∈ (p.childTables.map (rowCheck check)).flatMap Stmt.paths, OutTo A q := by
    intro q hq
    obtain ⟨s, hs, hq⟩ := List.mem_flatMap.mp hq
    obtain ⟨c, hc, rfl⟩ := List.mem_map.mp hs
    exact rowCheck_paths (hcodes c hc) q hq
  have hbody : ∀ q ∈ Stmt.pathsAll (checkBody p check), OutTo A q := by
    rw [checkBody_eq, Stmt.pathsAll_eq, List.flatMap_append, List.flatMap_append,
      List.forall_mem_append, List.forall_mem_append]
    exact ⟨⟨hown, hrows⟩, by simp [OutTo]⟩
  simpa [checkFunction, OutTo] using hbody

theorem checkFunction_ended (check : Check) :
    Stmt.isEndedAll (checkFunction p check).body = true := by
  have hparts : ∀ s ∈ ownChecks check ++ p.childTables.map (rowCheck check),
      s.isEnded = true ∧ s.hasEnd = true := by
    rw [List.forall_mem_append, List.forall_mem_map]
    refine ⟨?_, fun c _ => ⟨rfl, rfl⟩⟩
    cases check <;> simp [ownChecks, validateCall, Stmt.run]
  have hbody : Stmt.isEndedAll (checkBody p check) = true := by
    rw [checkBody_eq, Stmt.isEndedAll_append hparts]
    rfl
  exact hbody

/-! ## Tests of the client -/

section Tests

variable {paths : TestPaths}

/-- What the tests of a client refer to. -/
def clientTestPaths (paths : TestPaths) : List Path :=
  [paths.model, paths.client, paths.client.child "new", paths.client.child "PATH",
    paths.client.child "CATEGORY", paths.validators.child "REQUIRED_FIELDS",
    paths.validators.child "validate_create"]

@[simp] theorem paths_methodCall (e : Expr) (name : String) (args : List Expr) :
    (methodCall e name args).paths = e.paths ++ Expr.pathsAll args := rfl

@[simp] theorem paths_invocation (name : String) (args : List Expr) :
    (invocation name args).paths = Expr.pathsAll args := rfl

@[simp] theorem paths_expecting (e : Expr) (message : String) :
    (expecting e message).paths = e.paths := by
  simp [expecting]

@[simp] theorem paths_assertOk : assertOk.paths = [.rel ["result"], .rel ["result"]] := rfl

@[simp] theorem paths_assertEq (e e' : Expr) : (assertEq e e').paths = e.paths ++ e'.paths := by
  simp [assertEq]

def allClientTests (r : Resource) (p : PlacedTable) (paths : TestPaths) : List Function :=
  [clientHelper paths, payloadHelper p paths, retrieveAll p paths, retrieveWithFilter p paths,
    createAndVerify r p paths, minimalPayloadPasses paths]

theorem clientTests_sublist (r : Resource) (p : PlacedTable) (paths : TestPaths) :
    (clientTests r p paths).Sublist (allClientTests r p paths) := by
  unfold clientTests
  cases r.supports .get <;> cases r.supports .post
  · exact List.nil_sublist _
  · exact .cons _ (.cons_cons _ (.cons _ (.cons _ (.cons _ (.cons_cons _ .slnil)))))
  · exact .cons_cons _ (.cons _ (.cons_cons _ (.cons_cons _ (List.nil_sublist _))))
  · exact .cons_cons _ (.cons_cons _ (.cons_cons _ (.cons_cons _ (.cons_cons _ (List.nil_sublist _)))))

theorem sample_paths (s : Sample) : ∀ q ∈ s.expr.paths, OutTo A q := by
  cases s <;> simp [Sample.expr, OutTo, mem_outward]

theorem keySample_paths (f : Field) : (keySample f).argument.paths = [] := by
  unfold keySample
  split <;> simp

section Client

variable (hA : ∀ q ∈ clientTestPaths paths, A q)

include hA

theorem clientHelper_paths : ∀ q ∈ (clientHelper paths).paths, OutTo A q := by
  have hclient : A paths.client := hA _ (by simp [clientTestPaths])
  have hnew : A (paths.client.child "new") := hA _ (by simp [clientTestPaths])
  simp [clientHelper, helperFunction, OutTo, hclient, hnew]

theorem payloadHelper_paths : ∀ q ∈ (payloadHelper p paths).paths, OutTo A q := by
  have hmodel : A paths.model := hA _ (by simp [clientTestPaths])
  have hfields : ∀ q ∈ Expr.pathsFields ((payloadSamples p).map fun s =>
      .value s.1.codeName (callName "Some" [s.2.expr])), OutTo A q := by
    intro q hq
    obtain ⟨name, e, he, hq⟩ := Expr.mem_pathsFields.mp hq
    obtain ⟨s, -, hs⟩ := List.mem_map.mp he
    cases hs
    obtain rfl | hq : q = .rel ["Some"] ∨ q ∈ s.2.expr.paths := by simpa using hq
    · exact .inl rfl
    · exact sample_paths s.2 q hq
  have hdefault : Expr.defaultValue.isLocal = true := by decide
  have hbody : ∀ rest, ∀ q ∈ (helperFunction "minimal_payload" (.named paths.model)
      [.result (.record paths.model ((payloadSamples p).map fun s =>
        .value s.1.codeName (callName "Some" [s.2.expr])) rest)]).paths, OutTo A q := by
    intro rest
    cases rest
    · simpa [helperFunction, OutTo, hmodel] using hfields
    · simpa [helperFunction, OutTo, hmodel, or_imp, forall_and, hdefault] using hfields
  exact hbody _

theorem retrieveAll_paths : ∀ q ∈ (retrieveAll p paths).paths, OutTo A q := by
  have hpath : A (paths.client.child "PATH") := hA _ (by simp [clientTestPaths])
  have hcategory : A (paths.client.child "CATEGORY") := hA _ (by simp [clientTestPaths])
  unfold retrieveAll primeSingleton
  split <;> simp [testFunction, constructPair, respondGet, objectValue, newRecord, newQuery,
    lastRequest, methodPath, OutTo, hpath, hcategory]

theorem retrieveWithFilter_paths : ∀ q ∈ (retrieveWithFilter p paths).paths, OutTo A q := by
  have hpath : A (paths.client.child "PATH") := hA _ (by simp [clientTestPaths])
  unfold retrieveWithFilter primeSingleton
  split <;> simp [testFunction, constructPair, respondGet, objectValue, newRecord, newQuery,
    lastRequest, methodPath, OutTo, hpath, mem_outward]

theorem createAndVerify_paths (r : Resource) :
    ∀ q ∈ (createAndVerify r p paths).paths, OutTo A q := by
  have hpath : A (paths.client.child "PATH") := hA _ (by simp [clientTestPaths])
  have hrequired : A (paths.validators.child "REQUIRED_FIELDS") := hA _ (by simp [clientTestPaths])
  unfold createAndVerify
  split
  · rename_i f
    unfold readBackByKey
    split <;> simp [testFunction, constructPair, sentBody, checkRequired, respondGet, objectValue,
      keyPathOf, newQuery, lastRequest, methodPath, keySample_paths, OutTo, hrequired]
  · unfold readBackSingle
    split <;> simp [testFunction, constructPair, sentBody, checkRequired, respondGet, objectValue,
      newQuery, methodPath, OutTo, hrequired, hpath]

theorem minimalPayloadPasses_paths : ∀ q ∈ (minimalPayloadPasses paths).paths, OutTo A q := by
  have hcreate : A (paths.validators.child "validate_create") := hA _ (by simp [clientTestPaths])
  simp [minimalPayloadPasses, testFunction, OutTo, hcreate]

theorem clientTest_paths (r : Resource) :
    ∀ f ∈ clientTests r p paths, ∀ q ∈ f.paths, OutTo A q := by
  have hall : ∀ f ∈ allClientTests r p paths, ∀ q ∈ f.paths, OutTo A q := by
    simp only [allClientTests, List.forall_mem_cons]
    exact ⟨clientHelper_paths hA, payloadHelper_paths hA, retrieveAll_paths hA,
      retrieveWithFilter_paths hA, createAndVerify_paths hA r, minimalPayloadPasses_paths hA,
      by simp⟩
  exact fun f hf => hall f ((clientTests_sublist r p paths).subset hf)

end Client

theorem clientTest_ended (r : Resource) :
    ∀ f ∈ clientTests r p paths, Stmt.isEndedAll f.body = true := by
  have hall : ∀ f ∈ allClientTests r p paths, Stmt.isEndedAll f.body = true := by
    simp only [allClientTests, List.forall_mem_cons]
    refine ⟨rfl, rfl, ?_, ?_, ?_, rfl, by simp⟩
    · unfold retrieveAll primeSingleton
      split <;> rfl
    · unfold retrieveWithFilter primeSingleton
      split <;> rfl
    · unfold createAndVerify readBackByKey readBackSingle
      split <;> split <;> rfl
  exact fun f hf => hall f ((clientTests_sublist r p paths).subset hf)

/-! ## Tests of the checks -/

/-- What the tests of the checks of a table refer to. -/
def tableTestPaths (validators : Path) (p : PlacedTable) : List Path :=
  [validators.child "validate_create", validators.child "validate_update",
    validators.child "REQUIRED_FIELDS"]
  ++ p.enumFields.map fun f => validators.child (valuesConstant f.codeName)

theorem mem_tableTests {validators : Path} {f : Function} (h : f ∈ tableTests validators p) :
    f = updateAcceptsEmpty validators ∨ f = createRejectsEmpty validators
      ∨ ∃ e ∈ p.enumFields, f = acceptsDeclared validators e ∨ f = rejectsUndeclared validators e := by
  simp only [tableTests, List.mem_append, List.mem_flatMap, List.mem_cons,
    List.not_mem_nil, or_false] at h
  obtain (h | h) | h := h
  · exact .inl h
  · split at h
    · cases h
    · exact .inr (.inl (List.mem_singleton.mp h))
  · exact .inr (.inr h)

theorem tableTest_paths {validators : Path} (hA : ∀ q ∈ tableTestPaths validators p, A q) :
    ∀ f ∈ tableTests validators p, ∀ q ∈ f.paths, OutTo A q := by
  have hcreate : A (validators.child "validate_create") := hA _ (by simp [tableTestPaths])
  have hupdate : A (validators.child "validate_update") := hA _ (by simp [tableTestPaths])
  have hrequired : A (validators.child "REQUIRED_FIELDS") := hA _ (by simp [tableTestPaths])
  intro f hf
  obtain rfl | rfl | ⟨e, he, rfl | rfl⟩ := mem_tableTests hf
  · simp [updateAcceptsEmpty, testFunction, newRecord, OutTo, hupdate]
  · simp [createRejectsEmpty, testFunction, expectError, newRecord, OutTo, hcreate, hrequired]
  · have hvalues : A (validators.child (valuesConstant e.codeName)) :=
      hA _ (List.mem_append_right _ (List.mem_map_of_mem he))
    simp [acceptsDeclared, testFunction, mutableRecord, newRecord, insertValue, validateUpdate, OutTo,
      hupdate, hvalues]
  · simp [rejectsUndeclared, testFunction, expectError, mutableRecord, newRecord, insertValue,
      validateUpdate, OutTo, hupdate]

theorem tableTest_ended {validators : Path} :
    ∀ f ∈ tableTests validators p, Stmt.isEndedAll f.body = true := by
  intro f hf
  obtain rfl | rfl | ⟨e, -, rfl | rfl⟩ := mem_tableTests hf <;> rfl

end Tests

end Items

end RestForge.Emit
