import RestForge.Proofs.DistinctNames

/-!
# References between the files of a resource

The four files of a resource are generated one by one from the same tables. Whatever path leads out of
one of them leads to an item of another.

* `LeadsTo`: a path names an item of a file, in the modules that lie around it there.
* `FromClient`, `FromTests`: where the paths of a table lead, from the file of clients and from the
  tests.
* `LeadsFrom`: where a path may lead from an item of a file.
* `item_sealed`, `file_sealed`: in the tokens of an item and in those of a file, every path does.
* `references_resolved`: so it is for every resource that was read and named in a run, and no two
  things of one kind share a name.
-/

set_option autoImplicit false

namespace RestForge.Emit

open Source Naming Schema

/-! ## Where a path leads -/

/-- The path goes from a module to an item of a file of the resource. -/
structure LeadsTo (files : ArtifactKind → File) (base path : List String) (k : ArtifactKind)
    (mods : List String) (i : Item) : Prop where
  names : ∃ kind name, i.name? = some (kind, name) ∧ path = base ++ k.moduleName :: mods ++ [name]
  defined : (mods, i) ∈ (files k).located

/-- The model of the table itself, or one of its checks. -/
inductive FromClient (names : TypeNames) (files : ArtifactKind → File) (p : PlacedTable)
    (path : List String) : Prop where
  | model (leads : LeadsTo files ["super"] path .model [] (.struct (modelStruct names p)))
  | check (check : Check)
    (leads : LeadsTo files ["super"] path .validators p.chain (.function (checkFunction p check)))

/-- The names of constants and functions. -/
def members (i : ImplItem) : List String :=
  i.constants.map Constant.name ++ i.functions.map Function.name

/-- The types of the root, what belongs to its client, or a check or a constant of the table itself. -/
inductive FromTests (r : Resource) (names : TypeNames) (files : ArtifactKind → File) (p : PlacedTable)
    (path : List String) : Prop where
  | model (leads : LeadsTo files (resourceModule r).names path .model []
      (.struct (modelStruct names (.ofResource r))))
  | client (leads : LeadsTo files (resourceModule r).names path .client []
      (.struct (clientStruct names (.ofResource r))))
  | member (type : List String) (name : String) (split : path = type ++ [name])
    (leads : LeadsTo files (resourceModule r).names type .client []
      (.struct (clientStruct names (.ofResource r))))
    (implemented : ([], .impl (clientImpl r names (.ofResource r))) ∈ (files .client).located)
    (mem : name ∈ members (clientImpl r names (.ofResource r)))
  | check (check : Check) (leads : LeadsTo files (resourceModule r).names path .validators p.chain
      (.function (checkFunction p check)))
  | constant (c : Constant) (mem : c ∈ validatorConstants p)
    (leads : LeadsTo files (resourceModule r).names path .validators p.chain (.constant c))

/-- The items of a client belong to its table, the tests in a module to the table of this chain. -/
def LeadsFrom (r : Resource) (names : TypeNames) (files : ArtifactKind → File) (k : ArtifactKind)
    (e : List String × Item) (path : List String) : Prop :=
  match k with
  | .client => ∃ p ∈ r.tables,
    (e.2 = .struct (clientStruct names p) ∨ e.2 = .impl (clientImpl r names p))
      ∧ FromClient names files p path
  | .tests => ∃ p ∈ r.tables, e.1 = p.chain ∧ FromTests r names files p path
  | .model => False
  | .validators => False

/-! ## Items of the files -/

theorem isModule_typeItems {S : PlacedTable → StructItem} {I : PlacedTable → ImplItem}
    {tables : List PlacedTable} : ∀ i ∈ typeItems S I tables, i.isModule = false := by
  intro i hi
  obtain ⟨p, -, rfl | rfl⟩ := mem_typeItems.mp hi <;> rfl

theorem isModule_functions (fs : List Function) :
    ∀ i ∈ fs.map Item.function, i.isModule = false := by
  simp [Item.isModule]

theorem isModule_checkItems (p : PlacedTable) : ∀ i ∈ checkItems p, i.isModule = false := by
  rw [checkItems, List.forall_mem_append]
  exact ⟨by simp [Item.isModule], isModule_functions _⟩

section Files

variable (r : Resource) (names : TypeNames)

theorem located_model : (modelFile r names).located
    = (typeItems (modelStruct names) (modelImpl names) r.tables).map fun i => ([], i) :=
  Item.locatedAll_of_no_module isModule_typeItems []

theorem located_client : (clientFile r names).located
    = (typeItems (clientStruct names) (clientImpl r names) r.tables).map fun i => ([], i) :=
  Item.locatedAll_of_no_module isModule_typeItems []

theorem located_validators : (validatorsFile r).located
    = r.tables.flatMap fun q => (checkItems q).map fun i => (q.chain, i) :=
  validatorItems_nests.located_eq isModule_checkItems (.ofResource r)

theorem located_tests : (testsFile r names).located
    = (clientTests r (.ofResource r) (testPaths r names)).map (fun f => ([], .function f))
      ++ r.tables.flatMap fun q => ((tableTestsOf (testPaths r names).validators q).map .function).map
        fun i => (q.chain, i) := by
  have hclient := Item.locatedAll_of_no_module
    (isModule_functions (clientTests r (.ofResource r) (testPaths r names))) []
  have htables := (validatorTests_nests (testPaths r names).validators).located_eq
    (fun _ => isModule_functions _) (.ofResource r)
  rw [File.located, testsFile, Item.locatedAll_append, hclient, List.map_map]
  exact congrArg _ htables

variable {r names} {p : PlacedTable} (hp : p ∈ r.tables)

include hp

theorem model_located : ([], .struct (modelStruct names p)) ∈ (modelFile r names).located := by
  rw [located_model]
  exact List.mem_map_of_mem (mem_typeItems.mpr ⟨p, hp, .inl rfl⟩)

theorem client_located : ([], .struct (clientStruct names p)) ∈ (clientFile r names).located := by
  rw [located_client]
  exact List.mem_map_of_mem (mem_typeItems.mpr ⟨p, hp, .inl rfl⟩)

theorem clientImpl_located : ([], .impl (clientImpl r names p)) ∈ (clientFile r names).located := by
  rw [located_client]
  exact List.mem_map_of_mem (mem_typeItems.mpr ⟨p, hp, .inr rfl⟩)

theorem checkItem_located {i : Item} (hi : i ∈ checkItems p) :
    (p.chain, i) ∈ (validatorsFile r).located := by
  rw [located_validators]
  exact List.mem_flatMap.mpr ⟨p, hp, List.mem_map_of_mem hi⟩

theorem check_located (check : Check) :
    (p.chain, .function (checkFunction p check)) ∈ (validatorsFile r).located := by
  refine checkItem_located hp (List.mem_append_right _ ?_)
  cases check <;> simp [checkFunctions]

theorem constant_located {c : Constant} (hc : c ∈ validatorConstants p) :
    (p.chain, .constant c) ∈ (validatorsFile r).located :=
  checkItem_located hp (List.mem_append_left _ (List.mem_map_of_mem hc))

/-! ## Where the paths of a table lead -/

theorem fromClient_model : FromClient names (tree r names) p (modelPath names p).names :=
  .model ⟨⟨_, _, rfl, rfl⟩, model_located hp⟩

theorem fromClient_check (check : Check) :
    FromClient names (tree r names) p ((validatorsModule p).child check.name).names :=
  .check check ⟨⟨_, _, rfl, rfl⟩, check_located hp check⟩

theorem fromTests_check (check : Check) : FromTests r names (tree r names) p
    ((resourceModule r).names ++ "validators" :: p.chain ++ [check.name]) :=
  .check check ⟨⟨_, _, rfl, rfl⟩, check_located hp check⟩

theorem fromTests_constant {c : Constant} (hc : c ∈ validatorConstants p) :
    FromTests r names (tree r names) p
      ((resourceModule r).names ++ "validators" :: p.chain ++ [c.name]) :=
  .constant c hc ⟨⟨_, _, rfl, rfl⟩, constant_located hp hc⟩

theorem fromTests_required : FromTests r names (tree r names) p
    ((resourceModule r).names ++ "validators" :: p.chain ++ ["REQUIRED_FIELDS"]) := by
  obtain ⟨c, hc, hname⟩ : ∃ c ∈ validatorConstants p, c.name = "REQUIRED_FIELDS" :=
    ⟨_, List.mem_append_left _ (List.mem_append_left _ (List.mem_cons_of_mem _ List.mem_cons_self)),
      rfl⟩
  rw [← hname]
  exact fromTests_constant hp hc

/-- What the tests of the checks of a table refer to. -/
theorem fromTests_table : ∀ q ∈ tableTestPaths { (testPaths r names).validators with
      names := (testPaths r names).validators.names ++ p.chain } p,
    FromTests r names (tree r names) p q.names := by
  have hvalidators : ∀ name, (Path.child { (testPaths r names).validators with
      names := (testPaths r names).validators.names ++ p.chain } name).names
        = (resourceModule r).names ++ "validators" :: p.chain ++ [name] := by
    intro name
    simp [testPaths, Path.child]
  simp only [tableTestPaths, List.forall_mem_append, List.forall_mem_cons, List.forall_mem_map,
    hvalidators]
  refine ⟨⟨fromTests_check hp .create, fromTests_check hp .update, fromTests_required hp, by simp⟩,
    fun f hf => ?_⟩
  refine fromTests_constant hp (c := valuesConstantOf f) ?_
  exact List.mem_append_left _ (List.mem_append_right _ (List.mem_map_of_mem hf))

end Files

section Ready

variable {r : Resource} {names : TypeNames} (h : Ready r names)

include h

/-- What the tests of the client of the root refer to. -/
theorem fromTests_client : ∀ q ∈ clientTestPaths (testPaths r names),
    FromTests r names (tree r names) (.ofResource r) q.names := by
  have hroot := ofResource_mem_tables r
  have hmodel : LeadsTo (tree r names) (resourceModule r).names (testPaths r names).model.names
      .model [] (.struct (modelStruct names (.ofResource r))) := by
    refine ⟨⟨_, _, rfl, ?_⟩, model_located hroot⟩
    rw [testPaths, h.rootModel]
    rfl
  have hclient : LeadsTo (tree r names) (resourceModule r).names (testPaths r names).client.names
      .client [] (.struct (clientStruct names (.ofResource r))) := by
    refine ⟨⟨_, _, rfl, ?_⟩, client_located hroot⟩
    rw [testPaths, h.rootClient]
    rfl
  have hmember : ∀ name ∈ members (clientImpl r names (.ofResource r)),
      FromTests r names (tree r names) (.ofResource r) ((testPaths r names).client.child name).names :=
    fun name hname => .member _ name rfl hclient (clientImpl_located hroot) hname
  simp only [clientTestPaths, List.forall_mem_cons]
  refine ⟨.model hmodel, .client hclient, hmember _ ?_, hmember _ ?_, hmember _ ?_,
    fromTests_required hroot, fromTests_check hroot .create, by simp⟩
  · exact List.mem_append_right _ List.mem_cons_self
  · exact List.mem_append_left _ (List.mem_cons_of_mem _ List.mem_cons_self)
  · exact List.mem_append_left _ List.mem_cons_self

/-! ## The tokens of the files -/

/-- The paths of an item that lead out lead to items of the other files. -/
theorem item_sealed (k : ArtifactKind) : ∀ e ∈ (tree r names k).located,
    Sealed (OutTo fun q => LeadsFrom r names (tree r names) k e q.names) e.2.tokens := by
  have hnamed := PlacedTable.isNamed_of_mem_walk h.named
  intro e he
  cases k with
  | model =>
    rw [tree, located_model] at he
    obtain ⟨i, hi, rfl⟩ := List.mem_map.mp he
    obtain ⟨p, -, rfl | rfl⟩ := mem_typeItems.mp hi
    · exact StructItem.sealed modelStruct_paths
    · exact ImplItem.sealed (by simp [modelImpl]) modelImpl_paths
  | client =>
    rw [tree, located_client] at he
    obtain ⟨i, hi, rfl⟩ := List.mem_map.mp he
    obtain ⟨p, hp, rfl | rfl⟩ := mem_typeItems.mp hi
    · exact StructItem.sealed clientStruct_paths
    · refine ImplItem.sealed (clientImpl_ended r)
        (clientImpl_paths (fun c hc => ?_) r ?_ fun check => ?_)
      · exact h.local_clients c (PlacedTable.mem_walk_of_mem_childTables hp hc)
      · exact ⟨p, hp, .inr rfl, fromClient_model hp⟩
      · exact ⟨p, hp, .inr rfl, fromClient_check hp check⟩
  | validators =>
    rw [tree, located_validators] at he
    obtain ⟨p, hp, hmem⟩ := List.mem_flatMap.mp he
    obtain ⟨i, hi, rfl⟩ := List.mem_map.mp hmem
    obtain hi | hi := List.mem_append.mp hi
    · obtain ⟨c, hc, rfl⟩ := List.mem_map.mp hi
      exact Constant.sealed (validatorConstants_paths c hc)
    · obtain ⟨f, hf, rfl⟩ := List.mem_map.mp hi
      obtain ⟨check, rfl⟩ : ∃ check, f = checkFunction p check := by
        obtain rfl | rfl := by simpa [checkFunctions] using hf
        · exact ⟨_, rfl⟩
        · exact ⟨_, rfl⟩
      refine Function.sealed (checkFunction_ended check) (checkFunction_paths check fun c hc hmem => ?_)
      -- keywords lead out, and code names are none
      have hkeywords : ∀ w ∈ outward, w ∈ keywords := by decide
      obtain ⟨wire, hwire⟩ := (hnamed p hp).child_codeName hc
      rw [hwire] at hmem
      exact (codeName_identifier .fields wire).free (hkeywords _ hmem)
  | tests =>
    rw [tree, located_tests] at he
    obtain he | he := List.mem_append.mp he
    · obtain ⟨f, hf, rfl⟩ := List.mem_map.mp he
      refine Function.sealed (clientTest_ended r f hf) (clientTest_paths (fun q hq => ?_) r f hf)
      exact ⟨_, ofResource_mem_tables r, rfl, fromTests_client h q hq⟩
    · obtain ⟨p, hp, hmem⟩ := List.mem_flatMap.mp he
      obtain ⟨i, hi, rfl⟩ := List.mem_map.mp hmem
      obtain ⟨f, hf, rfl⟩ := List.mem_map.mp hi
      refine Function.sealed (tableTest_ended f hf) (tableTest_paths (fun q hq => ?_) f hf)
      exact ⟨p, hp, rfl, fromTests_table hp q hq⟩

theorem file_sealed (k : ArtifactKind) :
    Sealed (OutTo fun q => ∃ e ∈ (tree r names k).located, LeadsFrom r names (tree r names) k e q.names)
      (tree r names k).tokens := by
  have hitem : ∀ e ∈ (tree r names k).located, Sealed (OutTo fun q =>
      ∃ e ∈ (tree r names k).located, LeadsFrom r names (tree r names) k e q.names) e.2.tokens :=
    fun e he => (item_sealed h k e he).mono fun q hq => hq.imp_right fun hleads => ⟨e, he, hleads⟩
  refine (sealed_innerDocs _).append ?_
  cases k with
  | model =>
    rw [Item.tokensAll_eq]
    refine .flatMap fun i hi => hitem ([], i) ?_
    rw [tree, located_model]
    exact List.mem_map_of_mem hi
  | client =>
    rw [Item.tokensAll_eq]
    refine .flatMap fun i hi => hitem ([], i) ?_
    rw [tree, located_client]
    exact List.mem_map_of_mem hi
  | validators =>
    refine validatorItems_nests.sealed (by simp) _ fun q hq i hi => hitem (q.chain, i) ?_
    exact checkItem_located hq hi
  | tests =>
    have hclient : ∀ i ∈ (clientTests r (.ofResource r) (testPaths r names)).map Item.function,
        ([], i) ∈ (testsFile r names).located := by
      intro i hi
      obtain ⟨f, hf, rfl⟩ := List.mem_map.mp hi
      rw [located_tests]
      exact List.mem_append_left _ (List.mem_map_of_mem hf)
    have htable := (validatorTests_nests (testPaths r names).validators).sealed (by simp)
      (.ofResource r) fun q hq i hi => hitem (q.chain, i) (by
        rw [tree, located_tests]
        exact List.mem_append_right _ (List.mem_flatMap.mpr ⟨q, hq, List.mem_map_of_mem hi⟩))
    rw [Item.tokensAll_eq] at htable ⊢
    rw [tree, testsFile, List.flatMap_append]
    exact (Sealed.flatMap fun i hi => hitem ([], i) (hclient i hi)).append htable

end Ready

/-! ## Runs -/

/-- What holds of the four files of a resource. -/
structure Referring (r : Resource) (names : TypeNames) (files : ArtifactKind → File) : Prop where
  /-- The paths of an item lead to the items that belong to the table of the item. -/
  leads : ∀ k, ∀ e ∈ (files k).located, ∀ path ∈ outPaths e.2.tokens,
    LeadsFrom r names files k e path
  /-- All paths of a file are those of its items. -/
  everywhere : ∀ k, ∀ path ∈ outPaths (files k).tokens,
    ∃ e ∈ (files k).located, LeadsFrom r names files k e path
  /-- Besides its endpoint, a client has clients of the same file. -/
  nested : ∀ s, ([], .struct s) ∈ (files .client).located → ∀ f ∈ s.fields, f.name = "endpoint"
    ∨ ∃ t, ([], .struct t) ∈ (files .client).located ∧ f.type = .named (.rel [t.name])
  apart : ∀ k, Apart (files k).items

theorem nested_client {r : Resource} {names : TypeNames} {s : StructItem}
    (hs : ([], .struct s) ∈ (clientFile r names).located) : ∀ f ∈ s.fields, f.name = "endpoint"
      ∨ ∃ t, ([], .struct t) ∈ (clientFile r names).located ∧ f.type = .named (.rel [t.name]) := by
  rw [located_client] at hs
  obtain ⟨i, hi, he⟩ := List.mem_map.mp hs
  obtain ⟨p, hp, rfl | rfl⟩ := mem_typeItems.mp hi
  · cases he
    rw [clientStruct, List.forall_mem_cons, List.forall_mem_map]
    refine ⟨.inl rfl, fun c hc => .inr ⟨clientStruct names c, ?_, rfl⟩⟩
    exact client_located (PlacedTable.mem_walk_of_mem_childTables hp hc)
  · cases he

theorem source_ok {r : Resource} {names : TypeNames} {k : ArtifactKind} {file : File}
    (h : source r names k = .ok file) : file = tree r names k := by
  obtain ⟨-, -, hpure⟩ := except_bind_ok h
  cases hpure
  rfl

theorem leads_of_outTo {A : Path → Prop} {ts : List Token} (h : Sealed (OutTo A) ts)
    {path : List String} (hpath : path ∈ outPaths ts) : A (.rel path) := by
  refine (h.within.all hpath).resolve_left fun hlocal => ?_
  rw [isLocal_of_mem_outPaths hpath] at hlocal
  cases hlocal

/-- **The files of a resource refer to each other's items only.** Take a resource that was read, and the
type names it was given in the run, and its four files, if they can be generated. Every path that leads
out of the file of clients names the model of the same table, or a check of the same table in the
modules that lead to it; every path that leads out of the tests names the root types, something that
belongs to the root client, or a check or a constant of the table that is tested. The types of nested
clients are in the file of clients. No two things of one kind share a name in the files, their modules,
structs and implementations. -/
theorem references_resolved {steps : List NamingStep} {r : Resource} {names : TypeNames}
    (hread : r ∈ resourcesRead steps) (hresolved : Run.ResolvedIn steps (r, names))
    {files : ArtifactKind → File} (hfiles : ∀ k, source r names k = .ok (files k)) :
    Referring r names files := by
  have hready := ready_of_run hread hresolved
  obtain rfl : files = tree r names := funext fun k => source_ok (hfiles k)
  refine ⟨fun k e he path hpath => leads_of_outTo (item_sealed hready k e he) hpath,
    fun k path hpath => leads_of_outTo (file_sealed hready k) hpath, fun s hs => nested_client hs,
    fun k => ?_⟩
  cases k with
  | model => exact apart_model hready
  | client => exact apart_client hready
  | validators => exact apart_validators hready.named
  | tests => exact apart_tests hready.named names

/-! ## A resource with a table in it -/

def rowsSteps : List NamingStep := [.read 4 rowsDocument, .resolve rowsResource]

def rowsNames : TypeNames := ⟨[("", ⟨"X", "XClient"⟩), ("rows", ⟨"XRows", "XRowsClient"⟩)]⟩

theorem walk_rowsResource : Walk.ofResource rowsResource
    = .ask ⟨"model:", "X"⟩ fun model => .ask ⟨"client:", "XClient"⟩ fun client =>
      .ask ⟨"model:rows", "XRows"⟩ fun below => .ask ⟨"client:rows", "XRowsClient"⟩ fun inner =>
      .done ⟨[("", ⟨model, client⟩), ("rows", ⟨below, inner⟩)]⟩ := rfl

theorem rowsResource_named : (resolve rowsResource .empty).1 = .ok rowsNames := by
  have hdotted : rowsResource.dottedPath = "config.x" := by decide
  rw [← Walk.run_ofResource, walk_rowsResource, hdotted]
  simp only [Walk.run, bind_apply, register, NameTable.record, ← NameTable.add.eq_1,
    NameTable.codeName?_empty, NameTable.wireName?_empty, NameTable.codeName?_add,
    NameTable.wireName?_add, Scope.types, String.reduceEq, and_false, ↓reduceIte]
  rfl

theorem rowsResource_resolved : Run.ResolvedIn rowsSteps (rowsResource, rowsNames) := by
  have hfresh : SameIn (Scope.types rowsResource.dottedPath) .empty
      (tableFrom .empty [.read 4 rowsDocument]) :=
    (program_readResource 4 rowsDocument).sameTypes .empty _ rfl
  exact ⟨[.read 4 rowsDocument], [], rfl, (resolve_sameIn hfresh).symm.trans rowsResource_named⟩

/-- The client of the root and that of the rows each refer to their own model and check. -/
theorem references_resolved_rows :
    rowsResource ∈ resourcesRead rowsSteps ∧ Run.ResolvedIn rowsSteps (rowsResource, rowsNames)
      ∧ (∀ k, source rowsResource rowsNames k = .ok (tree rowsResource rowsNames k))
      ∧ outPaths (clientFile rowsResource rowsNames).tokens
        = [["super", "model", "X"], ["super", "validators", "validate_create"],
          ["super", "model", "XRows"], ["super", "validators", "rows", "validate_create"]]
      ∧ Referring rowsResource rowsNames (tree rowsResource rowsNames) := by
  have hread : rowsResource ∈ resourcesRead rowsSteps :=
    mem_resourcesFrom_append rowsResource_read [.resolve rowsResource]
  have hsource : ∀ k, source rowsResource rowsNames k = .ok (tree rowsResource rowsNames k) := by
    intro k
    cases k <;> rfl
  exact ⟨hread, rowsResource_resolved, hsource, by decide +kernel,
    references_resolved hread rowsResource_resolved hsource⟩

end RestForge.Emit
