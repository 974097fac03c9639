import RestForge.Proofs.FunctionPaths
import RestForge.Proofs.NestedItems
import RestForge.Proofs.ResourceNames

/-!
# Names in the files of a resource

* `Ready`: what a run makes sure of before the files of a resource are generated; `ready_of_run`.
* `apart_model`, `apart_client`, `apart_validators`, `apart_tests`: in none of the four files do two
  things of one kind share a name.
-/

set_option autoImplicit false

namespace RestForge.Emit

open Source Naming Schema

/-! ## Resources ready to be generated -/

/-- The names of a resource and of its types, as a run leaves them. -/
structure Ready (r : Resource) (names : TypeNames) : Prop where
  named : (PlacedTable.ofResource r).IsNamed
  methods : r.methods.Nodup
  models : (r.tables.map names.model).Nodup
  clients : (r.tables.map names.client).Nodup
  local_clients : ∀ p ∈ r.tables, names.client p ∉ outward
  rootModel : names.rootModel = names.model (.ofResource r)
  rootClient : names.rootClient = names.client (.ofResource r)

theorem ready_of_run {steps : List NamingStep} {r : Resource} {names : TypeNames}
    (hread : r ∈ resourcesRead steps) (hresolved : Run.ResolvedIn steps (r, names)) :
    Ready r names := by
  obtain ⟨before, after, -, hok⟩ := hresolved
  have hnames : resolve r (tableFrom .empty before) = (.ok names, _) := Prod.ext hok rfl
  obtain ⟨hmodels, hclients⟩ := Run.nodup_types hread hnames
  have hroot := rootPair_of_resolve (sound_tableFrom_empty before) hnames
  refine ⟨PlacedTable.isNamed_ofResource hread, Run.nodup_methods hread, hmodels, hclients,
    fun p hp hmem => ?_, ?_, ?_⟩
  · have hends := Run.client_ends hnames hp
    obtain he | he := mem_outward.mp hmem <;> rw [he] at hends
    · exact absurd hends (by decide)
    · exact absurd hends (by decide)
  · rw [TypeNames.rootModel, hroot]
  · rw [TypeNames.rootClient, hroot]

/-! ## Types and their implementations -/

/-- The items of a file that has a type and its implementation for each table. -/
def typeItems (S : PlacedTable → StructItem) (I : PlacedTable → ImplItem) (tables : List PlacedTable) :
    List Item :=
  tables.flatMap fun p => [.struct (S p), .impl (I p)]

theorem mem_typeItems {S : PlacedTable → StructItem} {I : PlacedTable → ImplItem}
    {tables : List PlacedTable} {i : Item} :
    i ∈ typeItems S I tables ↔ ∃ p ∈ tables, i = .struct (S p) ∨ i = .impl (I p) := by
  simp [typeItems]

theorem apart_typeItems {S : PlacedTable → StructItem} {I : PlacedTable → ImplItem}
    {tables : List PlacedTable} (hnames : (tables.map fun p => (S p).name).Nodup)
    (hfields : ∀ p ∈ tables, ((S p).fields.map StructField.name).Nodup)
    (hconstants : ∀ p ∈ tables, ((I p).constants.map Constant.name).Nodup)
    (hfunctions : ∀ p ∈ tables, ((I p).functions.map Function.name).Nodup) :
    Apart (typeItems S I tables) := by
  constructor
  · have hkinds : (typeItems S I tables).filterMap Item.name?
        = (tables.map fun p => (S p).name).map (Prod.mk ItemKind.struct) := by
      rw [typeItems, List.filterMap_flatMap, List.map_map, List.map_eq_flatMap]
      rfl
    rw [hkinds]
    exact hnames.map (Prod.mk_right_injective _)
  · intro s hs
    obtain ⟨p, hp, he | he⟩ := mem_typeItems.mp hs <;> cases he
    exact hfields p hp
  · intro i hi
    obtain ⟨p, hp, he | he⟩ := mem_typeItems.mp hi <;> cases he
    exact hconstants p hp
  · intro i hi
    obtain ⟨p, hp, he | he⟩ := mem_typeItems.mp hi <;> cases he
    exact hfunctions p hp
  · intro attrs isPublic name below hbelow
    obtain ⟨p, -, he | he⟩ := mem_typeItems.mp hbelow <;> cases he

/-! ## Operations -/

namespace Operation

def name : Operation → String
  | get => "get"
  | getByKey _ => "get_by_key"
  | post => "post"
  | put _ => "put"
  | delete _ => "delete"

/-- The method that brings the operation. -/
def method : Operation → Method
  | get => .get
  | getByKey _ => .get
  | post => .post
  | put _ => .put
  | delete _ => .delete

theorem method_of_name {o o' : Operation} (h : o.name = o'.name) : o.method = o'.method := by
  cases o <;> cases o' <;> first | rfl | exact absurd h (by simp [name])

theorem name_operationFunction (names : TypeNames) (p : PlacedTable) (o : Operation) :
    (operationFunction names p o).name = o.name := by
  cases o <;> rfl

theorem name_ne {o : Operation} : o.name ∉ ["new", "from_endpoint", "endpoint"] := by
  cases o <;> simp [name]

theorem method_of_mem {p : PlacedTable} {m : Method} {o : Operation} (h : o ∈ operationsOf p m) :
    o.method = m := by
  cases m with
  | get =>
    obtain rfl | ⟨k, -, rfl⟩ := by simpa [operationsOf] using h
    · rfl
    · rfl
  | post => rw [List.mem_singleton.mp h]; rfl
  | put => rw [List.mem_singleton.mp h]; rfl
  | delete => rw [List.mem_singleton.mp h]; rfl

theorem nodup_operationsOf (p : PlacedTable) (m : Method) : ((operationsOf p m).map name).Nodup := by
  cases m with
  | get => cases hk : Key.of? p <;> simp [operationsOf, hk, name]
  | post => exact List.nodup_singleton _
  | put => exact List.nodup_singleton _
  | delete => exact List.nodup_singleton _

end Operation

/-- Methods that differ bring operations of different names. -/
theorem nodup_operations {r : Resource} (hr : r.methods.Nodup) (p : PlacedTable) :
    ((operations r p).map Operation.name).Nodup := by
  rw [operations, List.map_flatMap, List.nodup_flatMap]
  refine ⟨fun m _ => Operation.nodup_operationsOf p m, hr.imp fun {m m'} hne name hm hm' => hne ?_⟩
  obtain ⟨o, ho, rfl⟩ := List.mem_map.mp hm
  obtain ⟨o', ho', he⟩ := List.mem_map.mp hm'
  rw [← Operation.method_of_mem ho, ← Operation.method_of_mem ho', Operation.method_of_name he]

/-! ## Constants and functions -/

theorem names_functions (fs : List Function) :
    (fs.map Item.function).filterMap Item.name? = (fs.map Function.name).map (Prod.mk .function) := by
  rw [List.filterMap_map, List.map_map, ← List.filterMap_eq_map]
  rfl

theorem names_constants (cs : List Constant) :
    (cs.map Item.constant).filterMap Item.name? = (cs.map Constant.name).map (Prod.mk .constant) := by
  rw [List.filterMap_map, List.map_map, ← List.filterMap_eq_map]
  rfl

theorem apart_functions {fs : List Function} (hfs : (fs.map Function.name).Nodup) :
    Apart (fs.map .function) := by
  constructor
  · rw [names_functions]
    exact hfs.map (Prod.mk_right_injective _)
  all_goals simp

theorem apart_constants {cs : List Constant} (hcs : (cs.map Constant.name).Nodup) :
    Apart (cs.map .constant) := by
  constructor
  · rw [names_constants]
    exact hcs.map (Prod.mk_right_injective _)
  all_goals simp

section Ready

variable {r : Resource} {names : TypeNames} (h : Ready r names)

include h

/-! ## Models -/

theorem apart_model : Apart (modelFile r names).items := by
  have hnamed := PlacedTable.isNamed_of_mem_walk h.named
  refine apart_typeItems (S := modelStruct names) (I := modelImpl names) h.models (fun p hp => ?_)
    (fun p hp => by simp [modelImpl]) (fun p hp => by simp [modelImpl])
  have hcodes : (modelStruct names p).fields.map StructField.name = p.fields.map Field.codeName := by
    rw [modelStruct, List.map_map]
    rfl
  rw [hcodes]
  exact (hnamed p hp).here.codes

/-! ## Clients -/

theorem nodup_clientFields {p : PlacedTable} (hp : p ∈ r.tables) :
    ((clientStruct names p).fields.map StructField.name).Nodup := by
  have hnamed := PlacedTable.isNamed_of_mem_walk h.named p hp
  have hnames : (clientStruct names p).fields.map StructField.name
      = "endpoint" :: p.childTables.map PlacedTable.codeName := by
    rw [clientStruct, List.map_cons, List.map_map]
    rfl
  rw [hnames, List.nodup_cons]
  refine ⟨fun hmem => ?_, hnamed.child_codes⟩
  -- the name is reserved, and the code name of a table is that of a field
  obtain ⟨c, hc, hcode⟩ := List.mem_map.mp hmem
  obtain ⟨wire, hwire⟩ := hnamed.child_codeName hc
  refine identifier_notMem_reserved .fields wire ?_
  rw [← hwire, hcode]
  exact List.mem_cons_self

theorem nodup_clientFunctions (p : PlacedTable) :
    ((clientImpl r names p).functions.map Function.name).Nodup := by
  have hnames : (clientImpl r names p).functions.map Function.name
      = ["new", "from_endpoint", "endpoint"] ++ (operations r p).map Operation.name := by
    rw [clientImpl, List.map_append, List.map_map]
    congr 1
    exact List.map_congr_left fun o _ => Operation.name_operationFunction names p o
  rw [hnames, List.nodup_append]
  refine ⟨by decide, nodup_operations h.methods p, ?_⟩
  rintro a ha b hb rfl
  obtain ⟨o, -, rfl⟩ := List.mem_map.mp hb
  exact Operation.name_ne ha

theorem apart_client : Apart (clientFile r names).items := by
  refine apart_typeItems (S := clientStruct names) (I := clientImpl r names) h.clients
    (fun p hp => nodup_clientFields h hp) (fun p _ => ?_) fun p _ => nodup_clientFunctions h p
  cases hk : p.mkey <;> simp [clientImpl, clientConstants, mkeyConstant, hk]

end Ready

/-! ## Checks -/

def checkFunctions (p : PlacedTable) : List Function :=
  [checkFunction p .create, checkFunction p .update]

def checkItems (p : PlacedTable) : List Item :=
  (validatorConstants p).map .constant ++ (checkFunctions p).map .function

theorem validatorItems_nests : NestsLike validatorItems checkItems
    (fun c => [.doc (" Validators for rows of " ++ ticked c.dotted ++ ".")]) true :=
  validatorItems_eq

theorem apart_checkItems {p : PlacedTable} (hp : p.IsNamed) : Apart (checkItems p) := by
  have hnames : validatorNames p = (validatorConstants p).map Constant.name
      ++ ["validate_create", "validate_update"] := by
    simp [validatorNames, validatorConstants, valuesConstantOf, Function.comp_def]
  have hconstants : ((validatorConstants p).map Constant.name).Nodup := by
    have hall := nodup_validatorNames hp
    rw [hnames] at hall
    exact hall.of_append_left
  refine (apart_constants hconstants).append (apart_functions ?_) fun name h h' => ?_
  · simp [checkFunctions, checkFunction, Check.name]
  · rw [names_constants] at h
    rw [names_functions] at h'
    obtain ⟨_, -, rfl⟩ := List.mem_map.mp h
    obtain ⟨_, -, he⟩ := List.mem_map.mp h'
    cases he

theorem apart_validators {r : Resource} (h : (PlacedTable.ofResource r).IsNamed) :
    Apart (validatorsFile r).items := by
  refine validatorItems_nests.apart (fun q i hi name => ?_) _ h fun q _ hq => apart_checkItems hq
  obtain hi | hi := List.mem_append.mp hi
  · obtain ⟨c, -, rfl⟩ := List.mem_map.mp hi
    simp [Item.name?]
  · obtain ⟨f, -, rfl⟩ := List.mem_map.mp hi
    simp [Item.name?]

/-! ## Tests -/

def tableTestsOf (validators : Path) (p : PlacedTable) : List Function :=
  tableTests { validators with names := validators.names ++ p.chain } p

theorem validatorTests_nests (validators : Path) : NestsLike (validatorTests validators)
    (fun p => (tableTestsOf validators p).map .function) (fun _ => []) false := by
  intro p
  have hfold : validatorTests validators p = (tableTestsOf validators p).map .function
      ++ List.zipWith (fun c items => .module [] false c.codeName items) p.childTables
        (p.childTables.map (validatorTests validators)) := by
    rw [validatorTests, PlacedTable.fold_eq]
    rfl
  rw [hfold, List.zipWith_map_right, List.zipWith_self]

def enumTestEndings : List String := ["_accepts_declared_values", "_rejects_undeclared_value"]

/-- The tests of enum fields go by the code name of the field and an ending. -/
theorem enumTest_injective {s s' ending ending' : String} (hending : ending ∈ enumTestEndings)
    (hending' : ending' ∈ enumTestEndings) (h : s ++ ending = s' ++ ending') :
    s = s' ∧ ending = ending' := by
  have hlists := congrArg String.toList h
  rw [String.toList_append, String.toList_append] at hlists
  have hlast : ending = ending' := by
    have hchar := congrArg List.getLast? hlists
    simp only [enumTestEndings, List.mem_cons, List.not_mem_nil, or_false] at hending hending'
    rcases hending with rfl | rfl <;> rcases hending' with rfl | rfl <;> simp at hchar ⊢
  subst hlast
  exact ⟨String.toList_injective (List.append_cancel_right hlists), rfl⟩

/-- Names that end otherwise are no names of such tests. -/
theorem notMem_enumTests {name : String}
    (h : ∀ ending ∈ enumTestEndings, ¬ ending.toList <:+ name.toList) (fields : List Field) :
    name ∉ fields.flatMap fun f => enumTestEndings.map fun ending => f.codeName ++ ending := by
  intro hmem
  obtain ⟨f, -, hname⟩ := List.mem_flatMap.mp hmem
  obtain ⟨ending, hending, rfl⟩ := List.mem_map.mp hname
  refine h ending hending ?_
  rw [String.toList_append]
  exact List.suffix_append _ _

theorem nodup_enumTests {fields : List Field} (h : (fields.map Field.codeName).Nodup) :
    (fields.flatMap fun f => enumTestEndings.map fun ending => f.codeName ++ ending).Nodup := by
  refine List.nodup_flatMap.mpr
    ⟨fun f _ => ?_, (List.pairwise_map.mp h).imp fun {f g} hne name hf hg => ?_⟩
  · refine List.Nodup.map_on (fun a ha b hb he => (enumTest_injective ha hb he).2) (by decide)
  · obtain ⟨a, ha, rfl⟩ := List.mem_map.mp hf
    obtain ⟨b, hb, he⟩ := List.mem_map.mp hg
    exact hne (enumTest_injective hb ha he).1.symm

theorem tableTests_names (validators : Path) (p : PlacedTable) :
    (tableTests validators p).map Function.name
      = ("update_accepts_empty_payload"
        :: if p.requiredFields.isEmpty then [] else ["create_rejects_empty_payload"])
        ++ p.enumFields.flatMap fun f => enumTestEndings.map fun ending => f.codeName ++ ending := by
  rw [tableTests, List.map_append, List.map_append, List.map_flatMap]
  split <;> rfl

theorem nodup_tableTests {p : PlacedTable} (hp : p.IsNamed) (validators : Path) :
    ((tableTests validators p).map Function.name).Nodup := by
  have hcodes : (p.enumFields.map Field.codeName).Nodup :=
    hp.here.codes.sublist (List.filter_sublist.map _)
  rw [tableTests_names, List.nodup_append]
  refine ⟨by split <;> decide, nodup_enumTests hcodes, ?_⟩
  rintro a ha b hb rfl
  have hfixed : a ∈ ["update_accepts_empty_payload", "create_rejects_empty_payload"] := by
    split at ha <;> simp_all
  have hends : ∀ name ∈ ["update_accepts_empty_payload", "create_rejects_empty_payload"],
      ∀ ending ∈ enumTestEndings, ¬ ending.toList <:+ name.toList := by decide
  exact notMem_enumTests (hends a hfixed) _ hb

def clientTestNames : List String :=
  ["client", "minimal_payload", "retrieve_all", "retrieve_with_filter", "create_and_verify",
    "minimal_payload_passes_create_validation"]

theorem clientTests_names (r : Resource) (p : PlacedTable) (paths : TestPaths) :
    ((clientTests r p paths).map Function.name).Sublist clientTestNames :=
  (clientTests_sublist r p paths).map Function.name

theorem clientTestNames_apart {name : String} (h : name ∈ clientTestNames) (validators : Path)
    (p : PlacedTable) : name ∉ (tableTests validators p).map Function.name := by
  have hends : ∀ name ∈ clientTestNames, ∀ ending ∈ enumTestEndings,
      ¬ ending.toList <:+ name.toList := by decide
  have hfixed : ∀ name ∈ clientTestNames,
      name ∉ ["update_accepts_empty_payload", "create_rejects_empty_payload"] := by decide
  rw [tableTests_names, List.mem_append]
  rintro (hmem | hmem)
  · refine hfixed name h ?_
    split at hmem <;> simp_all
  · exact notMem_enumTests (hends name h) _ hmem

theorem apart_tests {r : Resource} (h : (PlacedTable.ofResource r).IsNamed) (names : TypeNames) :
    Apart (testsFile r names).items := by
  have hnests := validatorTests_nests (testPaths r names).validators
  have htable := hnests.apart (fun q i hi name => ?_) _ h fun q _ hq =>
    apart_functions (nodup_tableTests hq _)
  · have hclient := (clientTests_names r (.ofResource r) (testPaths r names))
    refine (apart_functions (hclient.nodup (by decide))).append htable ?_
    intro name hname hmem
    rw [names_functions] at hname
    obtain ⟨test, htest, rfl⟩ := List.mem_map.mp hname
    rw [hnests, List.filterMap_append, names_functions] at hmem
    obtain hmem | hmem := List.mem_append.mp hmem
    · obtain ⟨test', htest', he⟩ := List.mem_map.mp hmem
      cases he
      exact clientTestNames_apart (hclient.subset htest) _ _ htest'
    · obtain ⟨i, hi, he⟩ := List.mem_filterMap.mp hmem
      obtain ⟨c, -, rfl⟩ := List.mem_map.mp hi
      cases he
  · obtain ⟨f, -, rfl⟩ := List.mem_map.mp hi
    simp [Item.name?]

end RestForge.Emit
