import RestForge.Proofs.Reading
import RestForge.Proofs.RowFaults
import RestForge.Proofs.Spelling

/-!
# What the generated checks say of a payload

The generated check of a table runs to an end on every payload, and what it says is what the rows of
the payload call for. The code names of a table carry the argument: they tell the constants of its
enum fields apart, and the modules of the tables below.

* `nodup_validatorNames`, `nodup_modules`: no name is defined twice in the module of a table.
* `constants?_validatorItems`: what the constants of a table stand for.
* `run_ownChecks`, `run_rowCheckAll`: the parts of a body.
* `call_validatorItems`: running a generated check looks at the visited rows one by one.
* `checks_meaning`: the generated checks accept and refuse as `Passes` and `Fault` say.
-/

set_option autoImplicit false

namespace RestForge.Emit

open Source Naming Schema
open Rest (EnumField requireFields checkEnums tableRows)

/-! ## The items of a table -/

theorem validatorItems_eq (p : PlacedTable) :
    validatorItems p = (validatorConstants p).map .constant
      ++ [.function (checkFunction p .create), .function (checkFunction p .update)]
      ++ p.childTables.map fun c => validatorModule c (validatorItems c) := by
  have hfold : validatorItems p = (validatorConstants p).map .constant
      ++ [.function (checkFunction p .create), .function (checkFunction p .update)]
      ++ List.zipWith validatorModule p.childTables (p.childTables.map validatorItems) := by
    rw [validatorItems, PlacedTable.fold_eq]
  rw [hfold, List.zipWith_map_right, List.zipWith_self]

theorem modulesOf_validatorItems (p : PlacedTable) :
    modulesOf (validatorItems p)
      = p.childTables.map fun c => (c.codeName, call (validatorItems c)) := by
  have hconstants : ∀ cs : List Constant, (cs.map Item.constant).filterMap Item.asModule? = [] := by
    intro cs
    simp [List.filterMap_map, Function.comp_def, Item.asModule?]
  have hmodule : ∀ c, (validatorModule c (validatorItems c)).asModule?
      = some (c.codeName, call (validatorItems c)) := by
    intro c
    rw [validatorModule, Item.asModule?]
    rfl
  rw [validatorItems_eq, modulesOf_eq, List.filterMap_append, List.filterMap_append, hconstants,
    List.filterMap_map, ← List.filterMap_eq_map]
  exact List.filterMap_congr fun c _ => hmodule c

def validatorNames (p : PlacedTable) : List String :=
  "RESOURCE" :: "REQUIRED_FIELDS" :: (p.enumFields.map fun f => valuesConstant f.codeName)
    ++ ["ENUM_FIELDS", "validate_create", "validate_update"]

theorem valueNames_validatorItems (p : PlacedTable) :
    (validatorItems p).filterMap Item.valueName? = validatorNames p := by
  have hmodules : ∀ cs : List PlacedTable,
      (cs.map fun c => validatorModule c (validatorItems c)).filterMap Item.valueName? = [] := by
    intro cs
    simp [List.filterMap_map, Function.comp_def, validatorModule, Item.valueName?]
  rw [validatorItems_eq, List.filterMap_append, List.filterMap_append, hmodules]
  simp [validatorConstants, validatorNames, valuesConstantOf, Function.comp_def, Item.valueName?,
    checkFunction, Check.name]

section Named

variable {p : PlacedTable} (hp : p.IsNamed)

include hp

theorem nodup_validatorNames : (validatorNames p).Nodup := by
  have hspelled : ∀ f ∈ p.enumFields, CodeName f.codeName := by
    intro f hf
    rw [hp.here.spelled f (List.mem_of_mem_filter hf)]
    exact codeName_identifier _ _
  have hcodes : (p.enumFields.map fun f => valuesConstant f.codeName).Nodup := by
    have hfields : (p.enumFields.map Field.codeName).Nodup :=
      hp.here.codes.sublist (List.filter_sublist.map _)
    refine List.pairwise_map.mpr ((List.pairwise_map.mp hfields).imp_of_mem ?_)
    intro f g hf hg hne he
    exact hne (valuesConstant_injective (hspelled f hf) (hspelled g hg) he)
  have hother : ∀ name, ¬ "_VALUES".toList <:+ name.toList →
      name ∉ p.enumFields.map fun f => valuesConstant f.codeName := by
    intro name hname hmem
    obtain ⟨f, -, he⟩ := List.mem_map.mp hmem
    exact valuesConstant_ne hname he
  have hresource := hother "RESOURCE" (by decide)
  have hrequired := hother "REQUIRED_FIELDS" (by decide)
  rw [validatorNames, List.cons_append, List.cons_append, List.nodup_cons, List.nodup_cons,
    List.nodup_append]
  refine ⟨?_, ?_, hcodes, by decide, ?_⟩
  · simpa using hresource
  · simpa using hrequired
  · rintro a ha b hb rfl
    obtain rfl | rfl | rfl := by simpa using hb
    · exact hother _ (by decide) ha
    · exact hother _ (by decide) ha
    · exact hother _ (by decide) ha

theorem nodup_modules : ((modulesOf (validatorItems p)).map Prod.fst).Nodup := by
  rw [modulesOf_validatorItems, List.map_map]
  exact hp.child_codes

end Named

/-! ## The constants of a table -/

theorem lookup_of_mem {β : Type} {l : List (String × β)} (hl : (l.map Prod.fst).Nodup) {k : String}
    {v : β} (h : (k, v) ∈ l) : l.lookup k = some v := by
  induction l with
  | nil => cases h
  | cons q l ih =>
    obtain ⟨k', v'⟩ := q
    rw [List.map_cons, List.nodup_cons] at hl
    rw [List.lookup_cons]
    obtain he | hmem := List.mem_cons.mp h
    · cases he
      simp
    · have hne : k ≠ k' := by
        rintro rfl
        exact hl.1 (List.mem_map.mpr ⟨_, hmem, rfl⟩)
      simp only [beq_eq_false_iff_ne.mpr hne]
      exact ih hl.2 hmem

def valuesEntry (f : Field) : String × Value :=
  (valuesConstant f.codeName, .ofTexts f.distinctValues)

/-- What the constants before the table of enum fields stand for, the last one first. -/
def valuesEnv (p : PlacedTable) : Env :=
  (p.enumFields.map valuesEntry).reverse
    ++ [("REQUIRED_FIELDS", .ofTexts (p.requiredFields.map Field.wireName)),
      ("RESOURCE", .text p.dotted)]

def validatorEnv (p : PlacedTable) : Env :=
  ("ENUM_FIELDS", .ofEnumFields (declaredFields p.fields)) :: valuesEnv p

theorem value?_texts (env : Env) (items : List String) :
    value? env (texts items) = some (.ofTexts items) := by
  have hitems : values? env (items.map .text) = some (items.map .text) := by
    induction items with
    | nil => rfl
    | cons s items ih => rw [List.map_cons, values?, ih, value?]; rfl
  rw [texts, value?, value?, hitems]
  rfl

theorem constants?_values (fs : List Field) (env : Env) :
    constants? (fs.map fun f => .constant (valuesConstantOf f)) env
      = some ((fs.map valuesEntry).reverse ++ env) := by
  induction fs generalizing env with
  | nil => rfl
  | cons f fs ih =>
    have hvalue : value? env (valuesConstantOf f).value = some (.ofTexts f.distinctValues) :=
      value?_texts env _
    rw [List.map_cons, constants?, hvalue]
    simp only [ih, List.map_cons, List.reverse_cons, List.append_assoc, List.singleton_append]
    rfl

theorem value?_enumEntries {env : Env} {fs : List Field}
    (h : ∀ f ∈ fs, env.lookup (valuesConstant f.codeName) = some (.ofTexts f.distinctValues)) :
    values? env (fs.map enumEntry)
      = some ((fs.map fun f => EnumField.mk f.wireName f.distinctValues).map Value.ofEnumField) := by
  induction fs with
  | nil => rfl
  | cons f fs ih =>
    have hrest := ih fun g hg => h g (List.mem_cons_of_mem _ hg)
    have hentry : value? env (enumEntry f)
        = some (.ofEnumField ⟨f.wireName, f.distinctValues⟩) := by
      have hconstant : value? env (.var (valuesConstant f.codeName))
          = some (.ofTexts f.distinctValues) := h f List.mem_cons_self
      rw [enumEntry, value?, values?, values?, hconstant]
      rfl
    rw [List.map_cons, values?, hentry, hrest]
    rfl

theorem constants?_rest (p : PlacedTable) (cs : List PlacedTable) (env : Env) :
    constants? ([.function (checkFunction p .create), .function (checkFunction p .update)]
      ++ cs.map fun c => validatorModule c (validatorItems c)) env = some env := by
  have hmodules : constants? (cs.map fun c => validatorModule c (validatorItems c)) env
      = some env := by
    induction cs with
    | nil => rfl
    | cons c cs ih => exact ih
  exact hmodules

theorem nodup_valuesEnv {p : PlacedTable} (hp : p.IsNamed) :
    ((valuesEnv p).map Prod.fst).Nodup := by
  have hkeys : ((valuesEnv p).map Prod.fst).reverse = "RESOURCE" :: "REQUIRED_FIELDS"
      :: p.enumFields.map fun f => valuesConstant f.codeName := by
    simp [valuesEnv, valuesEntry, Function.comp_def]
  rw [← List.nodup_reverse, hkeys]
  exact (nodup_validatorNames hp).sublist (List.sublist_append_left _ _)

theorem constants?_validatorItems {p : PlacedTable} (hp : p.IsNamed) :
    constants? (validatorItems p) [] = some (validatorEnv p) := by
  have hfirst : ∀ c d : Constant, c.value = .text p.dotted →
      d.value = texts (p.requiredFields.map Field.wireName) →
      constants? ([c, d].map Item.constant) [] = some
        [(d.name, .ofTexts (p.requiredFields.map Field.wireName)), (c.name, .text p.dotted)] := by
    intro c d hc hd
    simp only [List.map_cons, List.map_nil, constants?, hc, hd, value?_texts]
    rw [value?]
  have hvalues : ∀ env, constants? ((p.enumFields.map valuesConstantOf).map Item.constant) env
      = some ((p.enumFields.map valuesEntry).reverse ++ env) := by
    intro env
    rw [List.map_map]
    exact constants?_values p.enumFields env
  have hentries : values? (valuesEnv p) (p.enumFields.map enumEntry) = _ :=
    value?_enumEntries fun f hf => lookup_of_mem (nodup_valuesEnv hp)
      (List.mem_append_left _ (List.mem_reverse.mpr (List.mem_map.mpr ⟨f, hf, rfl⟩)))
  have hlast : ∀ c : Constant, c.value = .ref (.array (p.enumFields.map enumEntry)) →
      constants? ([c].map Item.constant) (valuesEnv p)
        = some ((c.name, .ofEnumFields (declaredFields p.fields)) :: valuesEnv p) := by
    intro c hc
    simp only [List.map_cons, List.map_nil, constants?, hc, value?, hentries]
    rfl
  rw [validatorItems_eq, List.append_assoc, constants?_append, validatorConstants, List.map_append,
    List.map_append, constants?_append, constants?_append, hfirst _ _ rfl rfl, Option.bind_some,
    hvalues, Option.bind_some]
  have hall := hlast ⟨[.doc " Enum fields and their declared values."], true, "ENUM_FIELDS",
      .ref false (.slice (.tuple [strRef false, textList false])),
      .ref (.array (p.enumFields.map enumEntry))⟩ rfl
  rw [valuesEnv] at hall
  rw [hall, Option.bind_some]
  exact constants?_rest p p.childTables _

/-! ## The body of a check -/

theorem function?_validatorItems (p : PlacedTable) (check : Check) :
    (validatorItems p).findSome? (function? check.name) = some (checkFunction p check) := by
  have hconstants : ∀ cs : List Constant,
      (cs.map Item.constant).findSome? (function? check.name) = none := by
    intro cs
    induction cs with
    | nil => rfl
    | cons c cs ih => exact ih
  rw [validatorItems_eq, List.append_assoc, List.findSome?_append, hconstants, Option.none_or]
  cases check <;> rfl

/-- The statements of a body on the row itself. -/
def ownChecks : Check → List Stmt
  | .create =>
    [validateCall "require_fields" "REQUIRED_FIELDS", validateCall "check_enums" "ENUM_FIELDS"]
  | .update => [validateCall "check_enums" "ENUM_FIELDS"]

theorem checkBody_eq (p : PlacedTable) (check : Check) :
    checkBody p check = ownChecks check ++ p.childTables.map (rowCheck check)
      ++ [.result (callName "Ok" [.tuple []])] := by
  cases check <;> rfl

def bodyEnv (p : PlacedTable) (payload : Record) : Env :=
  ("payload", .record payload) :: validatorEnv p

section Body

variable {p : PlacedTable} (hp : p.IsNamed) (modules : Modules) (payload : Record)

include hp

theorem lookup_resource : (bodyEnv p payload).lookup "RESOURCE" = some (.text p.dotted) := by
  have hmem : ("RESOURCE", Value.text p.dotted) ∈ valuesEnv p := by simp [valuesEnv]
  exact lookup_of_mem (nodup_valuesEnv hp) hmem

theorem lookup_required : (bodyEnv p payload).lookup "REQUIRED_FIELDS"
    = some (.ofTexts (p.requiredFields.map Field.wireName)) := by
  have hmem : ("REQUIRED_FIELDS", Value.ofTexts (p.requiredFields.map Field.wireName))
      ∈ valuesEnv p := by simp [valuesEnv]
  exact lookup_of_mem (nodup_valuesEnv hp) hmem

theorem values?_arguments {constant : String} {v : Value}
    (h : (bodyEnv p payload).lookup constant = some v) :
    values? (bodyEnv p payload) [.var "RESOURCE", .var "payload", .var constant]
      = some [.text p.dotted, .record payload, v] := by
  have hname : ∀ name, value? (bodyEnv p payload) (.var name) = (bodyEnv p payload).lookup name :=
    fun _ => rfl
  have hpayload : (bodyEnv p payload).lookup "payload" = some (.record payload) := rfl
  simp only [values?, hname, lookup_resource hp, hpayload, h]

theorem run_requireFields :
    runStmt modules (bodyEnv p payload) (validateCall "require_fields" "REQUIRED_FIELDS")
      = some (requireFields p.dotted payload (p.requiredFields.map Field.wireName)) := by
  rw [validateCall, callPath, Stmt.run, runStmt,
    values?_arguments hp payload (lookup_required hp payload), Option.bind_some, runCall]
  have hpath : runtime ["validate", "require_fields"] = requireFieldsPath := rfl
  simp [hpath]

theorem run_checkEnums :
    runStmt modules (bodyEnv p payload) (validateCall "check_enums" "ENUM_FIELDS")
      = some (checkEnums p.dotted payload (declaredFields p.fields)) := by
  have hlookup : (bodyEnv p payload).lookup "ENUM_FIELDS"
      = some (.ofEnumFields (declaredFields p.fields)) := rfl
  rw [validateCall, callPath, Stmt.run, runStmt, values?_arguments hp payload hlookup,
    Option.bind_some, runCall]
  have hpath : runtime ["validate", "check_enums"] = checkEnumsPath := rfl
  have hne : checkEnumsPath ≠ requireFieldsPath := by decide
  simp [hpath, hne]

theorem run_ownChecks (check : Check) :
    runAll modules (bodyEnv p payload) (ownChecks check) = some (rowVerdict check p payload) := by
  have hlast : runAll modules (bodyEnv p payload) [validateCall "check_enums" "ENUM_FIELDS"]
      = some (checkEnums p.dotted payload (declaredFields p.fields)) := by
    rw [runAll, run_checkEnums hp]
    rcases checkEnums p.dotted payload (declaredFields p.fields) with _ | ⟨⟩ <;> rfl
  cases check with
  | create =>
    rw [ownChecks, runAll, run_requireFields hp, hlast, rowVerdict]
    rcases requireFields p.dotted payload (p.requiredFields.map Field.wireName) with _ | ⟨⟩ <;> rfl
  | update => exact hlast

end Body

/-! ## The rows below -/

theorem andThen_ok (first : Option Verdict) : andThen first (some (.ok ())) = first := by
  rcases first with _ | _ | ⟨⟩ <;> rfl

theorem runRows_eq {check : Check} {run : Record → Option Verdict}
    {visited : Record → List (PlacedTable × Record)}
    (h : ∀ row, run row = some (firstFault check (visited row))) (rows : List Record) :
    runRows run rows = some (firstFault check (rows.flatMap visited)) := by
  induction rows with
  | nil => rfl
  | cons row rows ih => rw [runRows, h, ih, List.flatMap_cons, firstFault_append]

/-- One loop looks at the rows of one table, if the module of that table is the one called. -/
theorem run_rowCheck {check : Check} {p c : PlacedTable} {payload : Record} {modules : Modules}
    (hc : modules.lookup c.codeName = some (call (validatorItems c)))
    (h : ∀ row, call (validatorItems c) check.name row = some (firstFault check (visits c row))) :
    runStmt modules (bodyEnv p payload) (rowCheck check c)
      = some (firstFault check ((tableRows payload c.segment).flatMap (visits c))) := by
  have hrows : rows? (bodyEnv p payload)
      (callPath (runtime ["validate", "table_rows"]) [.var "payload", .text c.segment])
        = some (tableRows payload c.segment) := rfl
  have hbody : ∀ row, runAll modules (("row", .record row) :: bodyEnv p payload)
      [.run (.question (callPath (.rel [c.codeName, check.name]) [.var "row"]))]
        = some (firstFault check (visits c row)) := by
    intro row
    have hargs : values? (("row", .record row) :: bodyEnv p payload) [.var "row"]
        = some [.record row] := rfl
    rw [runAll, runAll, andThen_ok, Stmt.run, callPath, runStmt, hargs, Option.bind_some]
    change (modules.lookup c.codeName).bind (fun run => run check.name row) = _
    rw [hc, Option.bind_some, h row]
  rw [rowCheck, runStmt, hrows, Option.bind_some]
  exact runRows_eq hbody _

theorem run_rowCheckAll {check : Check} {p : PlacedTable} {payload : Record} {modules : Modules}
    {cs : List PlacedTable}
    (hmodules : ∀ c ∈ cs, modules.lookup c.codeName = some (call (validatorItems c)))
    (h : ∀ c ∈ cs, ∀ row, call (validatorItems c) check.name row
      = some (firstFault check (visits c row))) :
    runAll modules (bodyEnv p payload) (cs.map (rowCheck check))
      = some (firstFault check
          (cs.flatMap fun c => (tableRows payload c.segment).flatMap (visits c))) := by
  induction cs with
  | nil => rfl
  | cons c cs ih =>
    have hrest := ih (fun d hd => hmodules d (List.mem_cons_of_mem _ hd))
      fun d hd => h d (List.mem_cons_of_mem _ hd)
    rw [List.map_cons, runAll, hrest, List.flatMap_cons, firstFault_append,
      run_rowCheck (hmodules c List.mem_cons_self) (h c List.mem_cons_self)]

/-! ## Whole checks -/

theorem call_validatorItems (check : Check) (p : PlacedTable) (hp : p.IsNamed) (payload : Record) :
    call (validatorItems p) check.name payload = some (firstFault check (visits p payload)) := by
  -- a table calls the checks of the tables below through the modules inside its own
  induction p using PlacedTable.induct generalizing payload with
  | step p ih =>
    have hmodules : ∀ c ∈ p.childTables,
        (modulesOf (validatorItems p)).lookup c.codeName = some (call (validatorItems c)) := by
      intro c hc
      apply lookup_of_mem (nodup_modules hp)
      rw [modulesOf_validatorItems]
      exact List.mem_map.mpr ⟨c, hc, rfl⟩
    have hrows : runAll (modulesOf (validatorItems p)) (bodyEnv p payload)
        (p.childTables.map (rowCheck check)) = _ :=
      run_rowCheckAll hmodules fun c hc row => ih c hc (hp.child hc) row
    have hresult : runAll (modulesOf (validatorItems p)) (bodyEnv p payload)
        [.result (callName "Ok" [.tuple []])] = some (.ok ()) := rfl
    have hbody : runAll (modulesOf (validatorItems p)) (bodyEnv p payload) (checkBody p check)
        = some (firstFault check (visits p payload)) := by
      rw [checkBody_eq, runAll_append, runAll_append, run_ownChecks hp, hrows, hresult, andThen_ok,
        visits_eq, firstFault_cons]
    have hnames : ((validatorItems p).filterMap Item.valueName?).Nodup := by
      rw [valueNames_validatorItems]
      exact nodup_validatorNames hp
    rw [call, callIn, if_pos ⟨hnames, nodup_modules hp⟩, constants?_validatorItems hp,
      function?_validatorItems]
    exact hbody

/-- **The generated checks mean what they promise.** For every resource that was read, every payload
and either check: running the generated function ends. It accepts if and only if the payload and
every row below it pass, and it ends in an error if and only if that is the fault of the first row
in visiting order that does not pass. -/
theorem checks_meaning {steps : List NamingStep} {r : Resource} (h : r ∈ resourcesRead steps)
    (check : Check) (payload : Record) :
    ∃ verdict, call (validatorsFile r).items check.name payload = some verdict
      ∧ (verdict = .ok () ↔
        ∀ v ∈ visits (PlacedTable.ofResource r) payload, Passes check v.1 v.2)
      ∧ ∀ e, verdict = .error e ↔ ∃ before v after,
        visits (PlacedTable.ofResource r) payload = before ++ v :: after
          ∧ (∀ u ∈ before, Passes check u.1 u.2) ∧ Fault check v.1 v.2 e := by
  have hroot := PlacedTable.isNamed_ofResource h
  exact ⟨_, call_validatorItems check _ hroot payload, firstFault_ok_iff,
    fun e => firstFault_error_iff⟩

/-! ## A payload with a row that does not pass -/

def modeField : Json :=
  .object
    [("name", .string "mode"), ("options", .strings ["on", "off"]), ("required", .bool true),
      ("type", .string "option")]

def idField : Json :=
  .object [("name", .string "id"), ("required", .bool true), ("type", .string "integer")]

def rowsField : Json :=
  .object [("children", .array [idField]), ("name", .string "rows"), ("type", .string "table")]

def rowsDocument : Json :=
  .object
    [("category", .string "config"), ("fields", .array [modeField, rowsField]),
      ("methods", .strings ["POST"]), ("path", .string "x")]

def modeRead : Field := ⟨"mode", "mode", .enum, true, ["on", "off"], none, none, none⟩

def idRead : Field := ⟨"id", "id", .integer, true, [], none, none, none⟩

def rowsTable : Table := ⟨"rows", "rows", none, none, [idRead], []⟩

def rowsResource : Resource :=
  ⟨.config, ["x"], ["x"], none, none, [modeRead, .plain "rows" "rows" .nestedTable], [rowsTable],
    [.post]⟩

theorem rowsResource_read : rowsResource ∈ resourcesRead [.read 4 rowsDocument] := by
  let modules := NameTable.empty.add (Scope.modules "config") "x" "x"
  let first := modules.add (Scope.fields "config.x") "mode" "mode"
  let second := first.add (Scope.fields "config.x") "rows" "rows"
  let third := second.add (Scope.fields "config.x>rows") "id" "id"
  have hmodules : readModules "config" ["x"] .empty = (.ok ["x"], modules) :=
    readModules_single (by decide) (by simp) (by simp)
  have hmode : readField (readTable 4 3) "config.x" ⟨[0]⟩ [] modeField modules
      = (.ok (modeRead, none), first) := by
    have hname : giveName (Scope.fields "config.x") "mode" modules = (.ok "mode", first) := by
      refine giveName_free (by decide) ?_ ?_
      · simp [modules, Scope.fields, Scope.modules, NameTable.codeName?_add]
      · simp [modules, Scope.fields, Scope.modules, NameTable.wireName?_add]
    refine (lift_ok_bind (x := (⟨"mode", .enum, true, ["on", "off"], none⟩ : FieldHead)) rfl).trans ?_
    refine (ok_bind hname).trans ?_
    rfl
  have hid : readField (readTable 4 2) "config.x>rows" ⟨[1, 0]⟩ [] idField second
      = (.ok (idRead, none), third) := by
    have hname : giveName (Scope.fields "config.x>rows") "id" second = (.ok "id", third) := by
      refine giveName_free (by decide) ?_ ?_
      · simp [modules, first, second, Scope.fields, Scope.modules, NameTable.codeName?_add]
      · simp [modules, first, second, Scope.fields, Scope.modules, NameTable.wireName?_add]
    refine (lift_ok_bind (x := (⟨"id", .integer, true, [], none⟩ : FieldHead)) rfl).trans ?_
    refine (ok_bind hname).trans ?_
    rfl
  have hbelow : readTable 4 3 "config.x>rows" ⟨[1]⟩ [idField] second
      = (.ok ([idRead], []), third) := by
    refine (ok_bind hid).trans ?_
    rfl
  have hrows : readField (readTable 4 3) "config.x" ⟨[1]⟩ ["mode"] rowsField first
      = (.ok (.plain "rows" "rows" .nestedTable, some rowsTable), third) := by
    have hname : giveName (Scope.fields "config.x") "rows" first = (.ok "rows", second) := by
      refine giveName_free (by decide) ?_ ?_
      · simp [modules, first, Scope.fields, Scope.modules, NameTable.codeName?_add]
      · simp [modules, first, Scope.fields, Scope.modules, NameTable.wireName?_add]
    refine (lift_ok_bind (x := (⟨"rows", .nestedTable, false, [], none⟩ : FieldHead)) rfl).trans ?_
    have hnested : readNested (readTable 4 3) "config.x" ⟨[1]⟩
        ⟨"rows", .nestedTable, false, [], none⟩ "rows"
        [("children", .array [idField]), ("name", .string "rows"), ("type", .string "table")] second
          = (.ok rowsTable, third) := by
      refine (ok_bind hbelow).trans ?_
      rfl
    refine (ok_bind hname).trans ((ok_bind (ok_map hnested)).trans ?_)
    rfl
  have hlast : readFields (readTable 4 3) "config.x" ⟨[]⟩ 1 ["mode"] [rowsField] first
      = (.ok ([.plain "rows" "rows" .nestedTable], [rowsTable]), third) := by
    refine (ok_bind hrows).trans ?_
    rfl
  have hfields : readTable 4 4 "config.x" ⟨[]⟩ [modeField, rowsField] modules
      = (.ok ([modeRead, .plain "rows" "rows" .nestedTable], [rowsTable]), third) := by
    refine (ok_bind hmode).trans ((ok_bind hlast).trans ?_)
    rfl
  have hread : readResource 4 rowsDocument .empty = (.ok rowsResource, third) := by
    refine (lift_ok_bind rfl).trans ?_
    refine (lift_ok_bind (x := (⟨.config, ["x"], [.post]⟩ : Header)) rfl).trans ?_
    refine (ok_bind hmodules).trans ?_
    refine (lift_ok_bind (x := none) rfl).trans ?_
    refine (lift_ok_bind rfl).trans ?_
    refine (ok_bind hfields).trans ?_
    rfl
  exact mem_resourcesRead_of_read hread

/-- A payload with two rows, the second without its required field. -/
def rowsPayload : Record :=
  [("mode", .string "on"), ("rows", .array [.object [("id", .nat 1)], .object []])]

/-- The second row is refused as part of a create payload. -/
theorem checks_meaning_of_rows :
    rowsResource ∈ resourcesRead [.read 4 rowsDocument]
      ∧ call (validatorsFile rowsResource).items "validate_create" rowsPayload
        = some (.error (.missingRequired "config.x.rows" ["id"])) := by
  obtain ⟨verdict, hcall, -, herror⟩ := checks_meaning rowsResource_read .create rowsPayload
  have hmode : Passes .create (PlacedTable.ofResource rowsResource) rowsPayload := by
    refine ⟨fun _ => by decide, fun f hf henum value hv _ => ?_⟩
    obtain rfl | rfl : f = modeRead ∨ f = .plain "rows" "rows" .nestedTable := by
      simpa [PlacedTable.ofResource, rowsResource] using hf
    · have he : some (Json.string "on") = some value := hv
      obtain rfl := Option.some.inj he
      decide
    · exact absurd henum (by decide)
  have hfirst : Passes .create ((PlacedTable.ofResource rowsResource).child rowsTable)
      [("id", .nat 1)] := by
    refine ⟨fun _ => by decide, fun f hf henum => ?_⟩
    obtain rfl : f = idRead := List.mem_singleton.mp hf
    exact absurd henum (by decide)
  have hsecond : Fault .create ((PlacedTable.ofResource rowsResource).child rowsTable) []
      (.missingRequired "config.x.rows" ["id"]) := .missing rfl (by decide)
  have hbefore : ∀ v ∈ [(PlacedTable.ofResource rowsResource, rowsPayload),
      ((PlacedTable.ofResource rowsResource).child rowsTable, [("id", .nat 1)])],
      Passes .create v.1 v.2 := by
    intro v hv
    obtain rfl | hv := List.mem_cons.mp hv
    · exact hmode
    · obtain rfl := List.mem_singleton.mp hv
      exact hfirst
  have hverdict := (herror _).mpr ⟨_, (_, _), [], rfl, hbefore, hsecond⟩
  rw [hverdict] at hcall
  exact ⟨rowsResource_read, hcall⟩

end RestForge.Emit
