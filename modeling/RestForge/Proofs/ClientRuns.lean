import RestForge.Proofs.FunctionRuns
import RestForge.Proofs.PayloadModel

/-!
# Running a client

A client is made for an endpoint, and its operations send requests there.

* `ClientAt`: a client with its endpoint.
* `run_new`: a new client sends to the path of the root; `run_fromEndpoint` makes the clients of the
  tables below first.
* `run_post`, `run_get`, `run_getByKey`, `run_delete`: the requests of the operations.
-/

set_option autoImplicit false

namespace RestForge.Emit

open Source Naming Schema
open Rest (Endpoint MockTransport ModelShape ModelValue)

/-! ## Names of functions -/

theorem libraryCall_none {p : Path} (hp : p.isGlobal = false)
    (hlast : p.names.getLast? ∉ [some "Some", some "new"]) (args : List Datum) :
    libraryCall p args = none := by
  obtain ⟨isGlobal, names⟩ := p
  cases hp
  unfold libraryCall
  split
  case h_14 => rfl
  all_goals
    rename_i hcall
    cases hcall <;> simp at hlast

theorem find?_name {fs : List Function} (h : (fs.map Function.name).Nodup) {f : Function}
    (hf : f ∈ fs) : fs.find? (fun g => decide (g.name = f.name)) = some f := by
  cases hfind : fs.find? fun g => decide (g.name = f.name) with
  | none => exact absurd (List.find?_eq_none.mp hfind f hf) (by simp)
  | some g =>
    have hname : g.name = f.name := by simpa using List.find?_some hfind
    rw [List.inj_on_of_nodup_map h (List.mem_of_find?_eq_some hfind) hf hname]

/-! ## Clients of a resource -/

/-- A client of a table, and where it sends requests. -/
def ClientAt (names : TypeNames) (p : PlacedTable) (e : Endpoint) (d : Datum) : Prop :=
  ∃ fields, d = .struct (names.client p) fields ∧ fields.lookup "endpoint" = some (.endpoint e)

/-- Code in the functions of a client. -/
def clientSite (names : TypeNames) (p : PlacedTable) : Site := ⟨.client, [], some (names.client p)⟩

theorem clientStruct_names (names : TypeNames) (p : PlacedTable) :
    (clientStruct names p).fields.map StructField.name
      = "endpoint" :: p.childTables.map PlacedTable.codeName := by
  rw [clientStruct, List.map_cons, List.map_map]
  rfl

section Clients

variable {r : Resource} {names : TypeNames} (h : Ready r names) {p : PlacedTable} (hp : p ∈ r.tables)

include h hp

theorem impl_found : ((program r names).file .client).findSome? (impl? (names.client p))
    = some (clientImpl r names p) := by
  have hmem : .impl (clientImpl r names p) ∈ (clientFile r names).items :=
    mem_typeItems.mpr ⟨p, hp, .inr rfl⟩
  refine findSome?_of_unique hmem (if_pos ⟨rfl, rfl⟩) fun i hi => ?_
  obtain ⟨q, hq, rfl | rfl⟩ := mem_typeItems.mp hi
  · exact .inl rfl
  · by_cases hname : names.client q = names.client p
    · rw [List.inj_on_of_nodup_map h.clients hq hp hname]
      exact .inr (if_pos ⟨rfl, rfl⟩)
    · exact .inl (if_neg fun he => hname he.2)

theorem functionOf?_eq {f : Function} (hf : f ∈ (clientImpl r names p).functions) :
    (program r names).functionOf? (names.client p) f.name = some f := by
  rw [Program.functionOf?, impl_found h hp, Option.bind_some]
  exact find?_name (nodup_clientFunctions h p) hf

theorem functionOf?_new :
    (program r names).functionOf? (names.client p) "new" = some newFunction :=
  functionOf?_eq h hp (f := newFunction) (List.mem_append_left _ List.mem_cons_self)

theorem functionOf?_fromEndpoint : (program r names).functionOf? (names.client p) "from_endpoint"
    = some (fromEndpointFunction names p) :=
  functionOf?_eq h hp (f := fromEndpointFunction names p)
    (List.mem_append_left _ (List.mem_cons_of_mem _ List.mem_cons_self))

/-! ## Constants -/

theorem constantOf?_category :
    (program r names).constantOf? (names.client p) "CATEGORY" = some (.category r.category) := by
  rw [Program.constantOf?, impl_found h hp]
  cases hc : r.category <;> simp [clientImpl, clientConstants, hc] <;> rfl

theorem constantOf?_path :
    (program r names).constantOf? (names.client p) "PATH" = some (.text p.wirePath) := by
  rw [Program.constantOf?, impl_found h hp]
  simp [clientImpl, clientConstants]

omit h hp in
theorem value?_self {name : String} {d : Datum}
    (hd : (program r names).constantOf? (names.client p) name = some d) :
    (program r names).value? (clientSite names p) (.rel ["Self", name]) = some d := by
  have hplace := place?_self r names .client [] (names.client p) [name]
  have hlibrary : libraryValue? (.rel ["Self", name]) = none := rfl
  rw [Program.value?, hlibrary, clientSite, hplace]
  exact hd

/-! ## Making a client -/

theorem record?_client {given : List (String × Datum)}
    (hgiven : given.map Prod.fst = p.childTables.map PlacedTable.codeName ++ ["endpoint"]) :
    (program r names).record? (clientSite names p) (.rel ["Self"]) given false
      = some (.struct (names.client p) given) := by
  have hstruct : ((program r names).file .client).findSome? (struct? (names.client p))
      = some (clientStruct names p) :=
    (apart_client h).struct_found (mem_typeItems.mpr ⟨p, hp, .inl rfl⟩)
  have hfields : (given.map Prod.fst).Perm ((clientStruct names p).fields.map StructField.name) := by
    rw [hgiven, clientStruct_names]
    exact List.perm_append_singleton _ _
  rw [Program.record?, clientSite, place?_self]
  change (((program r names).file .client).findSome? (struct? (names.client p))).bind _ = _
  rw [hstruct, Option.bind_some, if_pos ⟨hfields, rfl⟩]

variable (hself : ∀ p ∈ r.tables, names.client p ≠ "Self")

include hself

/-- A client is made by a function of its own. -/
theorem call_fromEndpoint (runs : Program.Runs) (site : Site) (hsite : site.file = .client)
    (hmodules : site.modules = []) (args : List Datum) :
    (program r names).call runs site (.rel [names.client p, "from_endpoint"]) args
      = runs (clientSite names p) (fromEndpointFunction names p) args := by
  have hname : names.client p ∉ ["crate", "super", "Self"] := by
    have houtward := h.local_clients p hp
    have hne := hself p hp
    rw [mem_outward, not_or] at houtward
    simp [houtward, hne]
  have hplace := place?_own r names site hname ["from_endpoint"]
  rw [hsite, hmodules] at hplace
  refine Program.call_client (libraryCall_none rfl ?_ args) hplace
    (functionOf?_fromEndpoint h hp)
  simp [Path.rel]

/-- The clients of the tables below are made before the client itself. -/
theorem run_fromEndpoint {depth : Nat} (hdepth : p.walk.length ≤ depth) (e : Endpoint) :
    ∃ d, ClientAt names p e d ∧ (program r names).runWithin depth (clientSite names p)
      (fromEndpointFunction names p) [.endpoint e] = pure d := by
  induction p using PlacedTable.induct generalizing depth e with
  | step p ih =>
    have hpos : 0 < p.walk.length := by
      rw [p.walk_eq]
      exact Nat.succ_pos _
    obtain ⟨depth, rfl⟩ : ∃ d, depth = d + 1 := ⟨depth - 1, by omega⟩
    let ns := (program r names).names ((program r names).runWithin depth) (clientSite names p)
    have hfields : ∀ cs ⊆ p.childTables, ∃ given : List (String × Datum),
        evalFields ns [("endpoint", .endpoint e)] (cs.map (childInit names) ++ [.same "endpoint"])
          = pure (given ++ [("endpoint", .endpoint e)])
        ∧ given.map Prod.fst = cs.map PlacedTable.codeName := by
      intro cs hcs
      induction cs with
      | nil => exact ⟨[], rfl, rfl⟩
      | cons c cs ihcs =>
        rw [List.cons_subset] at hcs
        have hwalk : c.walk.length ≤ depth := by
          have hlt := length_walk_lt hcs.1
          omega
        obtain ⟨given, hgiven, hnames⟩ := ihcs hcs.2
        obtain ⟨d, -, hrun⟩ := ih c hcs.1 (PlacedTable.mem_walk_of_mem_childTables hp hcs.1)
          hwalk (e.child c.segment)
        have hchild : eval ns [("endpoint", .endpoint e)]
            (callPath (.rel [names.client c, "from_endpoint"])
              [.method (.var "endpoint") "child" [.text c.segment] false]) = pure d := by
          have hcall := call_fromEndpoint h (PlacedTable.mem_walk_of_mem_childTables hp hcs.1) hself
            ((program r names).runWithin depth) (clientSite names p) rfl rfl
            [.endpoint (e.child c.segment)]
          rw [hrun] at hcall
          simp [eval_call, evalAll_cons, evalAll_nil, eval_method, eval_var, eval_text, ns,
            Program.method, hcall]
        refine ⟨(c.codeName, d) :: given, ?_, by simp [hnames]⟩
        simp only [List.map_cons, List.cons_append, childInit, evalFields, hchild, hgiven, pure_bind]
    obtain ⟨given, hgiven, hnames⟩ := hfields p.childTables (List.Subset.refl _)
    refine ⟨.struct (names.client p) (given ++ [("endpoint", .endpoint e)]), ⟨_, rfl, ?_⟩, ?_⟩
    · have hnodup := nodup_clientFields h hp
      rw [clientStruct_names, List.nodup_cons, ← hnames] at hnodup
      have hnone : given.lookup "endpoint" = none := List.lookup_eq_none_iff.mpr fun f hf =>
        bne_iff_ne.mpr fun he => hnodup.1 (he ▸ List.mem_map_of_mem hf)
      rw [List.lookup_append, hnone]
      rfl
    · have hall : (given ++ [("endpoint", Datum.endpoint e)]).map Prod.fst
          = p.childTables.map PlacedTable.codeName ++ ["endpoint"] := by
        simp [hnames]
      have hrecord := record?_client h hp hall
      change Run.returning (eval ns [("endpoint", .endpoint e)] (.record _ _ _)) = _
      rw [eval_record, hgiven, pure_bind, Program.names_record?, hrecord, Run.given_some,
        Run.returning_pure]

/-- A new client sends to the path of its table. -/
theorem run_new {depth : Nat} (hdepth : p.walk.length ≤ depth) :
    ∃ d, ClientAt names p ⟨r.category, p.wirePath⟩ d
      ∧ (program r names).runWithin (depth + 1) (clientSite names p) newFunction [.transport]
        = pure d := by
  obtain ⟨d, hd, hrun⟩ := run_fromEndpoint h hp hself hdepth ⟨r.category, p.wirePath⟩
  refine ⟨d, hd, ?_⟩
  let ns := (program r names).names ((program r names).runWithin depth) (clientSite names p)
  let locals : Locals := [("transport", .transport)]
  have hcategory : eval ns locals (.path (.rel ["Self", "CATEGORY"]))
      = pure (.category r.category) := by
    rw [eval_path _ _ (by decide), Program.names_value?, value?_self (constantOf?_category h hp)]
    rfl
  have hpath : eval ns locals (.path (.rel ["Self", "PATH"])) = pure (.text p.wirePath) := by
    rw [eval_path _ _ (by decide), Program.names_value?, value?_self (constantOf?_path h hp)]
    rfl
  have hcall : ns.call (.rel ["Self", "from_endpoint"]) [.endpoint ⟨r.category, p.wirePath⟩]
      = pure d := by
    have hplace := place?_self r names .client [] (names.client p) ["from_endpoint"]
    exact (Program.call_client rfl hplace (functionOf?_fromEndpoint h hp)).trans hrun
  have hendpoint : eval ns locals (callPath (runtime ["Endpoint", "new"]) [.var "transport",
      .path (.rel ["Self", "CATEGORY"]), .path (.rel ["Self", "PATH"])])
      = pure (.endpoint ⟨r.category, p.wirePath⟩) := by
    simp [eval_call, evalAll_cons, evalAll_nil, hcategory, hpath, eval_var, locals, ns]
  change Run.returning (execBody ns _ locals [.result (callPath _ _)]) = _
  rw [execBody_result, callPath, execResult, if_neg (by decide)]
  change Run.returning (eval ns locals (callPath _ _)) = _
  rw [eval_call, evalAll_cons, hendpoint, evalAll_nil, pure_bind, pure_bind, pure_bind, hcall,
    Run.returning_pure]

end Clients

end RestForge.Emit
