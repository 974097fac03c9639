import RestForge.Emit.Client
import RestForge.Emit.Model
import RestForge.Emit.Validators
import RestForge.Proofs.Pieces
import RestForge.Proofs.Reading
import RestForge.Rest.Endpoint

/-!
# The addresses of nested tables

The address of a nested table stands in the generated code several times: the client of its parent
builds its endpoint, its own client has it as a constant, the checks of its parent look its rows up,
and the model of its parent names the key of its rows. This file reads the addresses out of the items
and compares them.

* `constantText?`, `childCall?`, `rowKey?`, `serializedKey?`: what the items say.
* `Descent`, `reached`, `endpoint?`: the way from the root to a nested table, and the endpoint that
  the clients on the way hand on.
* `nested_address_iff`: the addresses agree as long as no wire name on the way holds a slash, and in
  no other case.
-/

set_option autoImplicit false

namespace RestForge.Emit

open Source Naming Schema Text
open Rest (Endpoint)

/-! ## Reading the items -/

def constantText? (i : ImplItem) (name : String) : Option String :=
  match i.constants.find? fun c => c.name == name with
  | some ⟨_, _, _, _, .text s⟩ => some s
  | _ => none

def builtBelow? : Expr → Option (String × String)
  | .call (.path ⟨false, [client, "from_endpoint"]⟩)
      [.method (.path ⟨false, ["endpoint"]⟩) "child" [.text segment] _] _ => some (client, segment)
  | _ => none

def initializes? (code : String) : FieldInit → Option (String × String)
  | .value name e => if name = code then builtBelow? e else none
  | .same _ => none

/-- How the constructor of a client builds the nested client in the field with the given name. -/
def childCall? (i : ImplItem) (code : String) : Option (String × String) :=
  match i.functions.find? fun f => f.name == "from_endpoint" with
  | some f =>
    match f.body with
    | [.expr (.record _ inits _) _] => inits.findSome? (initializes? code)
    | _ => none
  | none => none

/-- The key of the rows that a statement hands to a function of the module with the given name. -/
def rowsFor? (code function : String) : Stmt → Option String
  | .forEach _ (.call (.path p) [_, .text key] _)
      [.expr (.question (.call (.path ⟨false, [module, name]⟩) _ _)) _] =>
    if p = runtime ["validate", "table_rows"] ∧ module = code ∧ name = function then some key
    else none
  | _ => none

/-- The key under which a check looks up the rows of the nested table with the given name. -/
def rowKey? (f : Function) (code : String) : Option String := f.body.findSome? (rowsFor? code f.name)

def wireName? : Attribute → Option String
  | .rename wire => some wire
  | _ => none

def serializedKey? (s : StructItem) (code : String) : Option String :=
  s.fields.findSome? fun f => if f.name = code then f.attrs.findSome? wireName? else none

/-! ## What one table says of the tables below it -/

theorem findSome?_of_unique {α β : Type} {f : α → Option β} {l : List α} {x : α} {y : β}
    (hx : x ∈ l) (hfound : f x = some y) (hunique : ∀ z ∈ l, f z = none ∨ f z = some y) :
    l.findSome? f = some y := by
  induction l with
  | nil => cases hx
  | cons z l ih =>
    rw [List.findSome?_cons]
    obtain hz | hz := hunique z (by simp)
    · rw [hz]
      obtain rfl | hx := List.mem_cons.mp hx
      · rw [hz] at hfound
        cases hfound
      · exact ih hx fun z' hz' => hunique z' (List.mem_cons_of_mem _ hz')
    · rw [hz]

theorem segment_child (p : PlacedTable) (t : Table) :
    (p.child t).segment = lastPiece '/' t.wireName := by
  have hpath : (p.child t).wirePath = p.wirePath ++ String.singleton '/' ++ t.wireName := rfl
  rw [PlacedTable.segment, hpath, lastPiece_append]

theorem path_constant (r : Resource) (names : TypeNames) (p : PlacedTable) :
    constantText? (clientImpl r names p) "PATH" = some p.wirePath := rfl

/-- A documented field has one wire name. -/
theorem renames_modelField (names : TypeNames) (p : PlacedTable) (f : Field) :
    (modelField names p f).attrs.filterMap wireName? = [f.wireName] := by
  have hdocs : (docAttributes (fieldDoc f)).filterMap wireName? = [] := by
    refine List.filterMap_eq_nil_iff.mpr fun a ha => ?_
    obtain ⟨line, -, rfl⟩ := List.mem_map.mp ha
    rfl
  rw [modelField, List.filterMap_append, hdocs]
  rfl

theorem wireName?_modelField (names : TypeNames) (p : PlacedTable) (f : Field) :
    (modelField names p f).attrs.findSome? wireName? = some f.wireName := by
  rw [← List.head?_filterMap, renames_modelField]
  rfl

section Parent

variable {p : PlacedTable} (hp : p.IsNamed) {t : Table} (ht : t ∈ p.children)

include hp ht

theorem eq_of_child_codeName {c : PlacedTable} (hc : c ∈ p.childTables)
    (he : c.codeName = t.codeName) : c = p.child t := by
  rw [← PlacedTable.codeName_child p t] at he
  exact List.inj_on_of_nodup_map hp.child_codes hc (List.mem_map_of_mem ht) he

theorem childCall?_eq (r : Resource) (names : TypeNames) :
    childCall? (clientImpl r names p) t.codeName
      = some (names.client (p.child t), lastPiece '/' t.wireName) := by
  have hbuilt : initializes? t.codeName (childInit names (p.child t))
      = some (names.client (p.child t), lastPiece '/' t.wireName) := by
    rw [childInit, initializes?, PlacedTable.codeName_child, if_pos rfl, segment_child]
    rfl
  have hinits : (p.childTables.map (childInit names) ++ [FieldInit.same "endpoint"]).findSome?
      (initializes? t.codeName) = some (names.client (p.child t), lastPiece '/' t.wireName) := by
    refine findSome?_of_unique ?_ hbuilt fun z hz => ?_
    · exact List.mem_append_left _ (List.mem_map_of_mem (List.mem_map_of_mem ht))
    · obtain hz | hz := List.mem_append.mp hz
      · obtain ⟨c, hc, rfl⟩ := List.mem_map.mp hz
        by_cases he : c.codeName = t.codeName
        · rw [eq_of_child_codeName hp ht hc he]
          exact .inr hbuilt
        · exact .inl (if_neg he)
      · rw [List.mem_singleton.mp hz]
        exact .inl rfl
  exact hinits

theorem rowKey?_eq (check : Check) :
    rowKey? (checkFunction p check) t.codeName = some (lastPiece '/' t.wireName) := by
  have hrows : ∀ c : PlacedTable, rowsFor? t.codeName check.name (rowCheck check c)
      = if c.codeName = t.codeName then some c.segment else none := by
    intro c
    simp [rowCheck, rowsFor?, callPath, Stmt.run, Path.rel]
  have hmem : rowCheck check (p.child t) ∈ checkBody p check := by
    have hrow : rowCheck check (p.child t) ∈ p.childTables.map (rowCheck check) :=
      List.mem_map_of_mem (List.mem_map_of_mem ht)
    simp only [checkBody, List.mem_append]
    exact .inl (.inr hrow)
  refine findSome?_of_unique hmem ?_ fun s hs => ?_
  · exact (hrows _).trans (by rw [PlacedTable.codeName_child, if_pos rfl, segment_child])
  · change s ∈ checkBody p check at hs
    simp only [checkBody, List.mem_append, List.mem_map, List.mem_singleton] at hs
    obtain ((hs | rfl) | ⟨c, hc, rfl⟩) | rfl := hs
    · cases check with
      | create =>
        rw [List.mem_singleton.mp hs]
        exact .inl rfl
      | update => cases hs
    · exact .inl rfl
    · by_cases he : c.codeName = t.codeName
      · rw [eq_of_child_codeName hp ht hc he]
        exact .inr ((hrows _).trans (by rw [PlacedTable.codeName_child, if_pos rfl, segment_child]))
      · exact .inl ((hrows c).trans (if_neg he))
    · exact .inl rfl

theorem serializedKey?_eq (names : TypeNames) :
    serializedKey? (modelStruct names p) t.codeName = some t.wireName := by
  have hrename := wireName?_modelField names p
  obtain ⟨f, hf, hwire, hcode⟩ := hp.here.field_of_child ht
  refine findSome?_of_unique (List.mem_map_of_mem hf) ?_ fun z hz => ?_
  · exact (if_pos hcode).trans (by rw [hrename, hwire])
  · obtain ⟨g, hg, rfl⟩ := List.mem_map.mp hz
    by_cases he : g.codeName = t.codeName
    · rw [hp.here.field_unique hg hf (he.trans hcode.symm), hrename, hwire]
      exact .inr (if_pos hcode)
    · exact .inl (if_neg he)

end Parent

/-! ## The way to a nested table -/

/-- Each table is one of those directly below the one before. -/
def Descent : PlacedTable → List Table → Prop
  | _, [] => True
  | p, t :: ts => t ∈ p.children ∧ Descent (p.child t) ts

def reached (p : PlacedTable) (ts : List Table) : PlacedTable := ts.foldl PlacedTable.child p

/-- The endpoint at the end of the way, if each client builds the next one on it. -/
def endpointFrom? (r : Resource) (names : TypeNames) :
    PlacedTable → Endpoint → List Table → Option Endpoint
  | _, e, [] => some e
  | p, e, t :: ts =>
    match childCall? (clientImpl r names p) t.codeName with
    | some (client, segment) =>
      if client = (clientImpl r names (p.child t)).target then
        endpointFrom? r names (p.child t) (e.child segment) ts
      else none
    | none => none

/-- The endpoint of a nested client, beginning with the path constant of the root client. -/
def endpoint? (r : Resource) (names : TypeNames) (ts : List Table) : Option Endpoint :=
  let root := PlacedTable.ofResource r
  match constantText? (clientImpl r names root) "PATH" with
  | some path => endpointFrom? r names root ⟨r.category, path⟩ ts
  | none => none

def extended (path : String) (names : List String) : String :=
  names.foldl (fun path name => path ++ "/" ++ name) path

theorem reached_wirePath (p : PlacedTable) (ts : List Table) :
    (reached p ts).wirePath = extended p.wirePath (ts.map Table.wireName) := by
  induction ts generalizing p with
  | nil => rfl
  | cons t ts ih =>
    rw [reached, List.foldl_cons, ← reached, ih]
    rfl

theorem isNamed_of_descent {p : PlacedTable} (hp : p.IsNamed) {ts : List Table}
    (hts : Descent p ts) : (reached p ts).IsNamed := by
  induction ts generalizing p with
  | nil => exact hp
  | cons t ts ih => exact ih (hp.child (List.mem_map_of_mem hts.1)) hts.2

theorem descent_concat {p : PlacedTable} {ts : List Table} {t : Table} :
    Descent p (ts ++ [t]) ↔ Descent p ts ∧ t ∈ (reached p ts).children := by
  induction ts generalizing p with
  | nil => simp [Descent, reached]
  | cons u ts ih =>
    rw [List.cons_append, Descent, Descent, ih, and_assoc]
    rfl

/-- The clients on the way hand on the last pieces of the wire names. -/
theorem endpointFrom?_eq {r : Resource} {names : TypeNames} {p : PlacedTable} (hp : p.IsNamed)
    {ts : List Table} (hts : Descent p ts) (e : Endpoint) :
    endpointFrom? r names p e ts
      = some ⟨e.category, extended e.path (ts.map fun t => lastPiece '/' t.wireName)⟩ := by
  induction ts generalizing p e with
  | nil => rfl
  | cons t ts ih =>
    obtain ⟨ht, hrest⟩ := hts
    rw [endpointFrom?, childCall?_eq hp ht]
    simp only [clientImpl, if_true]
    rw [ih (hp.child (List.mem_map_of_mem ht)) hrest]
    rfl

/-! ## Slashes -/

def slashes (s : String) : Nat := s.toList.count '/'

theorem slashes_extended (path : String) (names : List String) :
    slashes (extended path names)
      = slashes path + names.length + (names.flatMap String.toList).count '/' := by
  induction names generalizing path with
  | nil => simp [extended]
  | cons name names ih =>
    have hstep : slashes (path ++ "/" ++ name) = slashes path + 1 + slashes name := by
      have hslash : "/".toList.count '/' = 1 := rfl
      simp only [slashes, String.toList_append, List.count_append, hslash]
    have hname : slashes name = name.toList.count '/' := rfl
    rw [extended, List.foldl_cons, ← extended, ih, hstep, List.length_cons, List.flatMap_cons,
      List.count_append]
    omega

/-- Names and their last pieces make the same path only if no name holds a slash: with one, the path
of the names has more slashes. -/
theorem extended_lastPiece_eq_iff (path : String) (names : List String) :
    extended path (names.map (lastPiece '/')) = extended path names
      ↔ ∀ name ∈ names, '/' ∉ name.toList := by
  constructor
  · intro h
    have hcount := congrArg slashes h
    have hpieces : ((names.map (lastPiece '/')).flatMap String.toList).count '/' = 0 := by
      apply List.count_eq_zero.mpr
      intro hmem
      obtain ⟨piece, hpiece, hslash⟩ := List.mem_flatMap.mp hmem
      obtain ⟨name, -, rfl⟩ := List.mem_map.mp hpiece
      exact notMem_lastPiece '/' name hslash
    rw [slashes_extended, slashes_extended, hpieces, List.length_map] at hcount
    have hnames : (names.flatMap String.toList).count '/' = 0 := by omega
    intro name hname hslash
    exact List.count_eq_zero.mp hnames (List.mem_flatMap.mpr ⟨name, hname, hslash⟩)
  · intro h
    have hmap : names.map (lastPiece '/') = names := by
      conv_rhs => rw [← List.map_id names]
      exact List.map_congr_left fun name hname => lastPiece_eq_self_iff.mpr (h name hname)
    rw [hmap]

/-! ## The addresses compared -/

theorem reached_mem_walk {p : PlacedTable} {ts : List Table} (hts : Descent p ts) :
    reached p ts ∈ p.walk := by
  induction ts generalizing p with
  | nil =>
    rw [PlacedTable.walk_eq]
    exact List.mem_cons_self
  | cons t ts ih =>
    rw [PlacedTable.walk_eq]
    have hchild : p.child t ∈ p.childTables := List.mem_map_of_mem hts.1
    exact List.mem_cons_of_mem _ (List.mem_flatMap.mpr ⟨p.child t, hchild, ih hts.2⟩)

/-- **The addresses of a nested table agree exactly as far as its names hold no slash.** For every
nested table of a resource that was read: its own path constant is the path of its parent, a slash
and its wire name, and the model of its parent writes it under that name. The endpoint that the
clients on the way hand on has that path if and only if no wire name on the way holds a slash, and
the checks of its parent look its rows up under its wire name if and only if this one holds none. -/
theorem nested_address_iff {steps : List NamingStep} {r : Resource} (h : r ∈ resourcesRead steps)
    (names : TypeNames) {ts : List Table} {t : Table}
    (hts : Descent (PlacedTable.ofResource r) (ts ++ [t])) :
    ∃ parent nested, parent = reached (PlacedTable.ofResource r) ts ∧ nested = parent.child t
      ∧ parent ∈ r.tables ∧ nested ∈ r.tables
      ∧ ∃ e parentPath path, endpoint? r names (ts ++ [t]) = some e
        ∧ constantText? (clientImpl r names parent) "PATH" = some parentPath
        ∧ constantText? (clientImpl r names nested) "PATH" = some path
        ∧ path = parentPath ++ "/" ++ t.wireName
        ∧ (e.path = path ↔ ∀ u ∈ ts ++ [t], '/' ∉ u.wireName.toList)
        ∧ serializedKey? (modelStruct names parent) t.codeName = some t.wireName
        ∧ ∀ check, ∃ key, rowKey? (checkFunction parent check) t.codeName = some key
          ∧ (key = t.wireName ↔ '/' ∉ t.wireName.toList) := by
  have hroot := PlacedTable.isNamed_ofResource h
  obtain ⟨hparent, ht⟩ := descent_concat.mp hts
  have hnamed := isNamed_of_descent hroot hparent
  have hreached : reached (PlacedTable.ofResource r) (ts ++ [t])
      = (reached (PlacedTable.ofResource r) ts).child t := List.foldl_concat ..
  have hpath := reached_wirePath (PlacedTable.ofResource r) (ts ++ [t])
  rw [hreached] at hpath
  have hmem := reached_mem_walk hts
  rw [hreached] at hmem
  refine ⟨_, _, rfl, rfl, reached_mem_walk hparent, hmem, _, _, _, endpointFrom?_eq hroot hts _,
    path_constant _ _ _, path_constant _ _ _, rfl, ?_, serializedKey?_eq hnamed ht names,
    fun check => ⟨_, rowKey?_eq hnamed ht check, lastPiece_eq_self_iff⟩⟩
  have hpieces := extended_lastPiece_eq_iff r.wirePath ((ts ++ [t]).map Table.wireName)
  rw [List.map_map] at hpieces
  rw [hpath]
  refine hpieces.trans ?_
  simp only [List.mem_map, forall_exists_index, and_imp, forall_apply_eq_imp_iff₂]

/-! ## A nested table with a slash in its name -/

def slashField : Json :=
  .object [("children", .array []), ("name", .string "a/b"), ("type", .string "table")]

def slashDocument : Json :=
  .object
    [("category", .string "config"), ("fields", .array [slashField]),
      ("methods", .array [.string "GET"]), ("path", .string "x")]

def slashTable : Table := ⟨"a/b", "a_b", none, none, [], []⟩

def slashResource : Resource :=
  ⟨.config, ["x"], ["x"], none, none, [.plain "a/b" "a_b" .nestedTable], [slashTable], [.get]⟩

theorem slashResource_read : slashResource ∈ resourcesRead [.read 4 slashDocument] := by
  let modules := NameTable.empty.add (Scope.modules "config") "x" "x"
  let fields := modules.add (Scope.fields "config.x") "a/b" "a_b"
  have hmodules : readModules "config" ["x"] .empty = (.ok ["x"], modules) :=
    readModules_single (by decide) (by simp) (by simp)
  have hname : giveName (Scope.fields "config.x") "a/b" modules = (.ok "a_b", fields) := by
    refine giveName_free (by decide) ?_ ?_
    · simp [modules, Scope.fields, Scope.modules, NameTable.codeName?_add]
    · simp [modules, Scope.fields, Scope.modules, NameTable.wireName?_add]
  have hfield : readField (readTable 4 3) "config.x" ⟨[0]⟩ [] slashField modules
      = (.ok (.plain "a/b" "a_b" .nestedTable, some slashTable), fields) := by
    refine (lift_ok_bind (x := (⟨"a/b", .nestedTable, false, [], none⟩ : FieldHead)) rfl).trans ?_
    refine (ok_bind hname).trans ?_
    rfl
  have hfields : readFields (readTable 4 3) "config.x" ⟨[]⟩ 0 [] [slashField] modules
      = (.ok ([.plain "a/b" "a_b" .nestedTable], [slashTable]), fields) := by
    refine (ok_bind hfield).trans ?_
    rfl
  have hread : readResource 4 slashDocument .empty = (.ok slashResource, fields) := by
    refine (lift_ok_bind rfl).trans ?_
    refine (lift_ok_bind (x := (⟨.config, ["x"], [.get]⟩ : Header)) rfl).trans ?_
    refine (ok_bind hmodules).trans ?_
    refine (lift_ok_bind (x := none) rfl).trans ?_
    refine (lift_ok_bind rfl).trans ?_
    refine (ok_bind hfields).trans ?_
    rfl
  exact mem_resourcesRead_of_read hread

theorem slashTable_descent :
    Descent (PlacedTable.ofResource slashResource) ([] ++ [slashTable]) :=
  ⟨List.mem_cons_self, trivial⟩

theorem nested_address_of_slashTable :
    slashResource ∈ resourcesRead [.read 4 slashDocument]
      ∧ Descent (PlacedTable.ofResource slashResource) ([] ++ [slashTable])
      ∧ ∀ names : TypeNames, ∃ e path, endpoint? slashResource names ([] ++ [slashTable]) = some e
        ∧ constantText? (clientImpl slashResource names
            ((PlacedTable.ofResource slashResource).child slashTable)) "PATH" = some path
        ∧ e.path ≠ path := by
  refine ⟨slashResource_read, slashTable_descent, fun names => ?_⟩
  obtain ⟨_, _, rfl, rfl, -, -, e, _, path, he, -, hpath, -, hiff, -⟩ :=
    nested_address_iff slashResource_read names slashTable_descent
  refine ⟨e, path, he, hpath, fun hsame => ?_⟩
  exact hiff.mp hsame slashTable (by simp) (by decide)

/-- Requests of this nested client go to another path than its constant says, and both checks of its
parent look its rows up under another key than its wire name. -/
theorem slashTable_addresses :
    slashResource ∈ resourcesRead [.read 4 slashDocument]
      ∧ ∀ names : TypeNames,
        endpoint? slashResource names [slashTable] = some ⟨.config, "x/b"⟩
        ∧ constantText? (clientImpl slashResource names
            ((PlacedTable.ofResource slashResource).child slashTable)) "PATH" = some "x/a/b"
        ∧ ∀ check, rowKey? (checkFunction (PlacedTable.ofResource slashResource) check) "a_b"
          = some "b" := by
  have hnamed := PlacedTable.isNamed_ofResource slashResource_read
  obtain ⟨hmem, -⟩ := slashTable_descent
  refine ⟨slashResource_read, fun names => ⟨?_, rfl, fun check => ?_⟩⟩
  · exact endpointFrom?_eq hnamed slashTable_descent _
  · exact rowKey?_eq hnamed hmem check

end RestForge.Emit
