import RestForge.Proofs.ModelTypes
import RestForge.Proofs.References
import RestForge.Proofs.TokenStructs

/-!
# The model as a mirror of the schema

* `ValueType`, `MirrorsField`, `MirrorsTable`: a struct that has one field for each field of a table.
* `ListsFields`: an implementation that lists the wire names of the fields of a table.
* `mirrorsTable_modelStruct`, `listsFields_modelImpl`: what is generated for one table.
* `structs_typeItems`, `implsOf_typeItems`: what is read of a file that has both for each table.
* `model_mirrors_schema`: the tokens of a model file have a struct and a list for each table.
-/

set_option autoImplicit false

namespace RestForge.Emit

open Source Naming Schema

/-! ## Fields and tables -/

/-- The type of what a field holds: text, but for whole numbers, truth values and the rows of the one
nested table that has the wire name of the field. -/
inductive ValueType (names : TypeNames) (p : PlacedTable) (f : Field) : Ty → Prop where
  | integer (h : f.type = .integer) : ValueType names p f (.named (.rel ["i64"]))
  | boolean (h : f.type = .boolean) : ValueType names p f (.named (.rel ["bool"]))
  | rows {t : Table} (h : f.type = .nestedTable) (ht : t ∈ p.children)
      (hwire : t.wireName = f.wireName)
      (honly : ∀ t' ∈ p.children, t'.wireName = f.wireName → t' = t) :
      ValueType names p f (applied "Vec" [.named (.rel [names.model (p.child t)])])
  | text (h : f.type ∉ [.integer, .boolean, .nestedTable]) : ValueType names p f textType

structure MirrorsField (names : TypeNames) (p : PlacedTable) (f : Field) (m : FieldText) : Prop where
  identifier : m.name = f.codeName
  wire : m.renames = [f.wireName]
  type : ∃ value, ValueType names p f value ∧ m.type = (applied "Option" [value]).tokens

/-- A struct by its name and the tokens between its braces. -/
structure MirrorsTable (names : TypeNames) (p : PlacedTable) (s : String × List Token) : Prop where
  name : s.1 = names.model p
  fields : ∃ read, fields? s.2 = some read ∧ List.Forall₂ (MirrorsField names p) p.fields read
    ∧ (read.map FieldText.name).Nodup ∧ (read.flatMap FieldText.renames).Nodup

/-- An implementation by its type and the tokens between its braces. -/
structure ListsFields (names : TypeNames) (p : PlacedTable) (i : String × List Token) : Prop where
  target : i.1 = names.model p
  listed : listed? "FIELDS" i.2 = some (p.fields.map Field.wireName)

/-! ## One table -/

theorem child_by_wire {p : PlacedTable} (hp : p.IsNamed) {f : Field} (hf : f ∈ p.fields) {t t' : Table}
    (ht : t ∈ p.children) (ht' : t' ∈ p.children) (he : t.wireName = f.wireName)
    (he' : t'.wireName = f.wireName) : t' = t := by
  have hcode : ∀ t ∈ p.children, t.wireName = f.wireName → t.codeName = f.codeName := by
    intro t ht he
    obtain ⟨g, hg, hwire, hcode⟩ := hp.here.field_of_child ht
    rw [← hcode, List.inj_on_of_nodup_map hp.here.wires hg hf (hwire.trans he)]
  exact List.inj_on_of_nodup_map hp.here.children_codes ht' ht
    ((hcode t' ht' he').trans (hcode t ht he).symm)

theorem valueType_fieldType {p : PlacedTable} (hp : p.IsNamed) (names : TypeNames) {f : Field}
    (hf : f ∈ p.fields) : ValueType names p f (fieldType names p f) := by
  rw [fieldType]
  cases htable : f.isTable with
  | true =>
    have htype : f.type = .nestedTable := beq_iff_eq.mp htable
    obtain ⟨c, hc, hchild⟩ := exists_childFor? hp hf htable
    obtain ⟨t, ht, rfl⟩ := List.mem_map.mp hc
    have hcode : (p.child t).codeName = f.codeName := by
      simpa using List.find?_some hchild
    rw [PlacedTable.codeName_child] at hcode
    -- the table was found by its code name, which only one field has
    obtain ⟨g, hg, hwire, hgcode⟩ := hp.here.field_of_child ht
    rw [hp.here.field_unique hg hf (hgcode.trans hcode)] at hwire
    rw [hchild]
    exact .rows htype ht hwire.symm fun t' ht' he => child_by_wire hp hf ht ht' hwire.symm he
  | false =>
    have hscalar : ValueType names p f (scalarType f) := by
      rw [scalarType]
      cases ht : f.type with
      | integer => exact .integer ht
      | boolean => exact .boolean ht
      | nestedTable => simp [Field.isTable, ht] at htable
      | _ => exact .text (by simp [ht])
    cases p.childFor? f <;> exact hscalar

theorem isComma_named {path : Path} : ∀ t ∈ (Ty.named path).tokens, isComma t = false := by
  intro t ht
  obtain ⟨name, rfl⟩ | ⟨joint, rfl⟩ := Path.mem_tokens ht
  · rfl
  · rfl

theorem isComma_applied {name : String} {ty : Ty} (h : ∀ t ∈ ty.tokens, isComma t = false) :
    ∀ t ∈ (applied name [ty]).tokens, isComma t = false := by
  have htokens : (applied name [ty]).tokens
      = [.word name, .mark '<' false] ++ ty.tokens ++ [.mark '>' false] := by
    simp [applied, Ty.tokens, Ty.tokensAll, commaSeparated, Path.tokens, Path.rel, word, mark]
  rw [htokens, List.forall_mem_append, List.forall_mem_append]
  refine ⟨⟨?_, h⟩, ?_⟩
  · simp [isComma]
  · simp [isComma]

theorem ValueType.isComma {names : TypeNames} {p : PlacedTable} {f : Field} {ty : Ty}
    (h : ValueType names p f ty) : ∀ t ∈ ty.tokens, isComma t = false := by
  cases h with
  | rows => exact isComma_applied isComma_named
  | _ => exact isComma_named

/-- What is read of the field of a struct. -/
def fieldText (names : TypeNames) (p : PlacedTable) (f : Field) : FieldText :=
  ⟨[f.wireName], f.codeName, (applied "Option" [fieldType names p f]).tokens⟩

theorem read_modelField (names : TypeNames) (p : PlacedTable) (f : Field) :
    (modelField names p f).read = fieldText names p f := by
  rw [StructField.read, renames_modelField, fieldText, modelField]

theorem fields?_modelStruct {p : PlacedTable} (hp : p.IsNamed) (names : TypeNames) :
    fields? ((modelStruct names p).fields.flatMap StructField.tokens)
      = some (p.fields.map (fieldText names p)) := by
  have hread : (p.fields.map (modelField names p)).map StructField.read
      = p.fields.map (fieldText names p) := by
    rw [List.map_map]
    exact List.map_congr_left fun f _ => read_modelField names p f
  rw [modelStruct, ← hread]
  refine fields?_tokens (fun f hf => ?_) fun f hf => ?_
  · obtain ⟨g, -, rfl⟩ := List.mem_map.mp hf
    rw [modelField]
  · obtain ⟨g, hg, rfl⟩ := List.mem_map.mp hf
    rw [modelField]
    exact isComma_applied (valueType_fieldType hp names hg).isComma

theorem mirrorsTable_modelStruct {p : PlacedTable} (hp : p.IsNamed) (names : TypeNames) :
    MirrorsTable names p
      (names.model p, (modelStruct names p).fields.flatMap StructField.tokens) := by
  refine ⟨rfl, _, fields?_modelStruct hp names, ?_, ?_, ?_⟩
  · rw [List.forall₂_map_right_iff, List.forall₂_same]
    intro f hf
    exact ⟨rfl, rfl, _, valueType_fieldType hp names hf, rfl⟩
  · rw [List.map_map]
    exact hp.here.codes
  · have hrenames : (p.fields.map (fieldText names p)).flatMap FieldText.renames
        = p.fields.map Field.wireName := by
      rw [List.flatMap_map, List.map_eq_flatMap]
      rfl
    rw [hrenames]
    exact hp.here.wires

theorem texts_of_intercalate (l : List String) :
    (List.intercalate (mark ',') (l.map Source.text)).filterMap textOf? = l := by
  induction l with
  | nil => rfl
  | cons s l ih =>
    have htext : (Source.text s).filterMap textOf? = [s] := by
      simp [Source.text, textOf?, Text.unquote?_literal]
    cases l with
    | nil =>
      rw [List.map_singleton, List.intercalate_singleton]
      exact htext
    | cons s' l =>
      rw [List.map_cons] at ih
      rw [List.map_cons, List.map_cons, List.intercalate_cons_cons, List.filterMap_append,
        List.filterMap_append, ih, htext]
      rfl

theorem texts_of_list (l : List String) :
    (commaSeparated false (Expr.tokensAll (l.map .text))).filterMap textOf? = l := by
  have htokens : Expr.tokensAll (l.map .text) = l.map Source.text := by
    induction l with
    | nil => rfl
    | cons s l ih =>
      rw [List.map_cons, Expr.tokensAll, ih]
      rfl
  rw [htokens]
  cases l with
  | nil => rfl
  | cons s l =>
    have hjoined := texts_of_intercalate (s :: l)
    rw [← List.append_nil (List.intercalate _ _)] at hjoined
    exact hjoined

theorem listsFields_modelImpl (names : TypeNames) (p : PlacedTable) :
    ListsFields names p (names.model p, (modelImpl names p).constants.flatMap Constant.tokens
      ++ (modelImpl names p).functions.flatMap Function.tokens) := by
  refine ⟨rfl, ?_⟩
  have hlisted : listed? "FIELDS" ((modelImpl names p).constants.flatMap Constant.tokens
        ++ (modelImpl names p).functions.flatMap Function.tokens)
      = some ((commaSeparated false (Expr.tokensAll ((p.fields.map Field.wireName).map .text))).filterMap
        textOf?) := rfl
  rw [hlisted, texts_of_list]

/-! ## All tables -/

section Items

variable {S : PlacedTable → StructItem} {I : PlacedTable → ImplItem}

theorem blocksFrom_typeItems (seen : List Token) (p : PlacedTable) (tables : List PlacedTable) :
    blocksFrom seen (Item.tokensAll (typeItems S I (p :: tables)))
      = ⟨seen ++ (S p).header, (S p).fields.flatMap StructField.tokens⟩
        :: ⟨(I p).header, (I p).constants.flatMap Constant.tokens
          ++ (I p).functions.flatMap Function.tokens⟩
        :: blocksFrom [] (Item.tokensAll (typeItems S I tables)) := by
  have htokens : Item.tokensAll (typeItems S I (p :: tables))
      = (S p).tokens ++ ((I p).tokens ++ Item.tokensAll (typeItems S I tables)) := rfl
  rw [htokens, blocksFrom_struct, blocksFrom_impl]

theorem structs_typeItems (himpl : ∀ p body, structIn? ⟨(I p).header, body⟩ = none)
    (seen : List Token) (tables : List PlacedTable) :
    (blocksFrom seen (Item.tokensAll (typeItems S I tables))).filterMap structIn?
      = tables.map fun p => ((S p).name, (S p).fields.flatMap StructField.tokens) := by
  induction tables generalizing seen with
  | nil => rfl
  | cons p tables ih =>
    rw [blocksFrom_typeItems, List.filterMap_cons_some (structIn?_struct seen _ _),
      List.filterMap_cons_none (himpl p _), ih]
    rfl

theorem implsOf_typeItems {path : List String}
    (himpl : ∀ p body, implIn? path ⟨(I p).header, body⟩ = some ((I p).target, body))
    (seen : List Token) (tables : List PlacedTable) :
    (blocksFrom seen (Item.tokensAll (typeItems S I tables))).filterMap (implIn? path)
      = tables.map fun p => ((I p).target, (I p).constants.flatMap Constant.tokens
        ++ (I p).functions.flatMap Function.tokens) := by
  induction tables generalizing seen with
  | nil => rfl
  | cons p tables ih =>
    rw [blocksFrom_typeItems, List.filterMap_cons_none (implIn?_struct path seen _ _),
      List.filterMap_cons_some (himpl p _), ih]
    rfl

end Items

theorem blocks_modelFile (r : Resource) (names : TypeNames) : ∃ seen, blocks (modelFile r names).tokens
    = blocksFrom seen (Item.tokensAll (typeItems (modelStruct names) (modelImpl names) r.tables)) := by
  have hdocs : IsOpen ((modelFile r names).docs.flatMap innerDocTokens) := by
    intro body hbody
    obtain ⟨line, -, hline⟩ := List.mem_flatMap.mp hbody
    simp [innerDocTokens, mark, brackets] at hline
  exact ⟨_, blocksFrom_append [] hdocs _⟩

/-- **The model mirrors the schema.** In the tokens of the model file of a resource that was read and
named in a run there is one struct for each table, in document order and each table before those
nested in it, and it has one field for each field of the table; and there is one implementation for
each table that lists the wire names of its fields. -/
theorem model_mirrors_schema {steps : List NamingStep} {r : Resource} {names : TypeNames} {file : File}
    (hread : r ∈ resourcesRead steps) (hresolved : Run.ResolvedIn steps (r, names))
    (hfile : source r names .model = .ok file) :
    List.Forall₂ (MirrorsTable names) r.tables (structs file.tokens)
      ∧ List.Forall₂ (ListsFields names) r.tables (implsOf ["stencil", "Model"] file.tokens) := by
  have hready := ready_of_run hread hresolved
  obtain rfl : file = modelFile r names := source_ok hfile
  obtain ⟨seen, hblocks⟩ := blocks_modelFile r names
  constructor
  · rw [structs, hblocks, structs_typeItems (fun p body => rfl), List.forall₂_map_right_iff,
      List.forall₂_same]
    intro p hp
    exact mirrorsTable_modelStruct (PlacedTable.isNamed_of_mem_walk hready.named p hp) names
  · rw [implsOf, hblocks, implsOf_typeItems (fun p body => rfl), List.forall₂_map_right_iff,
      List.forall₂_same]
    intro p _
    exact listsFields_modelImpl names p

/-- The struct of a resource with nested rows has a field for them, with the model of the rows. -/
theorem model_mirrors_schema_rows :
    rowsResource ∈ resourcesRead rowsSteps ∧ Run.ResolvedIn rowsSteps (rowsResource, rowsNames)
      ∧ ∃ file, source rowsResource rowsNames .model = .ok file
        ∧ List.Forall₂ (MirrorsTable rowsNames) rowsResource.tables (structs file.tokens)
        ∧ List.Forall₂ (ListsFields rowsNames) rowsResource.tables
          (implsOf ["stencil", "Model"] file.tokens) := by
  have hread : rowsResource ∈ resourcesRead rowsSteps :=
    mem_resourcesFrom_append rowsResource_read [.resolve rowsResource]
  have hfile : source rowsResource rowsNames .model = .ok (tree rowsResource rowsNames .model) := rfl
  exact ⟨hread, rowsResource_resolved, _, hfile,
    model_mirrors_schema hread rowsResource_resolved hfile⟩

end RestForge.Emit
