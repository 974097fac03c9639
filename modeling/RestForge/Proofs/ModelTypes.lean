import RestForge.Proofs.ItemLookup
import RestForge.Proofs.ModelRecords

/-!
# The model types of a resource

The struct generated for a table is a model type with one field for each field of the schema.

* `HasShape`: what values a field of a type takes.
* `Modelled`: a field of the schema and the field of the model for it.
* `exists_modelType`: the model type of every table, read off its struct.
-/

set_option autoImplicit false

namespace RestForge.Emit

open Source Naming
open Rest (FieldShape ModelShape)

/-! ## Fields -/

inductive HasShape : FieldType → FieldShape → Prop where
  | integer : HasShape .integer .integer
  | boolean : HasShape .boolean .boolean
  | rows (m : ModelShape) : HasShape .nestedTable (.rows m)
  | text {t : FieldType} (h : t ∉ [.integer, .boolean, .nestedTable]) : HasShape t .text

structure Modelled (f : Field) (m : ModelField) : Prop where
  code : m.code = f.codeName
  wire : m.wire = f.wireName
  shape : HasShape f.type m.shape

theorem fieldShape?_scalarType {f : Field} (h : f.isTable = false)
    (rows : String → Option ModelShape) :
    ∃ shape, fieldShape? rows (scalarType f) = some shape ∧ HasShape f.type shape := by
  rw [Field.isTable] at h
  rw [scalarType]
  cases ht : f.type with
  | integer => exact ⟨_, rfl, .integer⟩
  | boolean => exact ⟨_, rfl, .boolean⟩
  | nestedTable => simp [ht] at h
  | _ => exact ⟨_, rfl, .text (by decide)⟩

/-- A nested field has a table of its name below. -/
theorem exists_childFor? {p : PlacedTable} (hp : p.IsNamed) {f : Field} (hf : f ∈ p.fields)
    (htable : f.isTable = true) : ∃ c ∈ p.childTables, p.childFor? f = some c := by
  have hmem : (f.wireName, f.codeName) ∈ p.children.map fun t => (t.wireName, t.codeName) := by
    rw [hp.here.paired]
    exact List.mem_map.mpr ⟨f, List.mem_filter.mpr ⟨hf, htable⟩, rfl⟩
  obtain ⟨t, ht, he⟩ := List.mem_map.mp hmem
  have hcode : (p.child t).codeName = f.codeName :=
    (PlacedTable.codeName_child p t).trans (Prod.mk.inj he).2
  cases hfound : p.childFor? f with
  | some c => exact ⟨c, List.mem_of_find?_eq_some hfound, rfl⟩
  | none =>
    have hnone := List.find?_eq_none.mp hfound (p.child t) (List.mem_map_of_mem ht)
    exact absurd hcode (by simpa using hnone)

/-- A field of the struct is a field of the model, if the models of the tables below are known. -/
theorem exists_modelField {p : PlacedTable} (hp : p.IsNamed) (names : TypeNames) {f : Field}
    (hf : f ∈ p.fields) (rows : String → Option ModelShape)
    (hrows : ∀ c ∈ p.childTables, ∃ m, rows (names.model c) = some m) :
    ∃ m, modelField? rows (modelField names p f) = some m ∧ Modelled f m := by
  have hshape : ∃ shape, fieldShape? rows (fieldType names p f) = some shape
      ∧ HasShape f.type shape := by
    rw [fieldType]
    cases htable : f.isTable with
    | true =>
      obtain ⟨c, hc, hchild⟩ := exists_childFor? hp hf htable
      obtain ⟨m, hm⟩ := hrows c hc
      have htype : f.type = .nestedTable := beq_iff_eq.mp htable
      refine ⟨.rows m, ?_, htype ▸ .rows m⟩
      rw [hchild]
      change (rows (names.model c)).map FieldShape.rows = _
      rw [hm, Option.map_some]
    | false =>
      have hscalar := fieldShape?_scalarType htable rows
      cases p.childFor? f <;> exact hscalar
  obtain ⟨shape, he, hshape⟩ := hshape
  refine ⟨⟨f.codeName, f.wireName, shape⟩, ?_, rfl, rfl, hshape⟩
  rw [modelField?, wireName?_modelField]
  change (fieldShape? rows (fieldType names p f)).map _ = _
  rw [he]
  rfl

/-! ## Structs -/

theorem exists_mapM {α β : Type} {f : α → Option β} {R : α → β → Prop} {l : List α}
    (h : ∀ x ∈ l, ∃ y, f x = some y ∧ R x y) : ∃ ys, l.mapM f = some ys ∧ List.Forall₂ R l ys := by
  induction l with
  | nil => exact ⟨[], rfl, .nil⟩
  | cons x l ih =>
    rw [List.forall_mem_cons] at h
    obtain ⟨⟨y, hy, hR⟩, hl⟩ := h
    obtain ⟨ys, hys, hall⟩ := ih hl
    exact ⟨y :: ys, by simp [List.mapM_cons, hy, hys], .cons hR hall⟩

section Types

variable {r : Resource} {names : TypeNames} (h : Ready r names)

include h

theorem model_found {p : PlacedTable} (hp : p ∈ r.tables) :
    (modelFile r names).items.findSome? (struct? (names.model p)) = some (modelStruct names p) :=
  (apart_model h).struct_found (mem_typeItems.mpr ⟨p, hp, .inl rfl⟩)

omit h in
theorem isModel_modelStruct {p : PlacedTable} (hp : p ∈ r.tables) :
    (neededTraits.all (derives (modelStruct names p))
      && (modelFile r names).items.any (isModelImpl (names.model p))) = true := by
  have hderives : ∀ t ∈ neededTraits, derives (modelStruct names p) t = true := by
    intro t ht
    have hmem : t ∈ modelTraits := by
      revert t
      decide
    exact List.any_eq_true.mpr ⟨.derive modelTraits, List.mem_append_right _ List.mem_cons_self,
      List.contains_iff_mem.mpr hmem⟩
  have himpl : (modelFile r names).items.any (isModelImpl (names.model p)) = true :=
    List.any_eq_true.mpr ⟨.impl (modelImpl names p), mem_typeItems.mpr ⟨p, hp, .inr rfl⟩,
      by simp [isModelImpl, modelImpl]⟩
  rw [Bool.and_eq_true, List.all_eq_true]
  exact ⟨hderives, himpl⟩

omit h in
theorem length_walk_lt {p c : PlacedTable} (hc : c ∈ p.childTables) :
    c.walk.length < p.walk.length := by
  have hsublist := List.sublist_flatten_of_mem (List.mem_map_of_mem (f := PlacedTable.walk) hc)
  rw [p.walk_eq, List.length_cons, List.flatMap_def]
  exact Nat.lt_succ_of_le hsublist.length_le

/-- The models of the tables below a table are known one step less deep. -/
theorem exists_modelType {p : PlacedTable} (hp : p ∈ r.tables) {depth : Nat}
    (hdepth : p.walk.length ≤ depth) :
    ∃ m, modelType? (modelFile r names).items depth (names.model p) = some m
      ∧ m.name = names.model p ∧ List.Forall₂ Modelled p.fields m.fields := by
  induction p using PlacedTable.induct generalizing depth with
  | step p ih =>
    have hpos : 0 < p.walk.length := by
      rw [p.walk_eq]
      exact Nat.succ_pos _
    obtain ⟨depth, rfl⟩ : ∃ d, depth = d + 1 := ⟨depth - 1, by omega⟩
    have hbelow : ∀ c ∈ p.childTables, ∃ m,
        (modelType? (modelFile r names).items depth (names.model c)).map ModelType.shape = some m := by
      intro c hc
      have hlength : c.walk.length ≤ depth :=
        Nat.le_of_lt_succ (Nat.lt_of_lt_of_le (length_walk_lt hc) hdepth)
      obtain ⟨m, hm, -⟩ := ih c hc (PlacedTable.mem_walk_of_mem_childTables hp hc) hlength
      exact ⟨m.shape, by rw [hm, Option.map_some]⟩
    have hnamed := PlacedTable.isNamed_of_mem_walk h.named p hp
    obtain ⟨fields, hfields, hall⟩ := exists_mapM fun f hf =>
      exists_modelField hnamed names hf
        (fun name => (modelType? (modelFile r names).items depth name).map ModelType.shape) hbelow
    have hstruct : (modelStruct names p).fields.mapM (modelField? fun name =>
        (modelType? (modelFile r names).items depth name).map ModelType.shape) = some fields := by
      rw [modelStruct, List.mapM_map, Function.comp_def, hfields]
    refine ⟨⟨names.model p, fields⟩, ?_, rfl, hall⟩
    rw [modelType?, model_found h hp, Option.bind_some, if_pos (isModel_modelStruct hp), hstruct,
      Option.map_some]

end Types

end RestForge.Emit
