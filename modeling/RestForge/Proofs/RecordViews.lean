import RestForge.Proofs.ModelTypes
import RestForge.Proofs.SchemaFormat
import RestForge.Proofs.Walks

/-!
# The two views of a model value

* `ModelShape.Distinct`: model types in which no wire name occurs twice, at any depth.
* `FieldShape.Has`, `ModelShape.HasValue`: the values of a type; `hasValue_of_read`: no others are
  read.
* `ModelShape.prune`: a record without undeclared keys and nulls, also in its rows.
* `mem_write`: the members of the record of a value are its fields that are set.
* `write_of_read`: the record of a value that was read is the pruned record.
* `views_agree`: the three laws between the slots of a value and its record.
* `modelType_distinct`: they hold of the model types of a resource.
-/

set_option autoImplicit false

namespace RestForge

/-- Every object has its keys in increasing order, each key once. -/
inductive Json.Ordered : Json → Prop where
  | null : Ordered .null
  | bool (b : Bool) : Ordered (.bool b)
  | number (n : Number) : Ordered (.number n)
  | string (s : String) : Ordered (.string s)
  | array {items : List Json} (items_ordered : ∀ item ∈ items, Ordered item) : Ordered (.array items)
  | object {members : Record} (sorted : KeyedList.Sorted members)
      (values_ordered : ∀ e ∈ members, Ordered e.2) : Ordered (.object members)

theorem Json.Ordered.sorted {members : Record} (h : (Json.object members).Ordered) :
    KeyedList.Sorted members := by
  cases h with
  | object sorted _ => exact sorted

theorem Json.Ordered.value {members : Record} (h : (Json.object members).Ordered)
    {e : String × Json} (he : e ∈ members) : e.2.Ordered := by
  cases h with
  | object _ values_ordered => exact values_ordered e he

theorem Json.Ordered.item {items : List Json} (h : (Json.array items).Ordered) {item : Json}
    (hitem : item ∈ items) : item.Ordered := by
  cases h with
  | array items_ordered => exact items_ordered item hitem

namespace KeyedList

section Inserted

variable {κ α : Type} [DecidableEq κ] [LT κ] [DecidableLT κ] [IsStrictTotalOrder κ (· < ·)]

theorem sorted_insertEach (pairs : List (κ × α)) {l : List (κ × α)} (h : Sorted l) :
    Sorted (pairs.foldl (fun l p => insert p.1 p.2 l) l) := by
  induction pairs generalizing l with
  | nil => exact h
  | cons p pairs ih => exact ih (sorted_alter h _ _)

theorem sorted_ofList (l : List (κ × α)) : Sorted (ofList l) := sorted_insertEach l .nil

end Inserted

end KeyedList

namespace Rest

/-! ## Types and values -/

/-- No wire name occurs twice, in the model and in the models of its rows. -/
inductive ModelShape.Distinct : ModelShape → Prop where
  | model (name : String) {fields : List (String × FieldShape)}
      (wires : (fields.map Prod.fst).Nodup)
      (rows : ∀ wire m, (wire, FieldShape.rows m) ∈ fields → m.Distinct) :
      Distinct (.model name fields)

/-- The values of a shape. -/
inductive FieldShape.Has : FieldShape → FieldValue → Prop where
  | text (s : String) : Has .text (.text s)
  | integer {i : Int} (low : -9223372036854775808 ≤ i) (high : i ≤ 9223372036854775807) :
      Has .integer (.integer i)
  | boolean (b : Bool) : Has .boolean (.boolean b)
  | rows {m : ModelShape} {rows : List ModelValue}
      (length : ∀ row ∈ rows, row.length = m.shapes.length)
      (has : ∀ row ∈ rows, ∀ f v, (f, some v) ∈ m.shapes.zip row → f.2.Has v) :
      Has (.rows m) (.rows rows)

/-- The values of a model type: a slot for each field, empty or with a value of its shape. -/
structure ModelShape.HasValue (m : ModelShape) (slots : ModelValue) : Prop where
  length : slots.length = m.shapes.length
  has : ∀ f v, (f, some v) ∈ m.shapes.zip slots → f.2.Has v

/-! ## Pruned records -/

/-- The members that name a field and are not null. -/
def pruneMembers (pruners : List (String × (Json → Json))) (members : Record) : Record :=
  members.filterMap fun e =>
    if e.2.isNull then none else (pruners.lookup e.1).map fun prune => (e.1, prune e.2)

def pruneRow (prune : Record → Record) : Json → Json
  | .object row => .object (prune row)
  | item => item

def pruneRows (prune : Record → Record) : Json → Json
  | .array items => .array (items.map (pruneRow prune))
  | value => value

mutual

def ModelShape.prune : ModelShape → Record → Record
  | .model _ fields => pruneMembers (fieldPruners fields)

def FieldShape.prune : FieldShape → Json → Json
  | .text => id
  | .integer => id
  | .boolean => id
  | .rows m => pruneRows m.prune

def fieldPruners : List (String × FieldShape) → List (String × (Json → Json))
  | [] => []
  | (wire, shape) :: fields => (wire, shape.prune) :: fieldPruners fields

end

/-- The rows of a table field are objects, and so are the rows in these. -/
inductive ModelShape.RowsAreObjects : ModelShape → Record → Prop where
  | model {name : String} {fields : List (String × FieldShape)} {members : Record}
      (objects : ∀ wire m items, (wire, FieldShape.rows m) ∈ fields →
        (wire, Json.array items) ∈ members → ∀ item ∈ items, ∃ row, item = .object row)
      (below : ∀ wire m items row, (wire, FieldShape.rows m) ∈ fields →
        (wire, Json.array items) ∈ members → Json.object row ∈ items → m.RowsAreObjects row) :
      RowsAreObjects (.model name fields) members

theorem fieldPruners_eq (fields : List (String × FieldShape)) :
    fieldPruners fields = fields.map fun f => (f.1, f.2.prune) := by
  induction fields with
  | nil => rfl
  | cons f fields ih => rw [fieldPruners, ih, List.map_cons]

/-- What is found for the wire names of fields. -/
theorem lookup_map_iff {α : Type} {fields : List (String × FieldShape)}
    (hwires : (fields.map Prod.fst).Nodup) (g : FieldShape → α) {wire : String} {x : α} :
    (fields.map fun f => (f.1, g f.2)).lookup wire = some x
      ↔ ∃ shape, (wire, shape) ∈ fields ∧ g shape = x := by
  constructor
  · intro h
    obtain ⟨before, after, he, -⟩ := List.lookup_eq_some_iff.mp h
    have hmem : (wire, x) ∈ fields.map fun f => (f.1, g f.2) := by
      rw [he]
      exact List.mem_append_right _ List.mem_cons_self
    obtain ⟨⟨wire', shape⟩, hf, he⟩ := List.mem_map.mp hmem
    obtain ⟨rfl, rfl⟩ := Prod.mk.inj he
    exact ⟨shape, hf, rfl⟩
  · rintro ⟨shape, hf, rfl⟩
    refine Emit.lookup_of_mem ?_ (List.mem_map.mpr ⟨_, hf, rfl⟩)
    rwa [List.map_map]

theorem sorted_pruneMembers {pruners : List (String × (Json → Json))} {members : Record}
    (h : KeyedList.Sorted members) : KeyedList.Sorted (pruneMembers pruners members) := by
  refine List.Pairwise.filterMap _ (fun e e' hlt p hp p' hp' => ?_) h
  have hkey : ∀ {e p : String × Json}, (if e.2.isNull then none
      else (pruners.lookup e.1).map fun prune => (e.1, prune e.2)) = some p → p.1 = e.1 := by
    intro e p hp
    split at hp
    · cases hp
    · obtain ⟨prune, -, rfl⟩ := Option.map_eq_some_iff.mp hp
      rfl
  rw [hkey hp, hkey hp']
  exact hlt

theorem mem_pruneMembers {fields : List (String × FieldShape)}
    (hwires : (fields.map Prod.fst).Nodup) {members : Record} {wire : String} {j : Json} :
    (wire, j) ∈ pruneMembers (fieldPruners fields) members
      ↔ ∃ shape value, (wire, shape) ∈ fields ∧ (wire, value) ∈ members ∧ value.isNull = false
        ∧ shape.prune value = j := by
  rw [fieldPruners_eq, pruneMembers, List.mem_filterMap]
  constructor
  · rintro ⟨⟨key, value⟩, hmem, h⟩
    split at h
    · cases h
    · rename_i hnull
      obtain ⟨prune, hprune, he⟩ := Option.map_eq_some_iff.mp h
      obtain ⟨rfl, rfl⟩ := Prod.mk.inj he
      obtain ⟨shape, hf, rfl⟩ := (lookup_map_iff hwires FieldShape.prune).mp hprune
      exact ⟨shape, value, hf, hmem, by simpa using hnull, rfl⟩
  · rintro ⟨shape, value, hf, hmem, hnull, rfl⟩
    refine ⟨(wire, value), hmem, ?_⟩
    rw [if_neg (by simp [hnull]), (lookup_map_iff hwires FieldShape.prune).mpr ⟨shape, hf, rfl⟩]
    rfl

/-! ## What is read -/

theorem mapM_ok_iff {ε α β : Type} {f : α → Except ε β} {xs : List α} {ys : List β} :
    xs.mapM f = .ok ys ↔ List.Forall₂ (fun x y => f x = .ok y) xs ys := by
  induction xs generalizing ys with
  | nil => simp [pure, Except.pure, eq_comm]
  | cons x xs ih =>
    rw [List.mapM_cons, List.forall₂_cons_left_iff]
    simp only [Schema.except_bind_ok_iff, ih]
    constructor
    · rintro ⟨y, hy, ys', hys', he⟩
      exact ⟨y, ys', hy, hys', (Except.ok.inj he).symm⟩
    · rintro ⟨y, ys', hy, hys', rfl⟩
      exact ⟨y, hy, ys', hys', rfl⟩

theorem Reader.optional_some_iff {α : Type} {read : Reader α} {j : Json} {v : α} :
    Reader.optional read j = .ok (some v) ↔ j.isNull = false ∧ read j = .ok v := by
  cases hnull : j.isNull with
  | true =>
    cases j <;> cases hnull
    simp [optional]
  | false =>
    rw [optional_of_notNull hnull]
    cases read j <;> simp [Except.map]

section Members

variable {readers : FieldReaders} {members : Record} {found : List (String × FieldValue)}

theorem readMembers_cons {key : String} {value : Json} {read : Reader FieldValue}
    (hread : readers.lookup key = some read) :
    readMembers readers ((key, value) :: members) = .ok found
      ↔ ∃ slot rest, Reader.optional read value = .ok slot ∧ readMembers readers members = .ok rest
        ∧ found = (slot.map fun v => (key, v)).toList ++ rest := by
  rw [readMembers, hread]
  simp only [Schema.except_bind_ok_iff]
  constructor
  · rintro ⟨slot, hslot, rest, hrest, he⟩
    exact ⟨slot, rest, hslot, hrest, (Except.ok.inj he).symm⟩
  · rintro ⟨slot, rest, hslot, hrest, rfl⟩
    exact ⟨slot, hslot, rest, hrest, rfl⟩

/-- The fields that are found set are the members that name a field and are not null. -/
theorem mem_found (h : readMembers readers members = .ok found) {key : String} {v : FieldValue} :
    (key, v) ∈ found ↔ ∃ read value, (key, value) ∈ members ∧ readers.lookup key = some read
      ∧ value.isNull = false ∧ read value = .ok v := by
  induction members generalizing found with
  | nil =>
    cases h
    simp
  | cons e members ih =>
    obtain ⟨k, first⟩ := e
    cases hread : readers.lookup k with
    | none =>
      rw [readMembers, hread] at h
      rw [ih h]
      constructor
      · rintro ⟨read, value, hmem, hrest⟩
        exact ⟨read, value, List.mem_cons_of_mem _ hmem, hrest⟩
      · rintro ⟨read, value, hmem, hlookup, hrest⟩
        obtain hsame | hmem := List.mem_cons.mp hmem
        · obtain ⟨rfl, rfl⟩ := Prod.mk.inj hsame
          cases hread.symm.trans hlookup
        · exact ⟨read, value, hmem, hlookup, hrest⟩
    | some reader =>
      obtain ⟨slot, rest, hslot, hrest, rfl⟩ := (readMembers_cons hread).mp h
      rw [List.mem_append, ih hrest]
      constructor
      · rintro (hfirst | ⟨read, value, hmem, hlater⟩)
        · obtain ⟨w, rfl, he⟩ : ∃ w, slot = some w ∧ (k, w) = (key, v) := by
            simpa using hfirst
          obtain ⟨rfl, rfl⟩ := Prod.mk.inj he
          exact ⟨reader, first, List.mem_cons_self, hread, Reader.optional_some_iff.mp hslot⟩
        · exact ⟨read, value, List.mem_cons_of_mem _ hmem, hlater⟩
      · rintro ⟨read, value, hmem, hlookup, hlater⟩
        obtain hsame | hmem := List.mem_cons.mp hmem
        · obtain ⟨rfl, rfl⟩ := Prod.mk.inj hsame
          cases hread.symm.trans hlookup
          cases hslot.symm.trans (Reader.optional_some_iff.mpr hlater)
          exact .inl (by simp)
        · exact .inr ⟨read, value, hmem, hlookup, hlater⟩

/-- A member that names a field fits it, or it is null. -/
theorem member_read (h : readMembers readers members = .ok found) {key : String} {value : Json}
    {read : Reader FieldValue} (hmem : (key, value) ∈ members)
    (hread : readers.lookup key = some read) (hnull : value.isNull = false) :
    ∃ v, read value = .ok v := by
  induction members generalizing found with
  | nil => cases hmem
  | cons e members ih =>
    obtain ⟨k, first⟩ := e
    obtain hsame | hmem := List.mem_cons.mp hmem
    · obtain ⟨rfl, rfl⟩ := Prod.mk.inj hsame
      obtain ⟨slot, -, hslot, -⟩ := (readMembers_cons hread).mp h
      rw [Reader.optional_of_notNull hnull] at hslot
      cases hvalue : read value with
      | error e =>
        rw [hvalue] at hslot
        cases hslot
      | ok v => exact ⟨v, rfl⟩
    · cases hfirst : readers.lookup k with
      | none =>
        rw [readMembers, hfirst] at h
        exact ih h hmem
      | some reader =>
        obtain ⟨-, rest, -, hrest, -⟩ := (readMembers_cons hfirst).mp h
        exact ih hrest hmem

theorem found_sublist (h : readMembers readers members = .ok found) :
    (found.map Prod.fst).Sublist (members.map Prod.fst) := by
  induction members generalizing found with
  | nil =>
    cases h
    exact .slnil
  | cons e members ih =>
    obtain ⟨k, first⟩ := e
    cases hread : readers.lookup k with
    | none =>
      rw [readMembers, hread] at h
      exact (ih h).cons k
    | some reader =>
      obtain ⟨slot, rest, -, hrest, rfl⟩ := (readMembers_cons hread).mp h
      cases slot with
      | none => exact (ih hrest).cons k
      | some v => exact (ih hrest).cons_cons k

end Members

/-- The slots that a record gives. -/
theorem read_object_iff {name : String} {fields : List (String × FieldShape)} {members : Record}
    {slots : ModelValue} :
    (ModelShape.model name fields).read (.object members) = .ok slots
      ↔ ∃ found, readMembers (fieldReaders fields) members = .ok found
        ∧ slots = fields.map fun f => found.lookup f.1 := by
  have hslots : ∀ found : List (String × FieldValue),
      (fieldReaders fields).map (fun r => found.lookup r.1) = fields.map fun f => found.lookup f.1 := by
    intro found
    rw [fieldReaders_eq, List.map_map]
    rfl
  rw [ModelShape.read, readModel, readRecord]
  simp only [Schema.except_bind_ok_iff, hslots]
  constructor
  · rintro ⟨found, hfound, he⟩
    exact ⟨found, hfound, (Except.ok.inj he).symm⟩
  · rintro ⟨found, hfound, rfl⟩
    exact ⟨found, hfound, rfl⟩

theorem mem_zip_map {α β : Type} {l : List α} {g : α → β} {x : α} {y : β} :
    (x, y) ∈ l.zip (l.map g) ↔ x ∈ l ∧ g x = y := by
  have hzip : l.zip (l.map g) = l.map fun a => (a, g a) := by
    induction l with
    | nil => rfl
    | cons a l ih => rw [List.map_cons, List.zip_cons_cons, ih, List.map_cons]
  rw [hzip]
  simp

/-- A slot that a record sets is read from the member with the wire name of the field. -/
theorem mem_slots_iff {fields : List (String × FieldShape)} {members : Record}
    {found : List (String × FieldValue)} (hwires : (fields.map Prod.fst).Nodup)
    (hkeys : (members.map Prod.fst).Nodup)
    (hfound : readMembers (fieldReaders fields) members = .ok found) {wire : String}
    {shape : FieldShape} {v : FieldValue} :
    ((wire, shape), some v) ∈ fields.zip (fields.map fun f => found.lookup f.1)
      ↔ (wire, shape) ∈ fields ∧ ∃ value, (wire, value) ∈ members ∧ value.isNull = false
        ∧ shape.read value = .ok v := by
  have hlookup : found.lookup wire = some v ↔ (wire, v) ∈ found := by
    constructor
    · intro h
      obtain ⟨before, after, rfl, -⟩ := List.lookup_eq_some_iff.mp h
      exact List.mem_append_right _ List.mem_cons_self
    · exact Emit.lookup_of_mem (hkeys.sublist (found_sublist hfound))
  rw [mem_zip_map, hlookup, mem_found hfound, fieldReaders_eq]
  refine and_congr_right fun hf => ?_
  have hreader := (lookup_map_iff hwires FieldShape.read).mpr ⟨shape, hf, rfl⟩
  constructor
  · rintro ⟨read, value, hmem, hread, hrest⟩
    cases hread.symm.trans hreader
    exact ⟨value, hmem, hrest⟩
  · rintro ⟨value, hmem, hrest⟩
    exact ⟨_, value, hmem, hreader, hrest⟩

/-! ## What is written -/

theorem sorted_write (m : ModelShape) (slots : ModelValue) :
    KeyedList.Sorted (m.write slots) := by
  cases m with
  | model name fields => exact KeyedList.sorted_ofList _

/-- The members of the record are the fields that are set. -/
theorem mem_write {name : String} {fields : List (String × FieldShape)}
    (hwires : (fields.map Prod.fst).Nodup) {slots : ModelValue} {wire : String} {j : Json} :
    (wire, j) ∈ (ModelShape.model name fields).write slots
      ↔ ∃ shape v, ((wire, shape), some v) ∈ fields.zip slots ∧ shape.write v = j := by
  have hkeys : (((setFields fields slots).map fun e => (e.1.1, e.1.2.write e.2)).map
      Prod.fst).Nodup := by
    rw [List.map_map]
    exact hwires.sublist (setFields_sublist fields slots)
  rw [write_eq]
  constructor
  · intro h
    obtain ⟨⟨⟨key, shape⟩, v⟩, hset, he⟩ := List.mem_map.mp (KeyedList.mem_of_mem_ofList h)
    obtain ⟨rfl, rfl⟩ := Prod.mk.inj he
    exact ⟨shape, v, mem_setFields.mp hset, rfl⟩
  · rintro ⟨shape, v, hset, rfl⟩
    exact KeyedList.mem_ofList_of_mem hkeys (List.mem_map.mpr ⟨_, mem_setFields.mpr hset, rfl⟩)

/-- One field of the record. -/
theorem field?_iff {m : ModelShape} {slots : ModelValue} {wire : String} {j : Json} :
    m.field? slots wire = some j ↔ (wire, j) ∈ m.write slots :=
  (KeyedList.mem_iff_get? (sorted_write m slots)).symm

/-! ## From the slots to the record and back -/

/-- What is written of a value is read as that value. -/
theorem FieldShape.Has.restores {shape : FieldShape} {v : FieldValue} (hv : shape.Has v)
    (hdistinct : ∀ m, shape = .rows m → m.Distinct) : shape.Restores v := by
  induction hv with
  | text s => exact ⟨rfl, rfl⟩
  | integer low high => exact ⟨rfl, by simp [FieldShape.read, write, scalarJson, Reader.int64,
      Reader.wholeWithin, low, high, Except.map]⟩
  | boolean b => exact ⟨rfl, rfl⟩
  | @rows m rows length has ih =>
    refine ⟨rfl, ?_⟩
    cases hdistinct m rfl with
    | @model name fields wires below =>
      have hrow : ∀ row ∈ rows, (ModelShape.model name fields).read
          (.object ((ModelShape.model name fields).write row)) = .ok row := by
        intro row hrow
        refine read_write wires (List.forall₂_iff_zip.mpr ⟨(length row hrow).symm, ?_⟩)
        rintro f s hf v rfl
        refine ih row hrow f v hf fun m hm => below f.1 m ?_
        rw [← hm]
        exact (List.of_mem_zip hf).1
      have hrows : (rows.map fun row => Json.object ((ModelShape.model name fields).write row)).mapM
          (ModelShape.model name fields).read = .ok rows := by
        rw [mapM_ok_iff, List.forall₂_map_left_iff, List.forall₂_same]
        exact hrow
      simp only [FieldShape.read, write, rowsJson, Reader.items, hrows, Except.map]

theorem read_write_of_hasValue {m : ModelShape} (hm : m.Distinct) {slots : ModelValue}
    (hslots : m.HasValue slots) : m.read (.object (m.write slots)) = .ok slots := by
  cases hm with
  | @model name fields wires below =>
    refine read_write wires (List.forall₂_iff_zip.mpr ⟨hslots.length.symm, ?_⟩)
    rintro f s hf v rfl
    refine (hslots.has f v hf).restores fun m hm => below f.1 m ?_
    rw [← hm]
    exact (List.of_mem_zip hf).1

/-! ## From a record to the slots and back -/

/-- What is read of a scalar is written as it was, and what is read of rows is written row by row. -/
theorem FieldShape.write_of_read {shape : FieldShape} {value : Json} {v : FieldValue}
    (hread : shape.read value = .ok v)
    (hrows : ∀ m items, shape = .rows m → value = .array items →
      ∀ item ∈ items, ∃ row, item = .object row
        ∧ ∀ slots, m.read (.object row) = .ok slots → m.write slots = m.prune row) :
    shape.write v = shape.prune value := by
  cases shape with
  | text => cases value <;> cases hread; rfl
  | boolean => cases value <;> cases hread; rfl
  | integer =>
    simp only [FieldShape.read, Reader.int64, Reader.wholeWithin] at hread
    split at hread
    · split at hread <;> cases hread
      rfl
    · cases hread
  | rows m =>
    cases value with
    | array items =>
      simp only [FieldShape.read, Reader.items] at hread
      cases hslots : items.mapM m.read with
      | error e =>
        rw [hslots] at hread
        cases hread
      | ok rows =>
        rw [hslots] at hread
        cases hread
        have hall : List.Forall₂ (fun item row => Json.object (m.write row) = pruneRow m.prune item)
            items rows := by
          refine List.forall₂_iff_zip.mpr ⟨(mapM_ok_iff.mp hslots).length_eq, fun {item row} hmem => ?_⟩
          obtain ⟨members, rfl, hwrite⟩ := hrows m items rfl rfl item (List.of_mem_zip hmem).1
          rw [pruneRow, hwrite row ((List.forall₂_iff_zip.mp (mapM_ok_iff.mp hslots)).2 hmem)]
        have hmap : rows.map (fun row => Json.object (m.write row)) = items.map (pruneRow m.prune) := by
          rw [← List.forall₂_eq_eq_eq, List.forall₂_map_left_iff, List.forall₂_map_right_iff]
          exact hall.flip
        exact congrArg Json.array hmap
    | _ => cases hread

/-- The record of a value that was read is the pruned record. -/
theorem write_of_read {m : ModelShape} (hm : m.Distinct) {members : Record} {slots : ModelValue}
    (hordered : (Json.object members).Ordered) (hobjects : m.RowsAreObjects members)
    (hread : m.read (.object members) = .ok slots) : m.write slots = m.prune members := by
  induction hm generalizing members slots with
  | @model name fields wires rows ih =>
    obtain ⟨objects, below⟩ := hobjects
    obtain ⟨found, hfound, rfl⟩ := read_object_iff.mp hread
    have hsorted := hordered.sorted
    have hkeys : (members.map Prod.fst).Nodup := KeyedList.nodup_keys hsorted
    have hfield : ∀ {wire shape value v}, (wire, shape) ∈ fields → (wire, value) ∈ members →
        FieldShape.read shape value = .ok v → shape.write v = shape.prune value := by
      intro wire shape value v hf hmem hv
      refine FieldShape.write_of_read hv ?_
      rintro m items rfl rfl item hitem
      obtain ⟨row, rfl⟩ := objects wire m items hf hmem item hitem
      have hrow := (hordered.value hmem).item hitem
      exact ⟨row, rfl, fun slots hslots =>
        ih wire m hf hrow (below wire m items row hf hmem hitem) hslots⟩
    have hprune : (ModelShape.model name fields).prune members
        = pruneMembers (fieldPruners fields) members := rfl
    rw [hprune]
    refine KeyedList.sorted_ext_mem (sorted_pruneMembers hsorted) (sorted_write _ _) ?_
    rintro ⟨wire, j⟩
    rw [mem_write wires, mem_pruneMembers wires]
    constructor
    · rintro ⟨shape, v, hslot, rfl⟩
      obtain ⟨hf, value, hmem, hnull, hv⟩ := (mem_slots_iff wires hkeys hfound).mp hslot
      exact ⟨shape, value, hf, hmem, hnull, (hfield hf hmem hv).symm⟩
    · rintro ⟨shape, value, hf, hmem, hnull, rfl⟩
      have hreader : (fieldReaders fields).lookup wire = some shape.read := by
        rw [fieldReaders_eq]
        exact (lookup_map_iff wires FieldShape.read).mpr ⟨shape, hf, rfl⟩
      obtain ⟨v, hv⟩ := member_read hfound hmem hreader hnull
      exact ⟨shape, v, (mem_slots_iff wires hkeys hfound).mpr ⟨hf, value, hmem, hnull, hv⟩,
        hfield hf hmem hv⟩

/-! ## What is read has the type -/

/-- The slots of a list are read one by one. -/
theorem readSlots_ok {readers : FieldReaders} {items left : List Json} {slots : ModelValue}
    (h : readSlots readers items = .ok (slots, left)) : slots.length = readers.length
      ∧ ∀ r v, (r, some v) ∈ readers.zip slots → ∃ item, r.2 item = .ok v := by
  induction readers generalizing items slots with
  | nil =>
    cases h
    simp
  | cons r readers ih =>
    obtain ⟨wire, read⟩ := r
    cases items with
    | nil =>
      cases h
      refine ⟨by simp, fun r v hmem => ?_⟩
      have hnone := (List.of_mem_zip hmem).2
      simp at hnone
    | cons item items =>
      rw [readSlots, Schema.except_bind_ok_iff] at h
      obtain ⟨slot, hslot, h⟩ := h
      obtain ⟨⟨rest, left'⟩, hrest, he⟩ := Schema.except_bind_ok_iff.mp h
      obtain ⟨rfl, rfl⟩ := Prod.mk.inj (Except.ok.inj he)
      obtain ⟨hlength, hall⟩ := ih hrest
      refine ⟨by simp [hlength], fun r v hmem => ?_⟩
      obtain hfirst | hlater := List.mem_cons.mp hmem
      · obtain ⟨rfl, rfl⟩ := Prod.mk.inj hfirst
        exact ⟨item, (Reader.optional_some_iff.mp hslot).2⟩
      · exact hall r v hlater

theorem FieldShape.has_of_read {shape : FieldShape} {value : Json} {v : FieldValue}
    (hread : shape.read value = .ok v)
    (hrows : ∀ m, shape = .rows m → ∀ item slots, m.read item = .ok slots → m.HasValue slots) :
    shape.Has v := by
  cases shape with
  | text => cases value <;> cases hread; exact .text _
  | boolean => cases value <;> cases hread; exact .boolean _
  | integer =>
    simp only [FieldShape.read, Reader.int64, Reader.wholeWithin] at hread
    split at hread
    · split at hread <;> cases hread
      rename_i hbounds
      exact .integer hbounds.1 hbounds.2
    · cases hread
  | rows m =>
    cases value with
    | array items =>
      simp only [FieldShape.read, Reader.items] at hread
      cases hslots : items.mapM m.read with
      | error e =>
        rw [hslots] at hread
        cases hread
      | ok rows =>
        rw [hslots] at hread
        cases hread
        have hrow : ∀ row ∈ rows, m.HasValue row := by
          have hboth : List.Forall₂ (fun row item => m.HasValue row ∧ m.read item = .ok row)
              rows items :=
            (mapM_ok_iff.mp hslots).flip.imp fun row item h => ⟨hrows m rfl item row h, h⟩
          exact ((List.forall₂_and_left _ _).mp hboth).1
        exact .rows (fun row h => (hrow row h).length) fun row h => (hrow row h).has
    | _ => cases hread

/-- Whatever is read, from a record or a list, is a value of the type. -/
theorem hasValue_of_read {m : ModelShape} (hm : m.Distinct) {j : Json} {slots : ModelValue}
    (hread : m.read j = .ok slots) : m.HasValue slots := by
  induction hm generalizing j slots with
  | @model name fields wires rows ih =>
    have hfield : ∀ f ∈ fields, ∀ value v, f.2.read value = .ok v → f.2.Has v := by
      intro f hf value v hv
      refine FieldShape.has_of_read hv fun m hm item slots hslots => ?_
      exact ih f.1 m (hm ▸ hf) hslots
    cases j with
    | object members =>
      obtain ⟨found, hfound, rfl⟩ := read_object_iff.mp hread
      refine ⟨by simp [ModelShape.shapes], fun f v hslot => ?_⟩
      obtain ⟨hf, hlookup⟩ := mem_zip_map.mp hslot
      obtain ⟨before, after, rfl, -⟩ := List.lookup_eq_some_iff.mp hlookup
      obtain ⟨read, value, -, hreader, -, hv⟩ :=
        (mem_found hfound).mp (List.mem_append_right _ List.mem_cons_self)
      rw [fieldReaders_eq] at hreader
      cases hreader.symm.trans ((lookup_map_iff wires FieldShape.read).mpr ⟨f.2, hf, rfl⟩)
      exact hfield f hf value v hv
    | array items =>
      have hlist : readList (fieldReaders fields) items = .ok slots := hread
      rw [readList, Schema.except_bind_ok_iff] at hlist
      obtain ⟨⟨slots', left⟩, hslots, he⟩ := hlist
      have hsame : slots' = slots := by
        dsimp only at he
        split at he <;> cases he
        rfl
      subst hsame
      obtain ⟨hlength, hall⟩ := readSlots_ok hslots
      rw [fieldReaders_eq, List.length_map] at hlength
      refine ⟨hlength, fun f v hslot => ?_⟩
      have hreader : ((f.1, f.2.read), some v) ∈ (fieldReaders fields).zip slots' := by
        rw [fieldReaders_eq, List.zip_map_left]
        exact List.mem_map.mpr ⟨_, hslot, rfl⟩
      obtain ⟨item, hitem⟩ := hall _ _ hreader
      exact hfield f (List.of_mem_zip hslot).1 item v hitem
    | _ => cases hread

/-- **The two views of a model value agree.** In a model type no wire name occurs twice, at any
depth. Its values are what is read of their records. What is read of a record whose rows are objects
is a value of the type, and its record is the pruned record. A field of the record is there if and
only if the field with this wire name is set, with what is written of its value. -/
theorem views_agree {m : ModelShape} (hm : m.Distinct) :
    (∀ slots, m.HasValue slots → m.read (.object (m.write slots)) = .ok slots)
      ∧ (∀ members slots, (Json.object members).Ordered → m.RowsAreObjects members →
          m.read (.object members) = .ok slots →
          m.HasValue slots ∧ m.write slots = m.prune members)
      ∧ ∀ slots wire j, (m.field? slots wire = some j
          ↔ ∃ shape v, ((wire, shape), some v) ∈ m.shapes.zip slots ∧ shape.write v = j)
        ∧ (m.field? slots wire = some j ↔ (wire, j) ∈ m.write slots) := by
  refine ⟨fun slots => read_write_of_hasValue hm, fun members slots hordered hobjects hread =>
    ⟨hasValue_of_read hm hread, write_of_read hm hordered hobjects hread⟩, fun slots wire j => ?_⟩
  cases hm with
  | model name wires rows => exact ⟨field?_iff.trans (mem_write wires), field?_iff⟩

/-! ### A group with its members -/

def memberType : ModelShape := .model "Member" [("name", .text)]

def groupType : ModelShape :=
  .model "Group" [("name", .text), ("max-size", .integer), ("member", .rows memberType)]

/-- An undeclared key and a null, in the group and in its members. -/
def groupRecord : Record :=
  [("max-size", .null),
    ("member", .array [.object [("id", .number (.whole 1)), ("name", .string "a")],
      .object [("name", .null)]]),
    ("name", .string "web"), ("q_origin_key", .string "web")]

def groupSlots : ModelValue :=
  [some (.text "web"), none, some (.rows [[some (.text "a")], [none]])]

theorem groupType_distinct : groupType.Distinct := by
  refine .model _ (by decide) fun wire m hm => ?_
  obtain ⟨-, rfl⟩ : wire = "member" ∧ m = memberType := by simpa using hm
  exact .model _ (by decide) fun wire m hm => by simp at hm

theorem groupRecord_ordered : (Json.object groupRecord).Ordered := by
  refine .object (by decide) ?_
  simp only [groupRecord, List.forall_mem_cons]
  refine ⟨.null, .array ?_, .string _, .string _, by simp⟩
  simp only [List.forall_mem_cons]
  refine ⟨.object (by decide) ?_, .object (by decide) ?_, by simp⟩
  · simp only [List.forall_mem_cons]
    exact ⟨.number _, .string _, by simp⟩
  · simp only [List.forall_mem_cons]
    exact ⟨.null, by simp⟩

theorem groupRecord_rows : groupType.RowsAreObjects groupRecord := by
  refine .model ?_ ?_
  · intro wire m items hf hmem
    obtain ⟨rfl, -⟩ : wire = "member" ∧ m = memberType := by simpa using hf
    obtain rfl : items = _ := by simpa [groupRecord] using hmem
    simp
  · intro wire m items row hf hmem hrow
    obtain ⟨rfl, rfl⟩ : wire = "member" ∧ m = memberType := by simpa using hf
    exact .model (fun wire m items hf => by simp at hf) fun wire m items row hf => by simp at hf

theorem views_agree_group :
    groupType.Distinct ∧ (Json.object groupRecord).Ordered ∧ groupType.RowsAreObjects groupRecord
      ∧ groupType.read (.object groupRecord) = .ok groupSlots ∧ groupType.HasValue groupSlots
      ∧ groupType.write groupSlots = groupType.prune groupRecord
      ∧ groupType.prune groupRecord = [("member", .array [.object [("name", .string "a")],
          .object []]), ("name", .string "web")]
      ∧ groupType.read (.object (groupType.write groupSlots)) = .ok groupSlots
      ∧ groupType.field? groupSlots "name" = some (.string "web") := by
  have hread : groupType.read (.object groupRecord) = .ok groupSlots := rfl
  obtain ⟨hback, hpruned, hfield⟩ := views_agree groupType_distinct
  obtain ⟨hvalue, hwrite⟩ := hpruned _ _ groupRecord_ordered groupRecord_rows hread
  refine ⟨groupType_distinct, groupRecord_ordered, groupRecord_rows, hread, hvalue, hwrite, rfl,
    hback _ hvalue, (hfield _ _ _).1.mpr ⟨.text, .text "web", ?_, rfl⟩⟩
  exact List.mem_cons_self

end Rest

namespace Emit

open Source Naming Rest

/-! ## The model types of a resource -/

theorem forall₂_of_mapM {α β : Type} {f : α → Option β} {xs : List α} {ys : List β}
    (h : xs.mapM f = some ys) : List.Forall₂ (fun x y => f x = some y) xs ys := by
  induction xs generalizing ys with
  | nil =>
    cases h
    exact .nil
  | cons x xs ih =>
    simp only [List.mapM_cons, Option.bind_eq_bind, Option.pure_def, Option.bind_eq_some_iff] at h
    obtain ⟨y, hy, rest, hrest, he⟩ := h
    cases he
    exact .cons hy (ih hrest)

theorem fieldShape?_rows {rows : String → Option ModelShape} {t : Ty} {m : ModelShape}
    (h : fieldShape? rows t = some (.rows m)) : ∃ name, rows name = some m := by
  unfold fieldShape? at h
  split at h <;> try cases h
  rename_i name
  obtain ⟨m', hm', he⟩ := Option.map_eq_some_iff.mp h
  cases he
  exact ⟨name, hm'⟩

/-- A field of the struct keeps its wire name, and its rows are of a known model. -/
theorem modelField?_modelField {names : TypeNames} {p : PlacedTable} {f : Field}
    {rows : String → Option ModelShape} {m : ModelField}
    (h : modelField? rows (modelField names p f) = some m) : m.wire = f.wireName
      ∧ ∀ below, m.shape = .rows below → ∃ name, rows name = some below := by
  unfold modelField? at h
  split at h
  · rename_i t wire _ hwire
    obtain ⟨shape, hshape, rfl⟩ := Option.map_eq_some_iff.mp h
    rw [wireName?_modelField] at hwire
    cases hwire
    refine ⟨rfl, ?_⟩
    rintro below rfl
    exact fieldShape?_rows hshape
  · cases h

/-- In the model types that are read off the structs of a resource, no wire name occurs twice. -/
theorem modelType_distinct {r : Resource} (hr : (PlacedTable.ofResource r).IsNamed)
    {names : TypeNames} {depth : Nat} {name : String} {m : ModelType}
    (hm : modelType? (modelFile r names).items depth name = some m) : m.shape.Distinct := by
  induction depth generalizing name m with
  | zero => cases hm
  | succ depth ih =>
    rw [modelType?, Option.bind_eq_some_iff] at hm
    obtain ⟨s, hs, hm⟩ := hm
    split at hm
    · obtain ⟨fields, hfields, rfl⟩ := Option.map_eq_some_iff.mp hm
      obtain ⟨p, hp, rfl⟩ : ∃ p ∈ r.tables, s = modelStruct names p := by
        obtain ⟨item, hitem, hstruct⟩ := List.exists_of_findSome?_eq_some hs
        obtain ⟨p, hp, hmem⟩ := List.mem_flatMap.mp hitem
        refine ⟨p, hp, ?_⟩
        simp only [List.mem_cons, List.not_mem_nil, or_false] at hmem
        obtain rfl | rfl := hmem
        · simp only [struct?] at hstruct
          split at hstruct <;> cases hstruct
          rfl
        · cases hstruct
      have hall := List.forall₂_map_left_iff.mp (forall₂_of_mapM hfields)
      have hwires : fields.map ModelField.wire = p.fields.map Field.wireName := by
        rw [← List.forall₂_eq_eq_eq, List.forall₂_map_left_iff, List.forall₂_map_right_iff]
        exact hall.flip.imp fun f m h => (modelField?_modelField h).1
      have hbelow : ∀ f ∈ fields, ∀ below, f.shape = .rows below → below.Distinct := by
        intro f hf below hshape
        have hrows := ((List.forall₂_and_left _ _).mp (hall.flip.imp fun m f h =>
          ⟨(modelField?_modelField h).2, h⟩)).1 f hf below hshape
        obtain ⟨name, hname⟩ := hrows
        obtain ⟨m, hm, rfl⟩ := Option.map_eq_some_iff.mp hname
        exact ih hm
      refine .model _ ?_ fun wire m hmem => ?_
      · rw [List.map_map]
        exact hwires ▸ (PlacedTable.isNamed_of_mem_walk hr p hp).here.wires
      · obtain ⟨f, hf, he⟩ := List.mem_map.mp hmem
        exact hbelow f hf m (Prod.mk.inj he).2
    · cases hm

end Emit

end RestForge
