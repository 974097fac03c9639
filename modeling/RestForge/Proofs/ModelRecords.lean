import Mathlib.Data.List.Forall2
import RestForge.Proofs.ModuleTree
import RestForge.Proofs.Validation
import RestForge.Rest.Model

/-!
# Models as records

A model is written as the record of the fields that are set, and read back from it.

* `KeyedList.get?_insertEach`: what a record holds after a list of members was put in.
* `KeyedList.get?_ofList`, `KeyedList.mem_of_mem_ofList`: what a record holds that was made from a
  list of members.
* `setFields`: the fields of a model that are set; `write_eq`: the record holds these.
* `FieldShape.Restores`: what is written of a value is read as that value.
* `read_write`: so it is for a model with such values, if no wire name occurs twice.
-/

set_option autoImplicit false

/-! ## Members of a record -/

namespace RestForge.KeyedList

section Inserted

variable {κ α : Type} [DecidableEq κ] [LT κ] [DecidableLT κ]

/-- Of the values that are put in one after another the last counts. -/
theorem get?_insertEach (pairs l : List (κ × α)) (key : κ) :
    get? (pairs.foldl (fun l p => insert p.1 p.2 l) l) key
      = (pairs.reverse.lookup key).or (get? l key) := by
  induction pairs generalizing l with
  | nil => rfl
  | cons p pairs ih =>
    obtain ⟨k, v⟩ := p
    have hlast : (List.lookup key [(k, v)]).or (get? l key) = get? (insert k v l) key := by
      change (get? [(k, v)] key).or _ = _
      rw [get?_cons, get?_insert]
      split <;> rfl
    rw [List.foldl_cons, ih, List.reverse_cons, List.lookup_append, Option.or_assoc, hlast]

theorem get?_ofList (l : List (κ × α)) (key : κ) : get? (ofList l) key = l.reverse.lookup key := by
  rw [ofList, get?_insertEach]
  exact Option.or_none

end Inserted

variable {α : Type}

theorem mem_of_mem_ofList {l : List (String × α)} {p : String × α} (h : p ∈ ofList l) : p ∈ l := by
  have hfold : ∀ l acc : List (String × α),
      p ∈ l.foldl (fun l p => insert p.1 p.2 l) acc → p ∈ acc ∨ p ∈ l := by
    intro l
    induction l with
    | nil => exact fun acc h => .inl h
    | cons q l ih =>
      intro acc h
      obtain h | h := ih _ h
      · obtain h | rfl | ⟨-, -, rfl⟩ := mem_alter h
        · exact .inl h
        · exact .inr List.mem_cons_self
        · exact .inr List.mem_cons_self
      · exact .inr (List.mem_cons_of_mem _ h)
  exact (hfold l [] h).resolve_left List.not_mem_nil

theorem mem_ofList_of_mem {l : List (String × α)} (hl : (l.map Prod.fst).Nodup) {p : String × α}
    (h : p ∈ l) : p ∈ ofList l := by
  have hreverse : l.reverse.lookup p.1 = some p.2 := by
    refine Emit.lookup_of_mem ?_ (List.mem_reverse.mpr h)
    rwa [List.map_reverse, List.nodup_reverse]
  have hget : get? (ofList l) p.1 = some p.2 := (get?_ofList l p.1).trans hreverse
  obtain ⟨before, after, he, -⟩ := List.lookup_eq_some_iff.mp hget
  rw [he]
  exact List.mem_append_right _ List.mem_cons_self

end RestForge.KeyedList

namespace RestForge.Rest

/-! ## What is written -/

/-- The fields that are set, with their values. -/
def setFields (fields : List (String × FieldShape)) (slots : ModelValue) :
    List ((String × FieldShape) × FieldValue) :=
  (fields.zip slots).filterMap fun e => e.2.map fun v => (e.1, v)

theorem mem_setFields {fields : List (String × FieldShape)} {slots : ModelValue}
    {f : String × FieldShape} {v : FieldValue} :
    (f, v) ∈ setFields fields slots ↔ (f, some v) ∈ fields.zip slots := by
  simp [setFields]

theorem fieldReaders_eq (fields : List (String × FieldShape)) :
    fieldReaders fields = fields.map fun f => (f.1, f.2.read) := by
  induction fields with
  | nil => rfl
  | cons f fields ih => rw [fieldReaders, ih, List.map_cons]

theorem write_eq (name : String) (fields : List (String × FieldShape)) (slots : ModelValue) :
    (ModelShape.model name fields).write slots
      = Record.ofList ((setFields fields slots).map fun e => (e.1.1, e.1.2.write e.2)) := by
  have hslots : writeSlots (fieldWriters fields) slots
      = (setFields fields slots).map fun e => (e.1.1, e.1.2.write e.2) := by
    induction fields generalizing slots with
    | nil => cases slots <;> rfl
    | cons f fields ih =>
      obtain ⟨wire, shape⟩ := f
      rcases slots with _ | ⟨_ | v, slots⟩
      · rfl
      · rw [fieldWriters, writeSlots, ih]
        rfl
      · rw [fieldWriters, writeSlots, ih]
        rfl
  exact congrArg Record.ofList hslots

theorem setFields_sublist (fields : List (String × FieldShape)) (slots : ModelValue) :
    ((setFields fields slots).map fun e => e.1.1).Sublist (fields.map Prod.fst) := by
  induction fields generalizing slots with
  | nil => simp [setFields]
  | cons f fields ih =>
    rcases slots with _ | ⟨_ | v, slots⟩
    · simp [setFields]
    · exact (ih slots).cons f.1
    · exact (ih slots).cons_cons f.1

/-! ## What is read -/

/-- A value that is read back from what is written of it. -/
structure FieldShape.Restores (shape : FieldShape) (v : FieldValue) : Prop where
  notNull : (shape.write v).isNull = false
  read : shape.read (shape.write v) = .ok v

theorem Reader.optional_of_notNull {α : Type} {read : Reader α} {j : Json} (h : j.isNull = false) :
    Reader.optional read j = (read j).map some := by
  cases j <;> first | rfl | cases h

/-- Members that are read one by one. -/
theorem readMembers_ok {readers : FieldReaders} {members : Record} (P : String → FieldValue → Prop)
    (h : ∀ m ∈ members, ∃ read v, readers.lookup m.1 = some read
      ∧ Reader.optional read m.2 = .ok (some v) ∧ P m.1 v) :
    ∃ found, readMembers readers members = .ok found ∧ found.map Prod.fst = members.map Prod.fst
      ∧ ∀ e ∈ found, P e.1 e.2 := by
  induction members with
  | nil => exact ⟨[], rfl, rfl, by simp⟩
  | cons m members ih =>
    obtain ⟨key, value⟩ := m
    rw [List.forall_mem_cons] at h
    obtain ⟨⟨read, v, hreader, hread, hv⟩, hmembers⟩ := h
    obtain ⟨found, hfound, hkeys, hall⟩ := ih hmembers
    refine ⟨(key, v) :: found, ?_, by simp [hkeys], List.forall_mem_cons.mpr ⟨hv, hall⟩⟩
    rw [readMembers, hreader]
    simp [hread, hfound, bind, Except.bind, pure, Except.pure]

/-- Wire names tell the slots apart. -/
theorem slot_unique {fields : List (String × FieldShape)} {slots : ModelValue}
    (hwires : (fields.map Prod.fst).Nodup) (hlength : fields.length = slots.length)
    {f f' : String × FieldShape} {s s' : Option FieldValue} (hs : (f, s) ∈ fields.zip slots)
    (hs' : (f', s') ∈ fields.zip slots) (he : f.1 = f'.1) : s = s' := by
  have hkeys : (((fields.zip slots).map fun e => (e.1.1, e.2)).map Prod.fst).Nodup := by
    have hfirst := congrArg (List.map Prod.fst) (List.map_fst_zip (Nat.le_of_eq hlength))
    rw [List.map_map] at hfirst ⊢
    rwa [← hfirst] at hwires
  have hlookup : ∀ {f s}, (f, s) ∈ fields.zip slots →
      ((fields.zip slots).map fun e => (e.1.1, e.2)).lookup f.1 = some s := fun hs =>
    Emit.lookup_of_mem hkeys (List.mem_map.mpr ⟨_, hs, rfl⟩)
  have hsame := hlookup hs
  rw [he, hlookup hs'] at hsame
  exact (Option.some.inj hsame).symm

/-- Reading gives back what was written. -/
theorem read_write {name : String} {fields : List (String × FieldShape)} {slots : ModelValue}
    (hwires : (fields.map Prod.fst).Nodup)
    (hslots : List.Forall₂ (fun f s => ∀ v, s = some v → f.2.Restores v) fields slots) :
    (ModelShape.model name fields).read (.object ((ModelShape.model name fields).write slots))
      = .ok slots := by
  obtain ⟨hlength, hzip⟩ := List.forall₂_iff_zip.mp hslots
  let members := (setFields fields slots).map fun e => (e.1.1, e.1.2.write e.2)
  have hkeys : (members.map Prod.fst).Nodup := by
    rw [List.map_map]
    exact hwires.sublist (setFields_sublist fields slots)
  have hmembers : ∀ m ∈ Record.ofList members, ∃ read v,
      (fieldReaders fields).lookup m.1 = some read ∧ Reader.optional read m.2 = .ok (some v)
      ∧ ∃ f, f.1 = m.1 ∧ (f, some v) ∈ fields.zip slots := by
    intro m hm
    obtain ⟨⟨f, v⟩, he, rfl⟩ := List.mem_map.mp (KeyedList.mem_of_mem_ofList hm)
    have hf := mem_setFields.mp he
    have hrestores := hzip hf v rfl
    refine ⟨f.2.read, v, ?_, ?_, f, rfl, hf⟩
    · rw [fieldReaders_eq]
      refine Emit.lookup_of_mem ?_ (List.mem_map.mpr ⟨f, (List.of_mem_zip hf).1, rfl⟩)
      rwa [List.map_map]
    · rw [Reader.optional_of_notNull hrestores.notNull, hrestores.read]
      rfl
  obtain ⟨found, hfound, hnames, hall⟩ := readMembers_ok
    (fun key v => ∃ f, f.1 = key ∧ (f, some v) ∈ fields.zip slots) hmembers
  have hlookup : ∀ {f s}, (f, s) ∈ fields.zip slots → found.lookup f.1 = s := by
    intro f s hs
    cases h : found.lookup f.1 with
    | some v =>
      obtain ⟨before, after, he, -⟩ := List.lookup_eq_some_iff.mp h
      have hmem : (f.1, v) ∈ found := by
        rw [he]
        exact List.mem_append_right _ List.mem_cons_self
      obtain ⟨f', hwire, hf'⟩ := hall _ hmem
      exact slot_unique hwires hlength hf' hs hwire
    | none =>
      cases s with
      | none => rfl
      | some v =>
        have hmem : (f.1, f.2.write v) ∈ Record.ofList members :=
          KeyedList.mem_ofList_of_mem hkeys (List.mem_map.mpr ⟨_, mem_setFields.mpr hs, rfl⟩)
        have hname : f.1 ∈ found.map Prod.fst := by
          rw [hnames]
          exact List.mem_map.mpr ⟨_, hmem, rfl⟩
        obtain ⟨e, he, hkey⟩ := List.mem_map.mp hname
        exact absurd (List.lookup_eq_none_iff.mp h e he) (by simp [hkey])
  have hfields : fields.map (fun f => found.lookup f.1) = slots := by
    rw [← List.forall₂_eq_eq_eq, List.forall₂_map_left_iff, List.forall₂_iff_zip]
    exact ⟨hlength, hlookup⟩
  have hrecord : readRecord (fieldReaders fields) (Record.ofList members) = .ok slots := by
    rw [readRecord, hfound, ← hfields, fieldReaders_eq]
    simp [bind, Except.bind, pure, Except.pure]
  rw [write_eq]
  exact hrecord

end RestForge.Rest
