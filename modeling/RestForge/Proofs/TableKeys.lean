import RestForge.Proofs.Acceptance

/-!
# Tables that share a key

The names of a table's fields are kept apart in a scope with the key of the table: the dotted path of
the resource and the names of the tables that lead to it, with `>` between them. A name may hold this
sign, and then two tables can have one key.

* `ArrayIn`: the arrays of items in a document, one for each table; `TableAt`: with their keys.
* `tableAt_unique`: where no name of a table holds the sign, different tables have different keys.
* `namesApart_iff_of_unmarked`: there a document is apart exactly if each array is.
-/

set_option autoImplicit false

namespace RestForge.Schema

open Naming

/-! ## Tables and their keys -/

/-- An item of the array has this name and these children. -/
def HasTable (items : List Json) (name : String) (children : List Json) : Prop :=
  ∃ item : Record, .object item ∈ items ∧ item.get? "name" = some (.string name)
    ∧ item.get? "children" = some (.array children)

def HasName (items : List Json) (name : String) : Prop :=
  ∃ item : Record, .object item ∈ items ∧ item.get? "name" = some (.string name)

/-- The array of a table, or of one nested in it. -/
inductive ArrayIn : List Json → List Json → Prop where
  | here (items : List Json) : ArrayIn items items
  | inside {items children array : List Json} {name : String}
    (htable : HasTable items name children) (h : ArrayIn children array) : ArrayIn items array

/-- The array of a table with the key `k`, seen from the table with the given key and items. -/
inductive TableAt : String → List Json → String → List Json → Prop where
  | here (key : String) (items : List Json) : TableAt key items key items
  | inside {key k : String} {items children array : List Json} {name : String}
    (htable : HasTable items name children) (h : TableAt (key ++ ">" ++ name) children k array) :
    TableAt key items k array

variable {key k : String} {items array array' : List Json}

theorem TableAt.arrayIn (h : TableAt key items k array) : ArrayIn items array := by
  induction h with
  | here key items => exact .here items
  | inside htable _ ih => exact .inside htable ih

theorem ArrayIn.tableAt (h : ArrayIn items array) (key : String) :
    ∃ k, TableAt key items k array := by
  induction h generalizing key with
  | here items => exact ⟨key, .here key items⟩
  | inside htable _ ih =>
    obtain ⟨k, h⟩ := ih (key ++ ">" ++ _)
    exact ⟨k, .inside htable h⟩

theorem asks_iff {wire : String} :
    Asks key items k wire ↔ ∃ array, TableAt key items k array ∧ HasName array wire := by
  constructor
  · intro h
    induction h with
    | here hitem hname => exact ⟨_, .here _ _, _, hitem, hname⟩
    | inside hitem hname hchildren _ ih =>
      obtain ⟨array, hat, hasks⟩ := ih
      exact ⟨array, .inside ⟨_, hitem, hname, hchildren⟩ hat, hasks⟩
  · rintro ⟨array, hat, item, hitem, hname⟩
    induction hat with
    | here => exact .here hitem hname
    | inside htable _ ih =>
      obtain ⟨other, hother, hcalled, hchildren⟩ := htable
      exact .inside hother hcalled hchildren (ih hitem)

/-! ## Keys without the sign in names -/

/-- What follows the key of a table in the key of one nested in it. -/
theorem TableAt.key_tail (h : TableAt key items k array) :
    ∃ rest, k.toList = key.toList ++ rest ∧ (rest = [] ∨ ∃ cs, rest = '>' :: cs) := by
  induction h with
  | here => exact ⟨[], by simp, .inl rfl⟩
  | @inside key k items children array name _ _ ih =>
    obtain ⟨rest, he, -⟩ := ih
    refine ⟨'>' :: (name.toList ++ rest), ?_, .inr ⟨_, rfl⟩⟩
    rw [he, String.toList_append, String.toList_append]
    simp

theorem takeWhile_name {name : String} (hname : '>' ∉ name.toList) {rest : List Char}
    (hrest : rest = [] ∨ ∃ cs, rest = '>' :: cs) :
    (name.toList ++ rest).takeWhile (· != '>') = name.toList := by
  have hall : ∀ c ∈ name.toList, (c != '>') = true := by
    intro c hc
    rw [bne_iff_ne]
    rintro rfl
    exact hname hc
  rw [List.takeWhile_append_of_pos hall]
  obtain rfl | ⟨cs, rfl⟩ := hrest <;> simp

/-- Going down, a key never comes back. -/
theorem TableAt.not_above {name : String} {children : List Json} :
    ¬TableAt (key ++ ">" ++ name) children key array := by
  intro h
  obtain ⟨rest, he, -⟩ := h.key_tail
  have hlength := congrArg List.length he
  simp [String.toList_append] at hlength

/-- What stands before the next sign in the rest of a key is the name of the next table. -/
theorem TableAt.name_unique {name name' : String} {children children' : List Json}
    (hname : '>' ∉ name.toList) (hname' : '>' ∉ name'.toList)
    (h : TableAt (key ++ ">" ++ name) children k array)
    (h' : TableAt (key ++ ">" ++ name') children' k array') : name = name' := by
  obtain ⟨rest, he, hrest⟩ := h.key_tail
  obtain ⟨rest', he', hrest'⟩ := h'.key_tail
  have htails : name.toList ++ rest = name'.toList ++ rest' := by
    have hboth := he.symm.trans he'
    simpa [String.toList_append] using hboth
  have hcut := congrArg (List.takeWhile (· != '>')) htails
  rw [takeWhile_name hname hrest, takeWhile_name hname' hrest'] at hcut
  exact String.toList_injective hcut

theorem hasTable_cons {item : Record} {name : String} {children : List Json} :
    HasTable (.object item :: items) name children
      ↔ item.get? "name" = some (.string name) ∧ item.get? "children" = some (.array children)
        ∨ HasTable items name children := by
  constructor
  · rintro ⟨other, hother, hname, hchildren⟩
    obtain he | hother := List.mem_cons.mp hother
    · cases he
      exact .inl ⟨hname, hchildren⟩
    · exact .inr ⟨other, hother, hname, hchildren⟩
  · rintro (⟨hname, hchildren⟩ | ⟨other, hother, hname, hchildren⟩)
    · exact ⟨item, List.mem_cons_self, hname, hchildren⟩
    · exact ⟨other, List.mem_cons_of_mem _ hother, hname, hchildren⟩

section Format

variable {room : Nat} {columns : List (String × FieldType)} {name : String}
  {children children' : List Json}

theorem TableFormat.columns_of_table (h : TableFormat room items columns)
    (ht : HasTable items name children) : name ∈ columns.map Prod.fst := by
  induction h with
  | nil =>
    obtain ⟨item, hitem, -⟩ := ht
    cases hitem
  | plain hfield _ _ _ _ ih | nested hfield _ _ _ _ _ _ _ ih =>
    obtain ⟨hname, -⟩ | ht := hasTable_cons.mp ht
    · rw [hfield.called] at hname
      cases hname
      exact List.mem_cons_self
    · exact List.mem_cons_of_mem _ (ih ht)

/-- The name of a nested table tells its items, and they are in the format. -/
theorem TableFormat.table_unique (h : TableFormat room items columns)
    (ht : HasTable items name children) :
    (∃ less inner, TableFormat less children inner)
      ∧ ∀ children', HasTable items name children' → children' = children := by
  induction h with
  | nil =>
    obtain ⟨item, hitem, -⟩ := ht
    cases hitem
  | @plain _ item items _ _ _ _ _ homitted _ _ ih =>
    have hlater : ∀ {array}, HasTable (.object item :: items) name array →
        HasTable items name array := by
      intro array htable
      obtain ⟨-, harray⟩ | htable := hasTable_cons.mp htable
      · obtain hnone | hnull := homitted
        · rw [hnone] at harray
          cases harray
        · rw [hnull] at harray
          cases harray
      · exact htable
    obtain ⟨hformat, honly⟩ := ih (hlater ht)
    exact ⟨hformat, fun array htable => honly array (hlater htable)⟩
  | @nested _ item _ below _ _ _ _ hfield hchildren hbelow _ _ hnew hrest _ ih =>
    obtain ⟨hname, harray⟩ | hlater := hasTable_cons.mp ht
    · rw [hfield.called] at hname
      cases hname
      rw [hchildren] at harray
      cases harray
      refine ⟨⟨_, _, hbelow⟩, fun array htable => ?_⟩
      obtain ⟨-, harray⟩ | hlater := hasTable_cons.mp htable
      · rw [hchildren] at harray
        cases harray
        rfl
      · exact absurd (hrest.columns_of_table hlater) hnew
    · obtain ⟨hformat, honly⟩ := ih hlater
      refine ⟨hformat, fun array htable => ?_⟩
      obtain ⟨hname, -⟩ | hlater' := hasTable_cons.mp htable
      · rw [hfield.called] at hname
        cases hname
        exact absurd (hrest.columns_of_table hlater) hnew
      · exact honly array hlater'

end Format

theorem tableAt_unique {room : Nat} {columns : List (String × FieldType)}
    (h : TableFormat room items columns)
    (hunmarked : ∀ array name children, ArrayIn items array → HasTable array name children →
      '>' ∉ name.toList)
    (hat : TableAt key items k array) (hat' : TableAt key items k array') : array = array' := by
  induction hat generalizing room columns with
  | here key items =>
    cases hat' with
    | here => rfl
    | inside _ hbelow => exact absurd hbelow TableAt.not_above
  | @inside key k items children array name htable hbelow ih =>
    cases hat' with
    | here => exact absurd hbelow TableAt.not_above
    | @inside _ _ _ children' _ name' htable' hbelow' =>
      obtain rfl := TableAt.name_unique (hunmarked _ _ _ (.here items) htable)
        (hunmarked _ _ _ (.here items) htable') hbelow hbelow'
      obtain ⟨⟨less, inner, hformat⟩, honly⟩ := h.table_unique htable
      obtain rfl := honly children' htable'
      exact ih hformat (fun array name children hin => hunmarked array name children
        (.inside htable hin)) hbelow'

/-- Where no name of a table holds the sign, the names of a document are apart exactly if the names in
each of its arrays are. -/
theorem namesApart_iff_of_unmarked {limit : Nat} {doc : Record} (hformat : SchemaFormat limit doc)
    (hunmarked : ∀ items array name children, RootItems doc items → ArrayIn items array →
      HasTable array name children → '>' ∉ name.toList) :
    NamesApart doc ↔ ∀ items array, RootItems doc items → ArrayIn items array →
      ∀ name name', HasName array name → HasName array name' →
        identifier .fields name = identifier .fields name' → name = name' := by
  constructor
  · intro hapart items array hitems hin name name' hname hname' he
    obtain ⟨h, hheader⟩ := exists_hasHeader_iff.mpr ⟨hformat.category, hformat.path, hformat.methods⟩
    obtain ⟨k, hat⟩ := hin.tableAt h.dottedPath
    exact hapart h items k name name' hheader hitems (asks_iff.mpr ⟨array, hat, hname⟩)
      (asks_iff.mpr ⟨array, hat, hname'⟩) he
  · intro hapart h items k name name' hheader hitems hasks hasks' he
    obtain ⟨array, hat, hname⟩ := asks_iff.mp hasks
    obtain ⟨array', hat', hname'⟩ := asks_iff.mp hasks'
    obtain ⟨items', columns, mkey, hitems', htable, -⟩ := hformat.table
    obtain rfl := hitems'.unique hitems
    obtain rfl := tableAt_unique htable
      (fun array name children => hunmarked _ array name children hitems) hat hat'
    exact hapart _ _ hitems hat.arrayIn name name' hname hname' he

end RestForge.Schema
