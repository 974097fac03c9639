import RestForge.Proofs.SchemaFormat

/-!
# Successful readings

A reading of a table that succeeds has a derivation, with one rule for each kind of field. The reader
and the derivations agree (`readTable_ok_iff`), and everything that is said of what was read, or of
what can be read, is said of derivations.

* `KeyAmong`: the identifying field of a table.
* `Reads`: from the items of a table and a table of names to fields, tables below and the names after.
* `readTable_ok_iff`, `readResource_ok_iff`: the reader succeeds exactly where there is a derivation.
* `Reads.wires`: no wire name occurs twice in one table.
-/

set_option autoImplicit false

namespace RestForge.Schema

open Naming

/-! ## What a field holds -/

/-- Wire name and type, as far as the rest of the document refers to a field. -/
def column (f : Field) : String × FieldType := (f.wireName, f.type)

def FieldHead.field (head : FieldHead) (code : String) (help reference : Option String) : Field :=
  ⟨head.name, code, head.type, head.required, head.values, head.default, help, reference⟩

@[simp] theorem FieldHead.column_field (head : FieldHead) (code : String)
    (help reference : Option String) :
    column (head.field code help reference) = (head.name, head.type) := rfl

/-- If there is an identifying field, it is one of the fields and no table. -/
def KeyAmong (mkey : Option String) (columns : List (String × FieldType)) : Prop :=
  ∀ key, mkey = some key → ∃ type, (key, type) ∈ columns ∧ type ≠ .nestedTable

theorem keyAmong_none (columns : List (String × FieldType)) : KeyAmong none columns := by
  intro key h
  cases h

theorem isTable_iff {f : Field} : f.isTable = true ↔ f.type = .nestedTable := beq_iff_eq

theorem any_key_iff {fields : List Field} {key : String} :
    (fields.any fun f => f.wireName == key && !f.isTable) = true
      ↔ ∃ type, (key, type) ∈ fields.map column ∧ type ≠ .nestedTable := by
  simp only [List.any_eq_true, Bool.and_eq_true, beq_iff_eq, Bool.not_eq_true', List.mem_map]
  constructor
  · rintro ⟨f, hf, rfl, htable⟩
    refine ⟨f.type, ⟨f, hf, rfl⟩, fun htype => ?_⟩
    rw [isTable_iff.mpr htype] at htable
    cases htable
  · rintro ⟨type, ⟨f, hf, hcolumn⟩, htype⟩
    obtain ⟨rfl, rfl⟩ := Prod.mk.inj hcolumn
    exact ⟨f, hf, rfl, Bool.eq_false_iff.mpr (mt isTable_iff.mp htype)⟩

/-! ## Derivations -/

/-- `Reads room key items t fields tables t'`: with `room` levels of nesting left, the items of the
table with the given key are read as these fields and tables, and the names in `t` become those in
`t'`. -/
inductive Reads : Nat → String → List Json → NameTable → List Field → List Table → NameTable →
    Prop where
  | nil (room : Nat) (key : String) (t : NameTable) : Reads room key [] t [] [] t
  | plain {room : Nat} {key : String} {item : Record} {items : List Json} {t t₁ t' : NameTable}
    {head : FieldHead} {code : String} {help reference : Option String} {fields : List Field}
    {tables : List Table} (hhead : HasHead item head) (hplain : head.type ≠ .nestedTable)
    (hchildren : Omitted item "children") (hhelp : OptionalText item "help" help)
    (hreference : OptionalText item "datasource" reference)
    (hname : giveName (Scope.fields key) head.name t = (.ok code, t₁))
    (hnew : head.name ∉ fields.map Field.wireName) (rest : Reads room key items t₁ fields tables t') :
    Reads room key (.object item :: items) t (head.field code help reference :: fields) tables t'
  | nested {room : Nat} {key : String} {item : Record} {items below : List Json}
    {t t₁ t₂ t' : NameTable} {head : FieldHead} {code : String} {help reference mkey : Option String}
    {inner fields : List Field} {innerTables tables : List Table} (hhead : HasHead item head)
    (hnested : head.type = .nestedTable) (hchildren : item.get? "children" = some (.array below))
    (hhelp : OptionalText item "help" help)
    (hreference : OptionalText item "datasource" reference)
    (hmkey : OptionalText item "mkey" mkey) (hkey : KeyAmong mkey (inner.map column))
    (hname : giveName (Scope.fields key) head.name t = (.ok code, t₁))
    (hnew : head.name ∉ fields.map Field.wireName)
    (hbelow : Reads room (key ++ ">" ++ head.name) below t₁ inner innerTables t₂)
    (rest : Reads (room + 1) key items t₂ fields tables t') :
    Reads (room + 1) key (.object item :: items) t (head.field code help reference :: fields)
      (⟨head.name, code, help, mkey, inner, innerTables⟩ :: tables) t'

/-! ## The reader has derivations -/

variable {descend : Descent}

theorem readField_ok_iff {key : String} {l : Location} {seen : List String} {item : Json}
    {t t' : NameTable} {f : Field} {table? : Option Table} :
    readField descend key l seen item t = (.ok (f, table?), t')
      ↔ ∃ members head code t₁ help reference, item = .object members ∧ HasHead members head
        ∧ head.name ∉ seen ∧ giveName (Scope.fields key) head.name t = (.ok code, t₁)
        ∧ OptionalText members "help" help ∧ OptionalText members "datasource" reference
        ∧ f = head.field code help reference
        ∧ ((head.type ≠ .nestedTable ∧ Omitted members "children" ∧ table? = none ∧ t' = t₁)
          ∨ (head.type = .nestedTable ∧ ∃ table, table? = some table
            ∧ readNested descend key l head code members t₁ = (.ok table, t'))) := by
  constructor
  · intro h
    unfold readField at h
    split at h
    · rename_i members
      obtain ⟨head, hhead, h⟩ := lift_bind_ok h
      obtain ⟨hhead, hseen⟩ := readFieldHead_ok_iff.mp hhead
      obtain ⟨code, t₁, hcode, h⟩ := bind_ok h
      dsimp only at h
      by_cases hnested : head.type = .nestedTable
      · rw [if_pos hnested] at h
        obtain ⟨table?, t₂, hmap, h⟩ := bind_ok h
        obtain ⟨table, htable, rfl⟩ := map_ok hmap
        obtain ⟨help, hhelp, h⟩ := lift_bind_ok h
        obtain ⟨reference, hreference, h⟩ := lift_bind_ok h
        obtain ⟨he, rfl⟩ := pure_ok h
        cases he
        exact ⟨members, head, code, t₁, help, reference, rfl, hhead, hseen, hcode,
          optionalString_ok_iff.mp hhelp, optionalString_ok_iff.mp hreference, rfl,
          .inr ⟨hnested, table, rfl, htable⟩⟩
      · rw [if_neg hnested] at h
        by_cases hchildren : (present? members "children").isSome = true
        · rw [if_pos hchildren] at h
          exact absurd h throw_bind_not_ok
        · rw [if_neg hchildren, pure_bind] at h
          obtain ⟨help, hhelp, h⟩ := lift_bind_ok h
          obtain ⟨reference, hreference, h⟩ := lift_bind_ok h
          obtain ⟨he, rfl⟩ := pure_ok h
          cases he
          have homitted : Omitted members "children" := by
            rw [← present?_eq_none_iff]
            simpa using hchildren
          exact ⟨members, head, code, t', help, reference, rfl, hhead, hseen, hcode,
            optionalString_ok_iff.mp hhelp, optionalString_ok_iff.mp hreference, rfl,
            .inl ⟨hnested, homitted, rfl, rfl⟩⟩
    · exact absurd h throw_not_ok
  · rintro ⟨members, head, code, t₁, help, reference, rfl, hhead, hseen, hcode, hhelp, hreference,
      rfl, htable⟩
    unfold readField
    refine (lift_ok_bind (readFieldHead_ok_iff.mpr ⟨hhead, hseen⟩)).trans ?_
    refine (ok_bind hcode).trans ?_
    dsimp only
    obtain ⟨hplain, homitted, rfl, rfl⟩ | ⟨hnested, table, rfl, htable⟩ := htable
    · rw [if_neg hplain, if_neg (by simp [present?_eq_none_iff.mpr homitted]), pure_bind]
      refine (lift_ok_bind (optionalString_ok_iff.mpr hhelp)).trans ?_
      exact (lift_ok_bind (optionalString_ok_iff.mpr hreference)).trans rfl
    · rw [if_pos hnested]
      refine (ok_bind (ok_map htable)).trans ?_
      refine (lift_ok_bind (optionalString_ok_iff.mpr hhelp)).trans ?_
      exact (lift_ok_bind (optionalString_ok_iff.mpr hreference)).trans rfl

section Descent

variable {D : String → List Json → NameTable → Contents → NameTable → Prop}
  (hd : ∀ key l items t c t', descend key l items t = (.ok c, t') ↔ D key items t c t')

include hd

theorem readNested_ok_iff {key : String} {l : Location} {head : FieldHead} {code : String}
    {item : Record} {t t' : NameTable} {table : Table} :
    readNested descend key l head code item t = (.ok table, t')
      ↔ ∃ below c mkey help, item.get? "children" = some (.array below)
        ∧ D (key ++ ">" ++ head.name) below t c t' ∧ OptionalText item "mkey" mkey
        ∧ KeyAmong mkey (c.1.map column) ∧ OptionalText item "help" help
        ∧ table = ⟨head.name, code, help, mkey, c.1, c.2⟩ := by
  constructor
  · intro h
    unfold readNested at h
    rcases hchildren : item.get? "children" with _ | (_ | _ | _ | _ | below | _) <;>
      simp only [hchildren] at h
    case some.array =>
      obtain ⟨c, t₁, hbelow, h⟩ := bind_ok h
      obtain ⟨mkey, hmkey, h⟩ := lift_bind_ok h
      have hread := (hd _ _ _ _ _ _).mp hbelow
      have hgiven := optionalString_ok_iff.mp hmkey
      cases mkey with
      | none =>
        obtain ⟨help, hhelp, h⟩ := lift_bind_ok h
        obtain ⟨rfl, rfl⟩ := pure_ok h
        exact ⟨below, c, none, help, rfl, hread, hgiven, keyAmong_none _,
          optionalString_ok_iff.mp hhelp, rfl⟩
      | some wanted =>
        dsimp only at h
        by_cases hany : (c.1.any fun f => f.wireName == wanted && !f.isTable) = true
        · rw [hany] at h
          obtain ⟨help, hhelp, h⟩ := lift_bind_ok h
          obtain ⟨rfl, rfl⟩ := pure_ok h
          refine ⟨below, c, some wanted, help, rfl, hread, hgiven, fun key hkey => ?_,
            optionalString_ok_iff.mp hhelp, rfl⟩
          cases hkey
          exact any_key_iff.mp hany
        · rw [Bool.eq_false_iff.mpr hany] at h
          exact absurd h throw_bind_not_ok
    all_goals exact absurd h throw_not_ok
  · rintro ⟨below, ⟨fields, tables⟩, mkey, help, hchildren, hbelow, hmkey, hkey, hhelp, rfl⟩
    unfold readNested
    rw [hchildren]
    refine (ok_bind ((hd _ l _ _ _ _).mpr hbelow)).trans ?_
    refine (lift_ok_bind (optionalString_ok_iff.mpr hmkey)).trans ?_
    cases mkey with
    | none => exact (lift_ok_bind (optionalString_ok_iff.mpr hhelp)).trans rfl
    | some wanted =>
      dsimp only
      rw [any_key_iff.mpr (hkey wanted rfl)]
      exact (lift_ok_bind (optionalString_ok_iff.mpr hhelp)).trans rfl

end Descent

/-- The reader of fields remembers the wire names before them; a derivation compares each wire name
with those behind it. -/
theorem readFields_ok_iff {room : Nat}
    (hd : ∀ key l items t c t', descend key l items t = (.ok c, t')
      ↔ ∃ less, room = less + 1 ∧ Reads less key items t c.1 c.2 t')
    {key : String} {l : Location} {i : Nat} {seen : List String} {items : List Json}
    {t t' : NameTable} {c : Contents} :
    readFields descend key l i seen items t = (.ok c, t')
      ↔ Reads room key items t c.1 c.2 t' ∧ ∀ f ∈ c.1, f.wireName ∉ seen := by
  -- `seen` grows along the items, while the derivation looks only ahead
  induction items generalizing i seen t c with
  | nil =>
    constructor
    · intro h
      obtain ⟨rfl, rfl⟩ := pure_ok h
      exact ⟨.nil room key _, by simp⟩
    · rintro ⟨h, -⟩
      obtain ⟨fields, tables⟩ := c
      cases h
      rfl
  | cons item items ih =>
    rw [readFields]
    constructor
    · intro h
      obtain ⟨⟨f, table?⟩, t₁, hfield, h⟩ := bind_ok h
      obtain ⟨⟨fields, tables⟩, t₂, hfields, h⟩ := bind_ok h
      obtain ⟨rfl, rfl⟩ := pure_ok h
      obtain ⟨members, head, code, t₀, help, reference, rfl, hhead, hseen, hcode, hhelp, hreference,
        rfl, htable⟩ := readField_ok_iff.mp hfield
      obtain ⟨hrest, hlater⟩ := ih.mp hfields
      have hnew : head.name ∉ fields.map Field.wireName := by
        intro hmem
        obtain ⟨g, hg, he⟩ := List.mem_map.mp hmem
        exact hlater g hg (by simp [he, FieldHead.field])
      have hunseen : ∀ g ∈ head.field code help reference :: fields, g.wireName ∉ seen := by
        intro g hg
        obtain rfl | hg := List.mem_cons.mp hg
        · exact hseen
        · exact fun hmem => hlater g hg (List.mem_cons_of_mem _ hmem)
      refine ⟨?_, hunseen⟩
      obtain ⟨hplain, homitted, rfl, rfl⟩ | ⟨hnested, table, rfl, htable⟩ := htable
      · exact .plain hhead hplain homitted hhelp hreference hcode hnew hrest
      · obtain ⟨below, inner, mkey, help', hchildren, ⟨less, rfl, hbelow⟩, hmkey, hkey, hhelp', rfl⟩ :=
          (readNested_ok_iff hd).mp htable
        obtain rfl : help' = help := hhelp'.unique hhelp
        exact .nested hhead hnested hchildren hhelp hreference hmkey hkey hcode hnew hbelow hrest
    · rintro ⟨h, hunseen⟩
      obtain ⟨fields, tables⟩ := c
      have hlater : ∀ {name : String} {rest : List Field}, name ∉ rest.map Field.wireName →
          (∀ f ∈ rest, f.wireName ∉ seen) → ∀ f ∈ rest, f.wireName ∉ name :: seen := by
        intro name rest hnew hrest f hf hmem
        obtain he | hmem := List.mem_cons.mp hmem
        · exact hnew (List.mem_map.mpr ⟨f, hf, he⟩)
        · exact hrest f hf hmem
      cases h with
      | plain hhead hplain homitted hhelp hreference hcode hnew hrest =>
        have hseen := hunseen _ List.mem_cons_self
        have hfields := (ih (i := i + 1) (c := (_, _))).mpr
          ⟨hrest, hlater hnew fun f hf => hunseen f (List.mem_cons_of_mem _ hf)⟩
        have hfield : readField descend key (l.child i) seen _ _ = (.ok (_, _), _) :=
          readField_ok_iff.mpr
          ⟨_, _, _, _, _, _, rfl, hhead, hseen, hcode, hhelp,
          hreference, rfl, .inl ⟨hplain, homitted, rfl, rfl⟩⟩
        exact (ok_bind hfield).trans ((ok_bind hfields).trans rfl)
      | nested hhead hnested hchildren hhelp hreference hmkey hkey hcode hnew hbelow hrest =>
        have hseen := hunseen _ List.mem_cons_self
        have hfields := (ih (i := i + 1) (c := (_, _))).mpr
          ⟨hrest, hlater hnew fun f hf => hunseen f (List.mem_cons_of_mem _ hf)⟩
        have hfield : readField descend key (l.child i) seen _ _ = (.ok (_, _), _) :=
          readField_ok_iff.mpr
          ⟨_, _, _, _, _, _, rfl, hhead, hseen, hcode, hhelp, hreference, rfl,
            .inr ⟨hnested, _, rfl, (readNested_ok_iff hd).mpr ⟨_, (_, _), _, _, hchildren,
              ⟨_, rfl, hbelow⟩, hmkey, hkey, hhelp, rfl⟩⟩⟩
        exact (ok_bind hfield).trans ((ok_bind hfields).trans rfl)

/-- On the levels of nesting that are left: a table with none left holds no nested table. -/
theorem readTable_ok_iff {limit room : Nat} {key : String} {l : Location} {items : List Json}
    {t t' : NameTable} {c : Contents} :
    readTable limit room key l items t = (.ok c, t') ↔ Reads room key items t c.1 c.2 t' := by
  induction room generalizing key l items t t' c with
  | zero =>
    -- with no room left every nested table is refused, and no derivation has one
    have hnone : ∀ (key : String) (l : Location) (items : List Json) (t : NameTable) (c : Contents)
        (t' : NameTable), (throw (.tooDeep l limit) : Reading Contents) t = (.ok c, t')
          ↔ ∃ less, 0 = less + 1 ∧ Reads less key items t c.1 c.2 t' := by
      intro key l items t c t'
      refine ⟨fun h => absurd h throw_not_ok, ?_⟩
      rintro ⟨less, hless, -⟩
      omega
    rw [readTable, readFields_ok_iff hnone]
    simp
  | succ room ih =>
    have hbelow : ∀ key l items t c t', readTable limit room key l items t = (.ok c, t')
        ↔ ∃ less, room + 1 = less + 1 ∧ Reads less key items t c.1 c.2 t' := by
      intro key l items t c t'
      rw [ih]
      constructor
      · exact fun h => ⟨room, rfl, h⟩
      · rintro ⟨less, hless, h⟩
        obtain rfl : room = less := by omega
        exact h
    rw [readTable, readFields_ok_iff hbelow]
    simp

/-! ## Whole documents -/

inductive RootItems (doc : Record) : List Json → Prop where
  | omitted (h : Omitted doc "fields") : RootItems doc []
  | listed (items : List Json) (h : doc.get? "fields" = some (.array items)) : RootItems doc items

theorem readRootFields_ok_iff {doc : Record} {items : List Json} :
    readRootFields doc = .ok items ↔ RootItems doc items := by
  unfold readRootFields
  constructor
  · intro h
    rcases hp : present? doc "fields" with _ | (_ | _ | _ | _ | items | _) <;> rw [hp] at h <;>
      cases h
    · exact .omitted (present?_eq_none_iff.mp hp)
    · exact .listed _ (present?_eq_some_iff.mp hp).1
  · rintro (h | ⟨items, h⟩)
    · rw [present?_eq_none_iff.mpr h]
    · rw [present?_eq_some_iff.mpr ⟨h, by simp⟩]

theorem RootItems.unique {doc : Record} {items items' : List Json} (h : RootItems doc items)
    (h' : RootItems doc items') : items = items' := by
  have hread := readRootFields_ok_iff.mpr h
  rw [readRootFields_ok_iff.mpr h'] at hread
  exact (Except.ok.inj hread).symm

theorem checkRootKey_ok_iff {fields : List Field} (hwires : (fields.map Field.wireName).Nodup)
    {mkey : Option String} :
    checkRootKey fields mkey = .ok () ↔ KeyAmong mkey (fields.map column) := by
  cases mkey with
  | none => exact ⟨fun _ => keyAmong_none _, fun _ => rfl⟩
  | some key =>
    simp only [checkRootKey]
    constructor
    · intro h wanted he
      cases he
      cases hfind : fields.find? fun f => f.wireName == key with
      | none =>
        rw [hfind] at h
        cases h
      | some f =>
        simp only [hfind] at h
        have hwire : f.wireName = key := by simpa using List.find?_some hfind
        by_cases htable : f.isTable = true
        · rw [if_pos htable] at h
          cases h
        · refine ⟨f.type, ?_, mt isTable_iff.mpr htable⟩
          rw [← hwire]
          exact List.mem_map_of_mem (List.mem_of_find?_eq_some hfind)
    · intro h
      obtain ⟨type, hmem, htype⟩ := h key rfl
      obtain ⟨f, hf, hcolumn⟩ := List.mem_map.mp hmem
      obtain ⟨rfl, rfl⟩ := Prod.mk.inj hcolumn
      have hfind : fields.find? (fun g => g.wireName == f.wireName) = some f := by
        cases hfound : fields.find? fun g => g.wireName == f.wireName with
        | none => exact absurd (List.find?_eq_none.mp hfound f hf) (by simp)
        | some g =>
          have hwire : g.wireName = f.wireName := by simpa using List.find?_some hfound
          rw [List.inj_on_of_nodup_map hwires (List.mem_of_find?_eq_some hfound) hf hwire]
      simp only [hfind]
      rw [if_neg (mt isTable_iff.mp htype)]

theorem Reads.wires {room : Nat} {key : String} {items : List Json} {t t' : NameTable}
    {fields : List Field} {tables : List Table} (h : Reads room key items t fields tables t') :
    (fields.map Field.wireName).Nodup := by
  induction h with
  | nil => simp
  | plain _ _ _ _ _ _ hnew _ ih => exact List.nodup_cons.mpr ⟨hnew, ih⟩
  | nested _ _ _ _ _ _ _ _ hnew _ _ _ ih => exact List.nodup_cons.mpr ⟨hnew, ih⟩

theorem readResource_ok_iff {limit : Nat} {doc : Json} {r : Resource} {t t' : NameTable} :
    readResource limit doc t = (.ok r, t')
      ↔ ∃ members h items modules t₁, doc = .object members ∧ HasHeader members h
        ∧ r.category = h.category ∧ r.segments = h.segments ∧ r.methods = h.methods
        ∧ readModules h.category.text h.segments t = (.ok modules, t₁) ∧ r.modules = modules
        ∧ OptionalText members "help" r.help ∧ RootItems members items
        ∧ Reads limit h.dottedPath items t₁ r.fields r.children t'
        ∧ OptionalText members "mkey" r.mkey ∧ KeyAmong r.mkey (r.fields.map column) := by
  constructor
  · intro h
    unfold readResource at h
    obtain ⟨members, hmembers, h⟩ := lift_bind_ok h
    obtain ⟨header, hheader, h⟩ := lift_bind_ok h
    obtain ⟨modules, t₁, hmodules, h⟩ := bind_ok h
    obtain ⟨help, hhelp, h⟩ := lift_bind_ok h
    obtain ⟨items, hitems, h⟩ := lift_bind_ok h
    obtain ⟨⟨fields, children⟩, t₂, htable, h⟩ := bind_ok h
    obtain ⟨mkey, hmkey, h⟩ := lift_bind_ok h
    obtain ⟨_, hkey, h⟩ := lift_bind_ok h
    obtain ⟨rfl, rfl⟩ := pure_ok h
    have hreads := readTable_ok_iff.mp htable
    have hdoc : doc = .object members := by
      cases doc <;> cases hmembers
      rfl
    exact ⟨members, header, items, modules, t₁, hdoc, readHeader_ok_iff.mp hheader, rfl, rfl, rfl,
      hmodules, rfl, optionalString_ok_iff.mp hhelp, readRootFields_ok_iff.mp hitems, hreads,
      optionalString_ok_iff.mp hmkey, (checkRootKey_ok_iff hreads.wires).mp hkey⟩
  · rintro ⟨members, header, items, modules, t₁, rfl, hheader, hcategory, hsegments, hmethods,
      hmodules, he, hhelp, hitems, hreads, hmkey, hkey⟩
    obtain ⟨_, _, _, help, mkey, fields, children, _⟩ := r
    dsimp only at hcategory hsegments hmethods he hhelp hreads hmkey hkey
    subst hcategory hsegments hmethods he
    unfold readResource
    refine (lift_ok_bind (x := members) rfl).trans ?_
    refine (lift_ok_bind (readHeader_ok_iff.mpr hheader)).trans ?_
    refine (ok_bind hmodules).trans ?_
    refine (lift_ok_bind (optionalString_ok_iff.mpr hhelp)).trans ?_
    refine (lift_ok_bind (readRootFields_ok_iff.mpr hitems)).trans ?_
    refine (ok_bind (readTable_ok_iff (l := ⟨[]⟩) (c := (fields, children)).mpr hreads)).trans ?_
    refine (lift_ok_bind (optionalString_ok_iff.mpr hmkey)).trans ?_
    exact (lift_ok_bind ((checkRootKey_ok_iff hreads.wires).mpr hkey)).trans rfl

end RestForge.Schema
