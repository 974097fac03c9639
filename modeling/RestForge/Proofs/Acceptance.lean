import RestForge.Proofs.TableReadings

/-!
# Which documents are accepted

A document is read, beginning with no names, exactly if it has the format of a schema and no two of
its names get in each other's way.

* `FieldFormat`, `TableFormat`, `SchemaFormat`: the format, as conditions on the document alone.
* `Asks`, `NamesApart`: the names that a document asks for in the tables of each key, and the
  condition on them.
* `Reads.tableFormat`, `Reads.asked`: what a reading that succeeded says of the document.
* `TableFormat.reads`: a table in the format is read if its names can be given.
* `readResource_accepts_iff`: the documents that are accepted.
-/

set_option autoImplicit false

namespace RestForge.Schema

open Naming

/-! ## The format -/

/-- One field, apart from the table that may be nested in it. -/
structure FieldFormat (item : Record) (name : String) (type : FieldType) : Prop where
  called : item.get? "name" = some (.string name)
  named : name ≠ ""
  tagged : ∃ tag, item.get? "type" = some (.string tag) ∧ (tag = type.text ∨ tag ∈ type.aliases)
  required : Omitted item "required" ∨ ∃ b, item.get? "required" = some (.bool b)
  options : ∃ texts, OptionList item texts ∧ (texts ≠ [] ↔ type = .enum)
  help : ∃ text, OptionalText item "help" text
  reference : ∃ text, OptionalText item "datasource" text

/-- `TableFormat room items columns`: the items of a table with `room` levels of nesting left, and
the names and types of its fields. -/
inductive TableFormat : Nat → List Json → List (String × FieldType) → Prop where
  | nil (room : Nat) : TableFormat room [] []
  | plain {room : Nat} {item : Record} {items : List Json} {name : String} {type : FieldType}
    {columns : List (String × FieldType)} (hfield : FieldFormat item name type)
    (hplain : type ≠ .nestedTable) (hchildren : Omitted item "children")
    (hnew : name ∉ columns.map Prod.fst) (rest : TableFormat room items columns) :
    TableFormat room (.object item :: items) ((name, type) :: columns)
  | nested {room : Nat} {item : Record} {items below : List Json} {name : String}
    {mkey : Option String} {inner columns : List (String × FieldType)}
    (hfield : FieldFormat item name .nestedTable)
    (hchildren : item.get? "children" = some (.array below)) (hbelow : TableFormat room below inner)
    (hmkey : OptionalText item "mkey" mkey) (hkey : KeyAmong mkey inner)
    (hnew : name ∉ columns.map Prod.fst) (rest : TableFormat (room + 1) items columns) :
    TableFormat (room + 1) (.object item :: items) ((name, .nestedTable) :: columns)

/-- Tables nest at most `limit` levels deep. -/
structure SchemaFormat (limit : Nat) (doc : Record) : Prop where
  category : ∃ word c, doc.get? "category" = some (.string word) ∧ CategoryWord word c
  path : ∃ raw segments, doc.get? "path" = some (.string raw) ∧ PathText raw segments
  methods : ∃ items, doc.get? "methods" = some (.array items)
    ∧ ∀ item ∈ items, ∃ word m, item = .string word ∧ NamesMethod m word
  help : ∃ text, OptionalText doc "help" text
  table : ∃ items columns mkey, RootItems doc items ∧ TableFormat limit items columns
    ∧ OptionalText doc "mkey" mkey ∧ KeyAmong mkey columns

theorem fieldFormat_iff {item : Record} {name : String} {type : FieldType} :
    FieldFormat item name type ↔ ∃ head help reference, HasHead item head
      ∧ OptionalText item "help" help ∧ OptionalText item "datasource" reference
      ∧ head.name = name ∧ head.type = type := by
  constructor
  · rintro ⟨hname, hnamed, htype, hrequired, ⟨texts, htexts, henum⟩, ⟨help, hhelp⟩, ⟨ref, href⟩⟩
    have hdefault : DefaultText item (readDefault item) := readDefault_eq_iff.mp rfl
    obtain homitted | ⟨b, hb⟩ := hrequired
    · exact ⟨⟨name, type, false, texts, readDefault item⟩, help, ref,
        ⟨hname, hnamed, htype, .inl ⟨homitted, rfl⟩, htexts, henum, hdefault⟩, hhelp, href, rfl, rfl⟩
    · exact ⟨⟨name, type, b, texts, readDefault item⟩, help, ref,
        ⟨hname, hnamed, htype, .inr hb, htexts, henum, hdefault⟩, hhelp, href, rfl, rfl⟩
  · rintro ⟨head, help, reference, hhead, hhelp, hreference, rfl, rfl⟩
    refine ⟨hhead.name, hhead.named, hhead.type, ?_, ⟨_, hhead.options, hhead.enums⟩, ⟨_, hhelp⟩,
      ⟨_, hreference⟩⟩
    exact hhead.required.imp And.left fun hgiven => ⟨_, hgiven⟩

theorem forall₂_methods_iff {items : List Json} :
    (∃ listed, List.Forall₂ (fun item m => ∃ word, item = .string word ∧ NamesMethod m word)
      items listed) ↔ ∀ item ∈ items, ∃ word m, item = .string word ∧ NamesMethod m word := by
  induction items with
  | nil => simp
  | cons item items ih =>
    simp only [List.forall_mem_cons, ← ih]
    constructor
    · rintro ⟨_, _ | ⟨⟨word, hword, hm⟩, hrest⟩⟩
      exact ⟨⟨word, _, hword, hm⟩, _, hrest⟩
    · rintro ⟨⟨word, m, hword, hm⟩, listed, hrest⟩
      exact ⟨m :: listed, .cons ⟨word, hword, hm⟩ hrest⟩

theorem exists_hasHeader_iff {doc : Record} :
    (∃ h, HasHeader doc h)
      ↔ (∃ word c, doc.get? "category" = some (.string word) ∧ CategoryWord word c)
        ∧ (∃ raw segments, doc.get? "path" = some (.string raw) ∧ PathText raw segments)
        ∧ ∃ items, doc.get? "methods" = some (.array items)
          ∧ ∀ item ∈ items, ∃ word m, item = .string word ∧ NamesMethod m word := by
  simp only [← forall₂_methods_iff]
  constructor
  · rintro ⟨h, ⟨word, hword, hc⟩, ⟨raw, hraw, hpath⟩, items, listed, hitems, hlisted, -⟩
    exact ⟨⟨word, _, hword, hc⟩, ⟨raw, _, hraw, hpath⟩, items, hitems, listed, hlisted⟩
  · rintro ⟨⟨word, c, hword, hc⟩, ⟨raw, segments, hraw, hpath⟩, items, hitems, listed, hlisted⟩
    exact ⟨⟨c, segments, Method.all.filter listed.contains⟩, ⟨word, hword, hc⟩, ⟨raw, hraw, hpath⟩,
      items, listed, hitems, hlisted, rfl⟩

/-! ## Names -/

/-- `Asks key items k name`: in the table with the given key and items, or in one nested in it, the
name is asked for in the table with the key `k`. -/
inductive Asks : String → List Json → String → String → Prop where
  | here {key : String} {items : List Json} {item : Record} {name : String}
    (hitem : .object item ∈ items) (hname : item.get? "name" = some (.string name)) :
    Asks key items key name
  | inside {key k : String} {items children : List Json} {item : Record} {name wire : String}
    (hitem : .object item ∈ items) (hname : item.get? "name" = some (.string name))
    (hchildren : item.get? "children" = some (.array children))
    (h : Asks (key ++ ">" ++ name) children k wire) : Asks key items k wire

/-- Different names asked for in tables of one key are spelled differently. -/
def NamesApart (doc : Record) : Prop :=
  ∀ h items k name name', HasHeader doc h → RootItems doc items → Asks h.dottedPath items k name →
    Asks h.dottedPath items k name' → identifier .fields name = identifier .fields name' →
    name = name'

theorem asks_cons {key k : String} {item : Json} {items : List Json} {wire : String} :
    Asks key (item :: items) k wire ↔ Asks key [item] k wire ∨ Asks key items k wire := by
  constructor
  · rintro (⟨hitem, hname⟩ | ⟨hitem, hname, hchildren, h⟩)
    · obtain rfl | hitem := List.mem_cons.mp hitem
      · exact .inl (.here List.mem_cons_self hname)
      · exact .inr (.here hitem hname)
    · obtain rfl | hitem := List.mem_cons.mp hitem
      · exact .inl (.inside List.mem_cons_self hname hchildren h)
      · exact .inr (.inside hitem hname hchildren h)
  · have hmono : ∀ {some all : List Json}, some ⊆ all → Asks key some k wire →
        Asks key all k wire := by
      rintro some all hsub (⟨hitem, hname⟩ | ⟨hitem, hname, hchildren, h⟩)
      · exact .here (hsub hitem) hname
      · exact .inside (hsub hitem) hname hchildren h
    rintro (h | h)
    · exact hmono (by simp) h
    · exact hmono (by simp) h

theorem asks_object {key k : String} {item : Record} {name wire : String}
    (hname : item.get? "name" = some (.string name)) :
    Asks key [.object item] k wire ↔ (k = key ∧ wire = name)
      ∨ ∃ children, item.get? "children" = some (.array children)
        ∧ Asks (key ++ ">" ++ name) children k wire := by
  constructor
  · rintro (⟨hitem, hother⟩ | ⟨hitem, hother, hchildren, h⟩)
    · cases List.mem_singleton.mp hitem
      rw [hname] at hother
      cases hother
      exact .inl ⟨rfl, rfl⟩
    · cases List.mem_singleton.mp hitem
      rw [hname] at hother
      cases hother
      exact .inr ⟨_, hchildren, h⟩
  · rintro (⟨rfl, rfl⟩ | ⟨children, hchildren, h⟩)
    · exact .here (List.mem_singleton_self _) hname
    · exact .inside (List.mem_singleton_self _) hname hchildren h

/-! ## What was read has the format -/

section Reading

variable {room : Nat} {key : String} {items : List Json} {t t' : NameTable} {fields : List Field}
  {tables : List Table}

theorem map_fst_column (fields : List Field) :
    (fields.map column).map Prod.fst = fields.map Field.wireName := by
  rw [List.map_map]
  rfl

theorem Reads.tableFormat (h : Reads room key items t fields tables t') :
    TableFormat room items (fields.map column) := by
  induction h with
  | nil => exact .nil _
  | plain hhead hplain hchildren hhelp hreference _ hnew _ ih =>
    rw [List.map_cons, FieldHead.column_field]
    have hfield := fieldFormat_iff.mpr ⟨_, _, _, hhead, hhelp, hreference, rfl, rfl⟩
    exact .plain hfield hplain hchildren (by rwa [map_fst_column]) ih
  | nested hhead hnested hchildren hhelp hreference hmkey hkey _ hnew _ _ ihbelow ih =>
    rw [List.map_cons, FieldHead.column_field, hnested]
    have hfield := fieldFormat_iff.mpr ⟨_, _, _, hhead, hhelp, hreference, rfl, hnested⟩
    exact .nested hfield hchildren ihbelow hmkey hkey (by rwa [map_fst_column]) ih

theorem Reads.keeps (ht : t.Sound) (h : Reads room key items t fields tables t') :
    t.Extends t' ∧ t'.Sound :=
  (keeps_readTable room room key ⟨[]⟩ items).of_eq ht
    ((readTable_ok_iff (c := (fields, tables))).mpr h)

theorem giveName_spelled {key wire code : String} {t t' : NameTable} (ht : t.Sound)
    (h : giveName (Scope.fields key) wire t = (.ok code, t')) :
    t.Extends t' ∧ t'.Sound ∧ code = identifier .fields wire
      ∧ t'.codeName? (Scope.fields key) wire = some (identifier .fields wire) := by
  obtain ⟨hext, ht'⟩ := (keeps_giveName _ _).of_eq ht h
  have hgiven := giveName_ok h
  have hcode : code = identifier .fields wire :=
    ht'.spelled (Scope.fields key) wire code (by simp [Scope.fields]) hgiven
  rw [hcode] at hgiven
  exact ⟨hext, ht', hcode, hgiven⟩

/-- Every name that a table and the tables in it ask for is held after reading. -/
theorem Reads.asked (ht : t.Sound) (h : Reads room key items t fields tables t') {k wire : String}
    (hasks : Asks key items k wire) :
    t'.codeName? (Scope.fields k) wire = some (identifier .fields wire) := by
  -- names are never taken back: each is held from the field on that asks for it
  induction h with
  | nil => obtain ⟨hitem, -⟩ | ⟨hitem, -⟩ := hasks <;> cases hitem
  | plain hhead _ hchildren _ _ hname _ rest ih =>
    obtain ⟨-, ht₁, -, hgiven⟩ := giveName_spelled ht hname
    obtain hasks | hasks := asks_cons.mp hasks
    · obtain ⟨rfl, rfl⟩ | ⟨children, hother, -⟩ := (asks_object hhead.name).mp hasks
      · exact (rest.keeps ht₁).1 _ _ _ hgiven
      · obtain hchildren | hchildren := hchildren <;> rw [hchildren] at hother <;> cases hother
    · exact ih ht₁ hasks
  | nested hhead _ hchildren _ _ _ _ hname _ hbelow rest ihbelow ih =>
    obtain ⟨-, ht₁, -, hgiven⟩ := giveName_spelled ht hname
    obtain ⟨hext₂, ht₂⟩ := hbelow.keeps ht₁
    obtain hasks | hasks := asks_cons.mp hasks
    · obtain ⟨rfl, rfl⟩ | ⟨children, hother, hasks⟩ := (asks_object hhead.name).mp hasks
      · exact (rest.keeps ht₂).1 _ _ _ (hext₂ _ _ _ hgiven)
      · rw [hchildren] at hother
        cases hother
        exact (rest.keeps ht₂).1 _ _ _ (ihbelow ht₁ hasks)
    · exact ih ht₂ hasks

end Reading

/-! ## What has the format is read -/

/-- The names of fields in a table of names are all in a set of names by table key. -/
def OnlyFields (A : String → String → Prop) (t : NameTable) : Prop :=
  ∀ k wire code, t.codeName? (Scope.fields k) wire = some code → A k wire

section Giving

variable {A : String → String → Prop}
  (hapart : ∀ k name name', A k name → A k name' →
    identifier .fields name = identifier .fields name' → name = name')

include hapart

/-- A name of a set that is apart can be given: its code name has no other owner, since the owner
would be in the set as well. -/
theorem giveName_apart {t : NameTable} (ht : t.Sound) (honly : OnlyFields A t) {key wire : String}
    (hmem : A key wire) :
    ∃ t', giveName (Scope.fields key) wire t = (.ok (identifier .fields wire), t') ∧ t'.Sound
      ∧ OnlyFields A t' := by
  have hkeeps := (keeps_giveName (Scope.fields key) wire) t ht
  obtain ⟨known, hk, he⟩ | ⟨owner, hw, hc, -⟩ | ⟨hw, hc, he⟩ :=
    t.record_cases (Scope.fields key) wire (identifier .fields wire)
  · have hknown : known = identifier .fields wire :=
      ht.spelled (Scope.fields key) wire known (by simp [Scope.fields]) hk
    rw [hknown] at hk
    exact ⟨t, giveName_known hk, ht, honly⟩
  · have howned := (ht.twoWay _ _ _).mpr hc
    have hspelled := ht.spelled _ _ _ (by simp [Scope.fields]) howned
    have hsame := hapart key wire owner hmem (honly _ _ _ howned) hspelled
    rw [hsame, howned] at hw
    cases hw
  · have hgive : giveName (Scope.fields key) wire t
        = (.ok (identifier .fields wire), t.add (Scope.fields key) wire (identifier .fields wire)) :=
      giveName_free rfl hw hc
    rw [hgive] at hkeeps
    refine ⟨_, hgive, hkeeps.2, fun k name code hname => ?_⟩
    rw [NameTable.codeName?_add] at hname
    split at hname
    · rename_i hnew
      obtain ⟨hscope, rfl⟩ := hnew
      cases hscope
      exact hmem
    · exact honly k name code hname

theorem TableFormat.reads {room : Nat} {items : List Json} {columns : List (String × FieldType)}
    (h : TableFormat room items columns) {key : String} {t : NameTable} (ht : t.Sound)
    (honly : OnlyFields A t) (hasked : ∀ k wire, Asks key items k wire → A k wire) :
    ∃ fields tables t', Reads room key items t fields tables t' ∧ fields.map column = columns
      ∧ t'.Sound ∧ OnlyFields A t' := by
  -- reading gives only names from `A`, so that the next one finds no owner outside of it
  induction h generalizing key t with
  | nil => exact ⟨[], [], t, .nil _ _ _, rfl, ht, honly⟩
  | plain hfield hplain hchildren hnew _ ih =>
    obtain ⟨head, help, reference, hhead, hhelp, hreference, rfl, rfl⟩ := fieldFormat_iff.mp hfield
    have hmem := hasked _ _ (.here List.mem_cons_self hfield.called)
    obtain ⟨t₁, hname, ht₁, honly₁⟩ := giveName_apart hapart ht honly hmem
    obtain ⟨fields, tables, t', hrest, rfl, ht', honly'⟩ :=
      ih ht₁ honly₁ fun k wire hasks => hasked k wire (asks_cons.mpr (.inr hasks))
    rw [map_fst_column] at hnew
    exact ⟨_, tables, t', .plain hhead hplain hchildren hhelp hreference hname hnew hrest, rfl, ht',
      honly'⟩
  | nested hfield hchildren _ hmkey hkey hnew _ ihbelow ih =>
    obtain ⟨head, help, reference, hhead, hhelp, hreference, rfl, hnested⟩ :=
      fieldFormat_iff.mp hfield
    have hmem := hasked _ _ (.here List.mem_cons_self hfield.called)
    obtain ⟨t₁, hname, ht₁, honly₁⟩ := giveName_apart hapart ht honly hmem
    obtain ⟨inner, innerTables, t₂, hbelow, rfl, ht₂, honly₂⟩ := ihbelow ht₁ honly₁
      fun k wire hasks => hasked k wire (.inside List.mem_cons_self hfield.called hchildren hasks)
    obtain ⟨fields, tables, t', hrest, rfl, ht', honly'⟩ :=
      ih ht₂ honly₂ fun k wire hasks => hasked k wire (asks_cons.mpr (.inr hasks))
    rw [map_fst_column] at hnew
    refine ⟨_, _, t', .nested hhead hnested hchildren hhelp hreference hmkey hkey hname hnew hbelow
      hrest, ?_, ht', honly'⟩
    rw [List.map_cons, FieldHead.column_field, hnested]

end Giving

/-- The scopes of the modules on one path get longer and longer, so that no two segments meet. -/
theorem readModules_fresh (parent : String) (segments : List String) {t : NameTable}
    (ht : t.Sound) (hbefore : ∀ s wire code, t.codeName? s wire = some code →
      s.kind = .modules ∧ s.path.length < parent.length) :
    ∃ modules t', readModules parent segments t = (.ok modules, t') ∧ t'.Sound
      ∧ ∀ s wire code, t'.codeName? s wire = some code → s.kind = .modules := by
  induction segments generalizing parent t with
  | nil => exact ⟨[], t, rfl, ht, fun s wire code h => (hbefore s wire code h).1⟩
  | cons segment segments ih =>
    have hnone : ∀ wire, t.codeName? (Scope.modules parent) wire = none := by
      intro wire
      cases hcode : t.codeName? (Scope.modules parent) wire with
      | none => rfl
      | some code => exact absurd (hbefore _ _ _ hcode).2 (by simp [Scope.modules])
    have hfree : t.wireName? (Scope.modules parent) (identifier .modules segment) = none := by
      cases hwire : t.wireName? (Scope.modules parent) (identifier .modules segment) with
      | none => rfl
      | some owner =>
        have howned := (ht.twoWay _ _ _).mpr hwire
        rw [hnone] at howned
        cases howned
    let t₁ := t.add (Scope.modules parent) segment (identifier .modules segment)
    have hgive : giveName (Scope.modules parent) segment t
        = (.ok (identifier .modules segment), t₁) := giveName_free rfl (hnone segment) hfree
    have ht₁ : t₁.Sound := ((keeps_giveName _ _).of_eq ht hgive).2
    have hlonger : parent.length < (parent ++ "." ++ segment).length := by
      simp only [String.length_append]
      have hdot : ".".length = 1 := rfl
      omega
    have hbefore₁ : ∀ s wire code, t₁.codeName? s wire = some code →
        s.kind = .modules ∧ s.path.length < (parent ++ "." ++ segment).length := by
      intro s wire code hname
      rw [NameTable.codeName?_add] at hname
      split at hname
      · rename_i hnew
        rw [hnew.1]
        exact ⟨rfl, hlonger⟩
      · obtain ⟨hmodule, hshort⟩ := hbefore s wire code hname
        exact ⟨hmodule, hshort.trans hlonger⟩
    obtain ⟨modules, t', hmodules, ht', hkind⟩ := ih (parent ++ "." ++ segment) ht₁ hbefore₁
    refine ⟨identifier .modules segment :: modules, t', ?_, ht', hkind⟩
    rw [readModules]
    exact (ok_bind hgive).trans ((ok_bind hmodules).trans rfl)

/-! ## Documents -/

/-- **A document is accepted exactly if it has the format of a schema and its names are apart.** With
no names given before, reading succeeds if and only if the document is an object in the format, with
tables nested at most `limit` levels deep, in which no two different names of fields that are asked
for in tables of one key have the same spelling. -/
theorem readResource_accepts_iff (limit : Nat) (doc : Json) :
    (∃ r t, readResource limit doc .empty = (.ok r, t))
      ↔ ∃ members, doc = .object members ∧ SchemaFormat limit members ∧ NamesApart members := by
  constructor
  · rintro ⟨r, t, hread⟩
    obtain ⟨members, h, items, modules, t₁, rfl, hheader, -, -, -, hmodules, -, hhelp, hitems, hreads,
      hmkey, hkey⟩ := readResource_ok_iff.mp hread
    obtain ⟨-, ht₁⟩ := (keeps_readModules _ _).of_eq NameTable.sound_empty hmodules
    obtain ⟨hcategory, hpath, hmethods⟩ := exists_hasHeader_iff.mp ⟨h, hheader⟩
    refine ⟨members, rfl, ⟨hcategory, hpath, hmethods, ⟨_, hhelp⟩, items, _, _, hitems,
      hreads.tableFormat, hmkey, hkey⟩, ?_⟩
    intro h' items' k name name' hheader' hitems' hasks hasks' he
    obtain rfl : h' = h := hheader'.unique hheader
    obtain rfl : items' = items := hitems'.unique hitems
    have hheld := hreads.asked ht₁ hasks
    have hheld' := hreads.asked ht₁ hasks'
    rw [← he] at hheld'
    exact (hreads.keeps ht₁).2.twoWay.wire_unique hheld hheld'
  · rintro ⟨members, rfl, hformat, hapart⟩
    obtain ⟨h, hheader⟩ :=
      exists_hasHeader_iff.mpr ⟨hformat.category, hformat.path, hformat.methods⟩
    obtain ⟨items, columns, mkey, hitems, htable, hmkey, hkey⟩ := hformat.table
    obtain ⟨help, hhelp⟩ := hformat.help
    obtain ⟨modules, t₁, hmodules, ht₁, hkind⟩ := readModules_fresh h.category.text h.segments
      NameTable.sound_empty (by simp)
    have honly : OnlyFields (Asks h.dottedPath items) t₁ := by
      intro k wire code hname
      have hmodule := hkind _ _ _ hname
      cases hmodule
    obtain ⟨fields, tables, t', hreads, rfl, -, -⟩ := htable.reads
      (fun k name name' hasks hasks' => hapart h items k name name' hheader hitems hasks hasks')
      ht₁ honly fun k wire hasks => hasks
    exact ⟨⟨h.category, h.segments, modules, help, mkey, fields, tables, h.methods⟩, t',
      readResource_ok_iff.mpr ⟨members, h, items, modules, t₁, rfl, hheader, rfl, rfl, rfl, hmodules,
        rfl, hhelp, hitems, hreads, hmkey, hkey⟩⟩

end RestForge.Schema
