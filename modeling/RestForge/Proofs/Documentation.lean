import RestForge.Proofs.DistinctNames
import RestForge.Proofs.InnerReturns
import RestForge.Proofs.TokenDocs

/-!
# The documentation of generated files

Texts of a schema get into the documentation of the generated files. Help texts and what is known of a
field are cut into lines, and each line is trimmed; other documentation is one sentence about a name.
A line comment must not hold a carriage return, which none of this takes out of the middle of a line.

* `IsDocLine`: a trimmed line, one space behind the comment mark.
* `Returning`: a carriage return is left in some documentation.
* `innerReturn_modelDoc`, `innerReturn_fieldDoc`, `innerReturn_clientDoc`: when one is left of a text
  that is cut into lines.
* `returning_typeItems`, `returning_nested`: the documentation of a file, table by table.
* `returning_model`, `returning_client`, `returning_validators`, `returning_tests`: when one is left in
  each of the four files.
* `Returns`, `documentation_returns_iff`: the texts of a schema that carry one into a file.
* `return_documented`: a schema with such a text.
-/

set_option autoImplicit false

namespace RestForge.Emit

open Source Naming Schema
open Text (InnerReturn InnerReturnIn not_innerReturn)

/-! ## Lines of documentation -/

/-- Nothing of the indentation of the text is left. -/
structure IsDocLine (line : String) : Prop where
  oneLine : '\n' ∉ line.toList
  indented : line = "" ∨ ∃ text, text ≠ "" ∧ Text.trim text = text ∧ line = " " ++ text

theorem isDocLine_docLine {line : String} (h : '\n' ∉ line.toList) : IsDocLine (docLine line) := by
  rw [docLine]
  split
  · exact ⟨by simp, .inl rfl⟩
  · rename_i hne
    refine ⟨?_, .inr ⟨Text.trim line, by simpa using hne, Text.trimWhere_trimWhere _ line, rfl⟩⟩
    intro hmem
    have htrim : '\n' ∈ (Text.trim line).toList := by simpa using hmem
    exact h (Text.mem_of_mem_trimWhere htrim)

theorem return_mem_docLine (line : String) :
    '\r' ∈ (docLine line).toList ↔ '\r' ∈ (Text.trim line).toList := by
  rw [docLine]
  split
  · rename_i hempty
    rw [String.isEmpty_iff.mp hempty]
  · simp

theorem docsOf_docAttributes (text : String) :
    docsOf (docAttributes text) = (Text.lines text).map docLine := by
  rw [docsOf, docAttributes, List.filterMap_map, ← List.filterMap_eq_map]
  rfl

theorem docsOf_append_other {a : Attribute} (h : a.doc? = none) (attrs : List Attribute) :
    docsOf (attrs ++ [a]) = docsOf attrs := by
  rw [docsOf, List.filterMap_append, List.filterMap_cons_none h, List.filterMap_nil, List.append_nil]
  rfl

theorem exists_mem_flatMap {α β : Type} {P : β → Prop} (xs : List α) (f : α → List β) :
    (∃ y ∈ xs.flatMap f, P y) ↔ ∃ x ∈ xs, ∃ y ∈ f x, P y := by
  constructor
  · rintro ⟨y, hy, h⟩
    obtain ⟨x, hx, hy⟩ := List.mem_flatMap.mp hy
    exact ⟨x, hx, y, hy, h⟩
  · rintro ⟨x, hx, y, hy, h⟩
    exact ⟨y, List.mem_flatMap.mpr ⟨x, hx, hy⟩, h⟩

/-- There is a carriage return in the documentation. -/
def Returning (docs : List String) : Prop := ∃ d ∈ docs, '\r' ∈ d.toList

@[simp] theorem returning_nil : ¬Returning [] := by simp [Returning]

@[simp] theorem returning_cons (d : String) (docs : List String) :
    Returning (d :: docs) ↔ '\r' ∈ d.toList ∨ Returning docs := by
  simp [Returning]

@[simp] theorem returning_append (docs docs' : List String) :
    Returning (docs ++ docs') ↔ Returning docs ∨ Returning docs' := by
  simp [Returning, or_and_right, exists_or]

@[simp] theorem returning_flatMap {α : Type} (xs : List α) (docs : α → List String) :
    Returning (xs.flatMap docs) ↔ ∃ x ∈ xs, Returning (docs x) :=
  exists_mem_flatMap xs docs

theorem notMem_ofList {cs : List Char} (h : '\r' ∉ cs) : '\r' ∉ (String.ofList cs).toList := by
  rwa [String.toList_ofList]

/-- Documentation that is always the same. -/
theorem not_returning_fixed {cs : List Char} {docs : List String} (h : '\r' ∉ cs)
    (hdocs : ¬Returning docs) : ¬Returning (String.ofList cs :: docs) := by
  rw [returning_cons, not_or]
  exact ⟨notMem_ofList h, hdocs⟩

theorem returning_docAttributes (text : String) :
    Returning (docsOf (docAttributes text)) ↔ InnerReturn text.toList := by
  rw [docsOf_docAttributes, Text.innerReturn_iff_line, Returning]
  simp only [List.mem_map, exists_exists_and_eq_and, return_mem_docLine]

/-! ## Sentences about names -/

theorem return_mem_sentence (pre : String) (hpre : '\r' ∉ pre.toList) (s : String) :
    '\r' ∈ (pre ++ ticked s ++ ".").toList ↔ '\r' ∈ s.toList := by
  simp [ticked, hpre]

theorem innerReturn_ticked (pre post : String) (hpre : '\r' ∉ pre.toList)
    (hpost : '\r' ∉ post.toList) (s : String) :
    InnerReturn (pre ++ ticked s ++ post).toList ↔ InnerReturnIn s := by
  have htick : Text.isBlank '`' = false := by decide
  have hmarked := Text.innerReturn_marked hpre htick htick s post.toList
  have hpost : ¬InnerReturn ('`' :: post.toList) := not_innerReturn (by simp [hpost])
  rw [or_iff_left hpost] at hmarked
  rw [← hmarked]
  simp [ticked]

/-- A sentence about a name, behind an empty line. -/
theorem innerReturn_below (pre : String) (hpre : '\r' ∉ pre.toList) (help s : String) :
    InnerReturn (help ++ ("\n\n" ++ pre) ++ ticked s ++ ".").toList
      ↔ InnerReturn help.toList ∨ InnerReturnIn s := by
  have hlines : (help ++ ("\n\n" ++ pre) ++ ticked s ++ ".").toList
      = help.toList ++ '\n' :: ([] ++ '\n' :: (pre ++ ticked s ++ ".").toList) := by simp
  have hempty : ¬InnerReturn [] := not_innerReturn (by simp)
  rw [hlines, Text.innerReturn_append_line, Text.innerReturn_append_line,
    innerReturn_ticked pre "." hpre (by decide), or_iff_right hempty]

theorem innerReturn_listed (pre : String) (hpre : '\r' ∉ pre.toList) (values : List String) :
    InnerReturn (pre ++ String.intercalate ", " (values.map ticked) ++ ".").toList
      ↔ ∃ v ∈ values, InnerReturnIn v := by
  have htick : Text.isBlank '`' = false := by decide
  induction values generalizing pre with
  | nil =>
    have hnone : ¬InnerReturn (pre.toList ++ ['.']) := not_innerReturn (by simp [hpre])
    simpa using hnone
  | cons v values ih =>
    cases values with
    | nil => simpa using innerReturn_ticked pre "." hpre (by decide) v
    | cons w values =>
      have hrest : InnerReturn ("`, " ++ String.intercalate ", " ((w :: values).map ticked)
          ++ ".").toList ↔ ∃ v ∈ w :: values, InnerReturnIn v := ih "`, " (by decide)
      have hmarked := Text.innerReturn_marked hpre htick htick v
        (", " ++ String.intercalate ", " ((w :: values).map ticked) ++ ".").toList
      rw [List.exists_mem_cons_iff, ← hrest]
      simpa [ticked] using hmarked

/-! ## Texts that are cut into lines -/

def HelpReturn (help : Option String) : Prop := ∃ text, help = some text ∧ InnerReturn text.toList

theorem innerReturn_modelDoc (p : PlacedTable) :
    InnerReturn (modelDoc p).toList ↔ HelpReturn p.help ∨ InnerReturnIn p.dotted := by
  rw [modelDoc, HelpReturn]
  cases p.help with
  | none => simpa using innerReturn_ticked "Model for " "." (by decide) (by decide) p.dotted
  | some help => simpa using innerReturn_below "Wire path: " (by decide) help p.dotted

theorem innerReturn_clientDoc (p : PlacedTable) :
    InnerReturn (clientDoc p).toList ↔ HelpReturn p.help ∨ InnerReturnIn p.dotted := by
  rw [clientDoc, HelpReturn]
  cases p.help with
  | none => simpa using innerReturn_ticked "Client for " "." (by decide) (by decide) p.dotted
  | some help => simpa using innerReturn_below "Client for " (by decide) help p.dotted

/-- The texts of a field that leave a carriage return in its documentation. -/
inductive FieldReturn (f : Field) : Prop
  | help (h : HelpReturn f.help)
  | name (h : f.help = none) (hreturn : InnerReturnIn f.wireName)
  | value (h : f.isEnum = true) {v : String} (hv : v ∈ f.values) (hreturn : InnerReturnIn v)
  | default {text : String} (h : f.default = some text) (hreturn : InnerReturnIn text)
  | reference {text : String} (h : f.reference = some text) (hreturn : InnerReturnIn text)

theorem innerReturn_joined (parts : List String) :
    InnerReturn (String.intercalate "\n" parts).toList ↔ ∃ part ∈ parts, InnerReturn part.toList := by
  have hlines := Text.innerReturn_intercalate (parts.map String.toList)
  simp only [List.mem_map, exists_exists_and_eq_and] at hlines
  rw [String.toList_intercalate, ← hlines]
  rfl

theorem innerReturn_fieldHead (f : Field) :
    InnerReturn (match f.help with
      | some help => help
      | none => ticked f.wireName ++ " (" ++ f.type.text ++ ").").toList
      ↔ HelpReturn f.help ∨ f.help = none ∧ InnerReturnIn f.wireName := by
  have htype : '\r' ∉ (" (" ++ f.type.text ++ ").").toList := by
    cases f.type <;> decide
  cases f.help with
  | none =>
    simpa [HelpReturn, String.append_assoc] using innerReturn_ticked "" _ (by simp) htype f.wireName
  | some help => simp [HelpReturn]

theorem innerReturn_fieldValues (f : Field) :
    (∃ part ∈ (if f.isEnum then
        ["", "Allowed values: " ++ String.intercalate ", " (f.distinctValues.map ticked) ++ "."]
      else []), InnerReturn part.toList)
      ↔ f.isEnum = true ∧ ∃ v ∈ f.values, InnerReturnIn v := by
  have hempty : ¬InnerReturn [] := not_innerReturn (by simp)
  have hlisted := innerReturn_listed "Allowed values: " (by decide) f.distinctValues
  simp only [mem_distinctValues] at hlisted
  split
  · rename_i henum
    rw [← hlisted, and_iff_right henum]
    simp only [List.exists_mem_cons_iff, String.toList_empty, hempty, false_or]
    simp
  · rename_i henum
    simp [henum]

/-- A text of a field in a sentence of its own, behind an empty line. -/
theorem innerReturn_fieldText (pre : String) (hpre : '\r' ∉ pre.toList) (text : Option String) :
    (∃ part ∈ (match text with
        | some t => ["", pre ++ ticked t ++ "."]
        | none => [] : List String), InnerReturn part.toList)
      ↔ ∃ t, text = some t ∧ InnerReturnIn t := by
  have hempty : ¬InnerReturn [] := not_innerReturn (by simp)
  cases text with
  | none => simp
  | some t => simpa [hempty] using innerReturn_ticked pre "." hpre (by decide) t

theorem innerReturn_fieldDoc (f : Field) : InnerReturn (fieldDoc f).toList ↔ FieldReturn f := by
  have hdefault := innerReturn_fieldText "Default: " (by decide) f.default
  have hreference := innerReturn_fieldText "References " (by decide) f.reference
  rw [fieldDoc, innerReturn_joined]
  simp only [List.cons_append, List.exists_mem_cons_iff, List.mem_append, or_and_right, exists_or]
  refine (or_congr (innerReturn_fieldHead f)
    (or_congr (or_congr (innerReturn_fieldValues f) hdefault) hreference)).trans ?_
  constructor
  · rintro ((h | ⟨h, hreturn⟩) | (⟨h, v, hv, hreturn⟩ | ⟨t, h, hreturn⟩) | ⟨t, h, hreturn⟩)
    · exact .help h
    · exact .name h hreturn
    · exact .value h hv hreturn
    · exact .default h hreturn
    · exact .reference h hreturn
  · rintro (h | ⟨h, hreturn⟩ | ⟨h, hv, hreturn⟩ | ⟨h, hreturn⟩ | ⟨h, hreturn⟩)
    · exact .inl (.inl h)
    · exact .inl (.inr ⟨h, hreturn⟩)
    · exact .inr (.inl (.inl ⟨h, _, hv, hreturn⟩))
    · exact .inr (.inl (.inr ⟨_, h, hreturn⟩))
    · exact .inr (.inr ⟨_, h, hreturn⟩)

/-! ## Names on the way to a table -/

theorem exists_mem_walk {Q : PlacedTable → Prop} (p : PlacedTable) :
    (∃ q ∈ p.walk, Q q) ↔ Q p ∨ ∃ c ∈ p.childTables, ∃ q ∈ c.walk, Q q := by
  rw [PlacedTable.walk_eq, List.exists_mem_cons_iff, exists_mem_flatMap]

/-- A path has a property from the path of the root, or from a name of a table on its way. -/
theorem exists_path_iff {P : String → Prop} {path : PlacedTable → String}
    (hpath : ∀ q t, P (path (q.child t)) ↔ P (path q) ∨ P t.wireName) (p : PlacedTable) :
    (∃ q ∈ p.walk, P (path q)) ↔ P (path p) ∨ ∃ q ∈ p.walk, ∃ t ∈ q.children, P t.wireName := by
  -- the tables below a child have the path of the root and the name of that child before them
  induction p using PlacedTable.induct with
  | step p ih =>
    have hbelow : ∀ t ∈ p.children, (∃ q ∈ (p.child t).walk, P (path q))
        ↔ (P (path p) ∨ P t.wireName) ∨ ∃ q ∈ (p.child t).walk, ∃ t ∈ q.children, P t.wireName := by
      intro t ht
      rw [ih _ (List.mem_map_of_mem ht), hpath]
    rw [exists_mem_walk, exists_mem_walk, PlacedTable.childTables]
    simp only [List.mem_map, exists_exists_and_eq_and]
    constructor
    · rintro (h | ⟨t, ht, h⟩)
      · exact .inl h
      · obtain (h | h) | h := (hbelow t ht).mp h
        · exact .inl h
        · exact .inr (.inl ⟨t, ht, h⟩)
        · exact .inr (.inr ⟨t, ht, h⟩)
    · rintro (h | ⟨t, ht, h⟩ | ⟨t, ht, h⟩)
      · exact .inl h
      · exact .inr ⟨t, ht, (hbelow t ht).mpr (.inl (.inr h))⟩
      · exact .inr ⟨t, ht, (hbelow t ht).mpr (.inr h)⟩

section Names

theorem return_mem_dotted (q : PlacedTable) (t : Table) :
    '\r' ∈ (q.child t).dotted.toList ↔ '\r' ∈ q.dotted.toList ∨ '\r' ∈ t.wireName.toList := by
  simp [PlacedTable.child, PlacedTable.below]

theorem return_mem_wirePath (q : PlacedTable) (t : Table) :
    '\r' ∈ (q.child t).wirePath.toList ↔ '\r' ∈ q.wirePath.toList ∨ '\r' ∈ t.wireName.toList := by
  simp [PlacedTable.child, PlacedTable.below]

theorem innerReturnIn_dotted (q : PlacedTable) (t : Table) :
    InnerReturnIn (q.child t).dotted ↔ InnerReturnIn q.dotted ∨ InnerReturnIn t.wireName :=
  Text.innerReturnIn_append (c := '.') (by decide) q.dotted t.wireName

variable (r : Resource)

theorem return_mem_dottedPath :
    '\r' ∈ r.dottedPath.toList ↔ ∃ segment ∈ r.segments, '\r' ∈ segment.toList := by
  have hcategory : '\r' ∉ (r.category.text ++ ".").toList := by
    cases r.category <;> decide
  rw [Resource.dottedPath, String.toList_append, List.mem_append, or_iff_right hcategory,
    Text.mem_intercalate_iff (by decide)]

theorem return_mem_rootPath : '\r' ∈ r.wirePath.toList ↔ '\r' ∈ r.dottedPath.toList := by
  rw [return_mem_dottedPath, Resource.wirePath, Text.mem_intercalate_iff (by decide)]

end Names

/-! ## Items -/

theorem returning_docsAll (items : List Item) :
    Returning (Item.docsAll items) ↔ ∃ i ∈ items, Returning i.docs := by
  rw [Item.docsAll_eq, returning_flatMap]

theorem returning_typeItems (S : PlacedTable → StructItem) (I : PlacedTable → ImplItem)
    (tables : List PlacedTable) : Returning (Item.docsAll (typeItems S I tables))
      ↔ ∃ p ∈ tables, Returning (S p).docs ∨ Returning (I p).docs := by
  rw [returning_docsAll, typeItems, exists_mem_flatMap]
  simp [Item.docs]

/-- The documentation of nested items is that of the items of each table and of the modules below. -/
theorem returning_nested {items own : PlacedTable → List Item} {attrs : PlacedTable → List Attribute}
    {isPublic : Bool} (h : NestsLike items own attrs isPublic) (p : PlacedTable) :
    Returning (Item.docsAll (items p)) ↔ ∃ q ∈ p.walk, Returning (Item.docsAll (own q))
      ∨ ∃ c ∈ q.childTables, Returning (docsOf (attrs c)) := by
  induction p using PlacedTable.induct with
  | step p ih =>
    have hmodules : Returning (Item.docsAll (p.childTables.map fun c =>
          Item.module (attrs c) isPublic c.codeName (items c)))
        ↔ (∃ c ∈ p.childTables, Returning (docsOf (attrs c)))
          ∨ ∃ c ∈ p.childTables, Returning (Item.docsAll (items c)) := by
      rw [returning_docsAll]
      simp only [List.mem_map, exists_exists_and_eq_and, Item.docs, returning_append, and_or_left,
        exists_or]
    have hbelow : (∃ c ∈ p.childTables, Returning (Item.docsAll (items c))) ↔ _ :=
      exists_congr fun c => and_congr_right (ih c)
    rw [h p, Item.docsAll_append, returning_append, hmodules, hbelow, exists_mem_walk, or_assoc]

/-- Every file begins with a sentence about its resource. -/
theorem returning_file (pre : String) (hpre : '\r' ∉ pre.toList) (r : Resource) (items : List Item) :
    Returning (docTexts (File.tokens ⟨[pre ++ ticked r.dottedPath ++ "."], items⟩))
      ↔ '\r' ∈ r.dottedPath.toList ∨ Returning (Item.docsAll items) := by
  rw [File.docTexts_tokens, returning_append, returning_cons, return_mem_sentence pre hpre,
    or_iff_left returning_nil]

/-! ## The file of models -/

theorem returning_modelStruct (names : TypeNames) (p : PlacedTable) :
    Returning (modelStruct names p).docs
      ↔ (HelpReturn p.help ∨ InnerReturnIn p.dotted) ∨ ∃ f ∈ p.fields, FieldReturn f := by
  have hstruct : docsOf (modelStruct names p).attrs = docsOf (docAttributes (modelDoc p)) :=
    docsOf_append_other rfl _
  have hfield : ∀ f, docsOf (modelField names p f).attrs = docsOf (docAttributes (fieldDoc f)) :=
    fun f => docsOf_append_other rfl _
  have hfields : ((modelStruct names p).fields.flatMap fun f => docsOf f.attrs)
      = p.fields.flatMap fun f => docsOf (docAttributes (fieldDoc f)) := by
    simp only [modelStruct, List.flatMap_map, hfield]
  rw [StructItem.docs, hstruct, hfields, returning_append, returning_docAttributes,
    innerReturn_modelDoc, returning_flatMap]
  simp only [returning_docAttributes, innerReturn_fieldDoc]

theorem returning_model (r : Resource) (names : TypeNames) :
    Returning (docTexts (modelFile r names).tokens) ↔ '\r' ∈ r.dottedPath.toList
      ∨ ∃ p ∈ r.tables,
        (HelpReturn p.help ∨ InnerReturnIn p.dotted) ∨ ∃ f ∈ p.fields, FieldReturn f := by
  have hitems := returning_typeItems (modelStruct names) (modelImpl names) r.tables
  have himpl : ∀ p, ¬Returning (modelImpl names p).docs := fun p => returning_nil
  simp only [returning_modelStruct, himpl, or_false] at hitems
  exact (returning_file " Models for " (notMem_ofList (by decide)) r _).trans (or_congr_right hitems)

/-! ## The file of clients -/

/-- The key that the documentation of an operation names. -/
def Operation.key? : Operation → Option Key
  | getByKey k => some k
  | put k => k
  | delete k => k
  | get => none
  | post => none

theorem returning_operation (names : TypeNames) (p : PlacedTable) (o : Operation) :
    Returning (docsOf (operationFunction names p o).attrs)
      ↔ ∃ k, o.key? = some k ∧ '\r' ∈ k.wire.toList := by
  have hsentence : ∀ (pre : String) (k : Key), '\r' ∉ pre.toList →
      (Returning [pre ++ ticked k.wire ++ "."] ↔ ∃ k', some k = some k' ∧ '\r' ∈ k'.wire.toList) := by
    intro pre k hpre
    rw [returning_cons, return_mem_sentence pre hpre]
    simp
  have hfixed : ∀ (d : String) (P : Key → Prop), '\r' ∉ d.toList →
      (Returning [d] ↔ ∃ k, (none : Option Key) = some k ∧ P k) := by
    intro d P hd
    simp [hd]
  cases o with
  | get =>
    refine hfixed (if readsSingle p then _ else _) _ ?_
    split
    · exact notMem_ofList (by decide)
    · exact notMem_ofList (by decide)
  | getByKey k => exact hsentence " Retrieves one object by its " k (notMem_ofList (by decide))
  | post => exact hfixed _ _ (notMem_ofList (by decide))
  | put k =>
    cases k with
    | none => exact hfixed _ _ (notMem_ofList (by decide))
    | some k => exact hsentence " Updates the object identified by " k (notMem_ofList (by decide))
  | delete k =>
    cases k with
    | none => exact hfixed _ _ (notMem_ofList (by decide))
    | some k => exact hsentence " Deletes the object identified by " k (notMem_ofList (by decide))

/-- Every method but POST brings an operation that names the key. -/
theorem exists_operation_key (p : PlacedTable) (m : Method) (P : Key → Prop) :
    (∃ o ∈ operationsOf p m, ∃ k, o.key? = some k ∧ P k)
      ↔ m ≠ .post ∧ ∃ k, Key.of? p = some k ∧ P k := by
  cases m with
  | get => simp [operationsOf, Operation.key?, or_and_right, exists_or]
  | post => simp [operationsOf, Operation.key?]
  | put => simp [operationsOf, Operation.key?]
  | delete => simp [operationsOf, Operation.key?]

/-- A method whose operation has the key of the table in its documentation, with a carriage return. -/
def KeyReturn (r : Resource) (p : PlacedTable) : Prop :=
  ∃ m ∈ r.methods, m ≠ .post ∧ ∃ f, p.mkeyField? = some f ∧ '\r' ∈ f.wireName.toList

theorem returning_operations (r : Resource) (names : TypeNames) (p : PlacedTable) :
    (∃ o ∈ operations r p, Returning (docsOf (operationFunction names p o).attrs))
      ↔ KeyReturn r p := by
  have hmethod : ∀ m, (∃ o ∈ operationsOf p m, Returning (docsOf (operationFunction names p o).attrs))
      ↔ m ≠ .post ∧ ∃ f, p.mkeyField? = some f ∧ '\r' ∈ f.wireName.toList := by
    intro m
    simp only [returning_operation]
    rw [exists_operation_key]
    simp [Key.of?]
  rw [operations, exists_mem_flatMap]
  exact exists_congr fun m => and_congr_right fun _ => hmethod m

theorem returning_clientStruct (names : TypeNames) (p : PlacedTable) :
    Returning (clientStruct names p).docs ↔ (HelpReturn p.help ∨ InnerReturnIn p.dotted)
      ∨ ∃ c ∈ p.childTables, '\r' ∈ c.wirePath.toList := by
  have hstruct : docsOf (clientStruct names p).attrs = docsOf (docAttributes (clientDoc p)) :=
    docsOf_append_other rfl _
  have hfields : ((clientStruct names p).fields.flatMap fun f => docsOf f.attrs)
      = p.childTables.flatMap fun c => [" Nested client for " ++ ticked c.wirePath ++ "."] := by
    rw [clientStruct, List.flatMap_cons, List.flatMap_map]
    rfl
  rw [StructItem.docs, hstruct, hfields, returning_append, returning_docAttributes,
    innerReturn_clientDoc, returning_flatMap]
  have hnested := return_mem_sentence " Nested client for " (notMem_ofList (by decide))
  simp only [returning_cons, returning_nil, or_false, hnested]

theorem not_returning_constants (r : Resource) (p : PlacedTable) :
    ¬Returning ((clientConstants r p).flatMap fun c => docsOf c.attrs) := by
  have hconstants : ((clientConstants r p).flatMap fun c => docsOf c.attrs)
      = [" Category this resource lives under.", " Path relative to the category root."]
        ++ (p.mkey.toList.flatMap fun _ => [" Wire name of the identifying field."])
        ++ [" Methods the API accepts for this resource."] := by
    rw [clientConstants, List.flatMap_append, List.flatMap_append, List.flatMap_map]
    rfl
  rw [hconstants, returning_append, returning_append, not_or, not_or, returning_flatMap]
  refine ⟨⟨?_, ?_⟩, not_returning_fixed (by decide) returning_nil⟩
  · exact not_returning_fixed (by decide) (not_returning_fixed (by decide) returning_nil)
  · rintro ⟨key, -, h⟩
    exact not_returning_fixed (by decide) returning_nil h

theorem returning_clientImpl (r : Resource) (names : TypeNames) (p : PlacedTable) :
    Returning (clientImpl r names p).docs ↔ KeyReturn r p := by
  have hfunctions : ((clientImpl r names p).functions.flatMap fun f => docsOf f.attrs)
      = [" Creates a client that sends requests through `transport`.",
          " The endpoint requests are sent to."]
        ++ (operations r p).flatMap fun o => docsOf (operationFunction names p o).attrs := by
    rw [clientImpl, List.flatMap_append, List.flatMap_map]
    rfl
  have hconstants : (clientImpl r names p).constants = clientConstants r p := rfl
  have hfixed := not_returning_constants r p
  rw [ImplItem.docs, hconstants, hfunctions, returning_append, or_iff_right hfixed, returning_append,
    returning_flatMap, returning_operations, or_iff_right]
  exact not_returning_fixed (by decide) (not_returning_fixed (by decide) returning_nil)

theorem returning_client (r : Resource) (names : TypeNames) :
    Returning (docTexts (clientFile r names).tokens) ↔ '\r' ∈ r.dottedPath.toList
      ∨ ∃ p ∈ r.tables, ((HelpReturn p.help ∨ InnerReturnIn p.dotted)
        ∨ ∃ c ∈ p.childTables, '\r' ∈ c.wirePath.toList) ∨ KeyReturn r p := by
  have hitems := returning_typeItems (clientStruct names) (clientImpl r names) r.tables
  simp only [returning_clientStruct, returning_clientImpl] at hitems
  exact (returning_file " Client for " (notMem_ofList (by decide)) r _).trans (or_congr_right hitems)

/-! ## The files of checks and tests -/

theorem docsAll_constants (cs : List Constant) :
    Item.docsAll (cs.map .constant) = cs.flatMap fun c => docsOf c.attrs := by
  rw [Item.docsAll_eq, List.flatMap_map]
  rfl

theorem docsAll_functions (fs : List Function) :
    Item.docsAll (fs.map .function) = fs.flatMap fun f => docsOf f.attrs := by
  rw [Item.docsAll_eq, List.flatMap_map]
  rfl

theorem returning_checkItems (p : PlacedTable) :
    Returning (Item.docsAll (checkItems p)) ↔ ∃ f ∈ p.enumFields, '\r' ∈ f.wireName.toList := by
  have hconstants : ((validatorConstants p).flatMap fun c => docsOf c.attrs)
      = [" Dotted path reported in validation errors.", " Fields that must be present on create."]
        ++ (p.enumFields.flatMap fun f => [" Declared values of " ++ ticked f.wireName ++ "."])
        ++ [" Enum fields and their declared values."] := by
    rw [validatorConstants, List.flatMap_append, List.flatMap_append, List.flatMap_map]
    rfl
  have hchecks : ((checkFunctions p).flatMap fun f => docsOf f.attrs)
      = [" Checks a create payload: required fields first, then enum values.",
        " Checks an update payload. Absent fields are never an error."] := rfl
  rw [checkItems, Item.docsAll_append, docsAll_constants, docsAll_functions, hconstants, hchecks,
    returning_append, returning_append, returning_append, returning_flatMap, or_iff_left, or_iff_left,
    or_iff_right]
  · have hvalues := return_mem_sentence " Declared values of " (notMem_ofList (by decide))
    simp only [returning_cons, returning_nil, or_false, hvalues]
  · exact not_returning_fixed (by decide) (not_returning_fixed (by decide) returning_nil)
  · exact not_returning_fixed (by decide) returning_nil
  · exact not_returning_fixed (by decide) (not_returning_fixed (by decide) returning_nil)

theorem returning_validators (r : Resource) :
    Returning (docTexts (validatorsFile r).tokens) ↔ '\r' ∈ r.dottedPath.toList
      ∨ ∃ p ∈ r.tables, (∃ f ∈ p.enumFields, '\r' ∈ f.wireName.toList)
        ∨ ∃ c ∈ p.childTables, '\r' ∈ c.dotted.toList := by
  have hitems := returning_nested validatorItems_nests (.ofResource r)
  have hmodule : ∀ c : PlacedTable, Returning (docsOf [.doc
      (" Validators for rows of " ++ ticked c.dotted ++ ".")]) ↔ '\r' ∈ c.dotted.toList := by
    intro c
    exact (returning_cons _ _).trans ((or_iff_left returning_nil).trans
      (return_mem_sentence " Validators for rows of " (notMem_ofList (by decide)) c.dotted))
  simp only [returning_checkItems, hmodule] at hitems
  exact (returning_file " Validators for " (notMem_ofList (by decide)) r _).trans
    (or_congr_right hitems)

/-- Tests are named for what they do, and have no other documentation. -/
theorem docsOf_tableTests (validators : Path) (p : PlacedTable) :
    ∀ f ∈ tableTests validators p, docsOf f.attrs = [] := by
  intro f hf
  obtain rfl | rfl | ⟨e, -, rfl | rfl⟩ := mem_tableTests hf <;> rfl

theorem docsOf_clientTests (r : Resource) (p : PlacedTable) (paths : TestPaths) :
    ∀ f ∈ clientTests r p paths, docsOf f.attrs = [] := by
  have hall : ∀ f ∈ allClientTests r p paths, docsOf f.attrs = [] := by
    simp only [allClientTests, List.forall_mem_cons, List.not_mem_nil, false_imp_iff, implies_true,
      and_true]
    exact ⟨rfl, rfl, rfl, rfl, rfl, rfl⟩
  exact fun f hf => hall f ((clientTests_sublist r p paths).subset hf)

theorem returning_tests (r : Resource) (names : TypeNames) :
    Returning (docTexts (testsFile r names).tokens) ↔ '\r' ∈ r.dottedPath.toList := by
  have hnone : ∀ fs : List Function, (∀ f ∈ fs, docsOf f.attrs = []) →
      ¬Returning (Item.docsAll (fs.map .function)) := by
    intro fs hfs
    rw [docsAll_functions, List.flatMap_eq_nil_iff.mpr hfs]
    exact returning_nil
  have hitems : ¬Returning (Item.docsAll (testsFile r names).items) := by
    rw [testsFile, Item.docsAll_append, returning_append, not_or,
      returning_nested (validatorTests_nests (testPaths r names).validators)]
    refine ⟨hnone _ (docsOf_clientTests r _ _), ?_⟩
    rintro ⟨q, -, h | ⟨c, -, h⟩⟩
    · exact hnone _ (docsOf_tableTests _ q) h
    · exact returning_nil h
  exact (returning_file " Smoke tests for " (notMem_ofList (by decide)) r _).trans (or_iff_left hitems)

/-! ## Which texts carry a return into a file -/

/-- A text of the schema that leaves a carriage return in the documentation of a file. A sentence takes
any that its name holds; where the text is cut into lines, it has to be inside a line. -/
inductive Returns (r : Resource) : ArtifactKind → Prop
  | path (k : ArtifactKind) {segment : String} (hsegment : segment ∈ r.segments)
      (hreturn : '\r' ∈ segment.toList) : Returns r k
  | table {k : ArtifactKind} (hk : k = .client ∨ k = .validators) {p : PlacedTable}
      (hp : p ∈ r.tables) {t : Table} (ht : t ∈ p.children) (hreturn : '\r' ∈ t.wireName.toList) :
      Returns r k
  | tableLine {p : PlacedTable} (hp : p ∈ r.tables) {t : Table} (ht : t ∈ p.children)
      (hreturn : InnerReturnIn t.wireName) : Returns r .model
  | help {k : ArtifactKind} (hk : k = .model ∨ k = .client) {p : PlacedTable} (hp : p ∈ r.tables)
      (hreturn : HelpReturn p.help) : Returns r k
  | field {p : PlacedTable} (hp : p ∈ r.tables) {f : Field} (hf : f ∈ p.fields)
      (hreturn : FieldReturn f) : Returns r .model
  | key {p : PlacedTable} (hp : p ∈ r.tables) (hreturn : KeyReturn r p) : Returns r .client
  | enum {p : PlacedTable} (hp : p ∈ r.tables) {f : Field} (hf : f ∈ p.fields)
      (henum : f.isEnum = true) (hreturn : '\r' ∈ f.wireName.toList) : Returns r .validators

section Returns

variable {r : Resource} {names : TypeNames} {k : ArtifactKind}

theorem Returns.of_dottedPath (h : '\r' ∈ r.dottedPath.toList) : Returns r k := by
  obtain ⟨segment, hsegment, hreturn⟩ := (return_mem_dottedPath r).mp h
  exact .path k hsegment hreturn

/-- A path that is put together from names carries no return but theirs. -/
theorem Returns.of_path (path : PlacedTable → String) (hk : k = .client ∨ k = .validators)
    (hroot : '\r' ∈ (path (.ofResource r)).toList → '\r' ∈ r.dottedPath.toList)
    (hpath : ∀ q t, '\r' ∈ (path (q.child t)).toList
      ↔ '\r' ∈ (path q).toList ∨ '\r' ∈ t.wireName.toList)
    {p : PlacedTable} (hp : p ∈ r.tables) (h : '\r' ∈ (path p).toList) : Returns r k := by
  have hwalk := exists_path_iff (P := fun s => '\r' ∈ s.toList) hpath (.ofResource r)
  obtain h | ⟨q, hq, t, ht, h⟩ := hwalk.mp ⟨p, hp, h⟩
  · exact .of_dottedPath (hroot h)
  · exact .table hk hq ht h

theorem returns_of_returning (h : Returning (docTexts (tree r names k).tokens)) : Returns r k := by
  cases k with
  | model =>
    obtain h | ⟨p, hp, (h | h) | ⟨f, hf, h⟩⟩ := (returning_model r names).mp h
    · exact .of_dottedPath h
    · exact .help (.inl rfl) hp h
    · obtain h | ⟨q, hq, t, ht, h⟩ := (exists_path_iff innerReturnIn_dotted _).mp ⟨p, hp, h⟩
      · exact .of_dottedPath (Text.mem_of_innerReturnIn h)
      · exact .tableLine hq ht h
    · exact .field hp hf h
  | client =>
    obtain h | ⟨p, hp, ((h | h) | ⟨c, hc, h⟩) | h⟩ := (returning_client r names).mp h
    · exact .of_dottedPath h
    · exact .help (.inr rfl) hp h
    · exact .of_path PlacedTable.dotted (.inl rfl) id return_mem_dotted hp (Text.mem_of_innerReturnIn h)
    · exact .of_path PlacedTable.wirePath (.inl rfl) (return_mem_rootPath r).mp return_mem_wirePath
        (PlacedTable.mem_walk_of_mem_childTables hp hc) h
    · exact .key hp h
  | validators =>
    obtain h | ⟨p, hp, ⟨f, hf, h⟩ | ⟨c, hc, h⟩⟩ := (returning_validators r).mp h
    · exact .of_dottedPath h
    · exact .enum hp (List.mem_of_mem_filter hf) (List.of_mem_filter hf) h
    · exact .of_path PlacedTable.dotted (.inr rfl) id return_mem_dotted
        (PlacedTable.mem_walk_of_mem_childTables hp hc) h
  | tests => exact .of_dottedPath ((returning_tests r names).mp h)

theorem returning_of_returns (names : TypeNames) (h : Returns r k) :
    Returning (docTexts (tree r names k).tokens) := by
  cases h with
  | path k hsegment hreturn =>
    have hpath := (return_mem_dottedPath r).mpr ⟨_, hsegment, hreturn⟩
    cases k with
    | model => exact (returning_model r names).mpr (.inl hpath)
    | client => exact (returning_client r names).mpr (.inl hpath)
    | validators => exact (returning_validators r).mpr (.inl hpath)
    | tests => exact (returning_tests r names).mpr hpath
  | @table _ hk p hp t ht hreturn =>
    have hchild : p.child t ∈ p.childTables := List.mem_map_of_mem ht
    obtain rfl | rfl := hk
    · have hwire := (return_mem_wirePath p t).mpr (.inr hreturn)
      exact (returning_client r names).mpr (.inr ⟨p, hp, .inl (.inr ⟨p.child t, hchild, hwire⟩)⟩)
    · have hdotted := (return_mem_dotted p t).mpr (.inr hreturn)
      exact (returning_validators r).mpr (.inr ⟨p, hp, .inr ⟨p.child t, hchild, hdotted⟩⟩)
  | @tableLine p hp t ht hreturn =>
    have hchild : p.child t ∈ r.tables :=
      PlacedTable.mem_walk_of_mem_childTables hp (List.mem_map_of_mem ht)
    have hdotted := (innerReturnIn_dotted p t).mpr (.inr hreturn)
    exact (returning_model r names).mpr (.inr ⟨p.child t, hchild, .inl (.inr hdotted)⟩)
  | help hk hp hreturn =>
    obtain rfl | rfl := hk
    · exact (returning_model r names).mpr (.inr ⟨_, hp, .inl (.inl hreturn)⟩)
    · exact (returning_client r names).mpr (.inr ⟨_, hp, .inl (.inl (.inl hreturn))⟩)
  | field hp hf hreturn =>
    exact (returning_model r names).mpr (.inr ⟨_, hp, .inr ⟨_, hf, hreturn⟩⟩)
  | key hp hreturn => exact (returning_client r names).mpr (.inr ⟨_, hp, .inr hreturn⟩)
  | enum hp hf henum hreturn =>
    exact (returning_validators r).mpr (.inr
      ⟨_, hp, .inl ⟨_, List.mem_filter.mpr ⟨hf, henum⟩, hreturn⟩⟩)

end Returns

/-- **Carriage returns get into the documentation of generated files.** Documentation that is cut into
lines has one line in each string, trimmed and one space behind the comment mark. A carriage return at
an end of a line goes with the blanks there, but one inside a line stays, and so does any in a name that
a sentence is about. Whatever the resource and the names of its types, the documentation of a file is
free of carriage returns just when none of the texts in `Returns` holds one. -/
theorem documentation_returns_iff (text : String) (r : Resource) (names : TypeNames)
    (k : ArtifactKind) :
    (∀ line ∈ docTexts (attributeTokens (docAttributes text)), IsDocLine line)
      ∧ ((∃ d ∈ docTexts (tree r names k).tokens, '\r' ∈ d.toList) ↔ Returns r k) := by
  refine ⟨fun line hline => ?_, returns_of_returning, returning_of_returns names⟩
  rw [(attributes_document _).eq, docsOf_docAttributes] at hline
  obtain ⟨part, hpart, rfl⟩ := List.mem_map.mp hline
  exact isDocLine_docLine (Text.notMem_of_mem_lines hpart)

/-! ## A help text with a return in its line -/

def returnDocument : Json :=
  .object
    [("category", .string "config"), ("help", .string "a\rb"), ("methods", .array []),
      ("path", .string "x")]

def returnResource : Resource := ⟨.config, ["x"], ["x"], some "a\rb", none, [], [], []⟩

def returnNames : TypeNames := ⟨[("", ⟨"X", "XClient"⟩)]⟩

def returnSteps : List NamingStep := [.read 4 returnDocument, .resolve returnResource]

theorem returnResource_read : returnResource ∈ resourcesRead returnSteps := by
  have hmodules : readModules "config" ["x"] .empty
      = (.ok ["x"], NameTable.empty.add (Scope.modules "config") "x" "x") :=
    readModules_single (by decide) (by simp) (by simp)
  have hread : readResource 4 returnDocument .empty
      = (.ok returnResource, NameTable.empty.add (Scope.modules "config") "x" "x") := by
    refine (lift_ok_bind rfl).trans ?_
    refine (lift_ok_bind (x := (⟨.config, ["x"], []⟩ : Header)) rfl).trans ?_
    refine (ok_bind hmodules).trans ?_
    rfl
  exact mem_resourcesFrom_append (mem_resourcesRead_of_read hread) [.resolve returnResource]

theorem returnResource_resolved : Run.ResolvedIn returnSteps (returnResource, returnNames) := by
  have hfresh : SameIn (Scope.types returnResource.dottedPath) .empty
      (tableFrom .empty [.read 4 returnDocument]) :=
    (program_readResource 4 returnDocument).sameTypes .empty _ rfl
  have hnamed : (resolve returnResource .empty).1 = .ok returnNames := by
    have hdotted : returnResource.dottedPath = "config.x" := by decide
    have hwalk : Walk.ofResource returnResource
        = .ask ⟨"model:", "X"⟩ fun model => .ask ⟨"client:", "XClient"⟩ fun client =>
          .done ⟨[("", ⟨model, client⟩)]⟩ := rfl
    rw [← Walk.run_ofResource, hwalk, hdotted]
    simp only [Walk.run, bind_apply, register, NameTable.record, ← NameTable.add.eq_1,
      NameTable.codeName?_empty, NameTable.wireName?_empty, NameTable.codeName?_add,
      NameTable.wireName?_add, Scope.types, String.reduceEq, and_false, ↓reduceIte]
    rfl
  exact ⟨[.read 4 returnDocument], [], rfl, (resolve_sameIn hfresh).symm.trans hnamed⟩

/-- The document is accepted, its model is generated, and the return is in the comment. -/
theorem return_documented : returnResource ∈ resourcesRead returnSteps
    ∧ Run.ResolvedIn returnSteps (returnResource, returnNames)
    ∧ source returnResource returnNames .model = .ok (modelFile returnResource returnNames)
    ∧ " a\rb" ∈ docTexts (modelFile returnResource returnNames).tokens := by
  refine ⟨returnResource_read, returnResource_resolved, rfl, ?_⟩
  rw [File.docTexts_tokens]
  decide +kernel

end RestForge.Emit
