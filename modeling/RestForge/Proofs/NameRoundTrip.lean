import RestForge.Proofs.NestedPaths
import RestForge.Proofs.Acceptance

/-!
# Code names turned back

At the end of a run the table of names still turns every code name of a resource that was read back
into its wire name, in the scope that belongs to its place.

* `FieldsUnder`: the tables of a resource with the keys of their scopes.
* `modulesAbove`: the scope of a module, by the segments above it.
* `Reads.held`: what was read of a table is held under its keys, at every depth.
* `holds_of_mem_resourcesFrom`: what a reading leaves in the table is there at the end.
* `names_turned_back`: the way back for every field and every module.
-/

set_option autoImplicit false

namespace RestForge.Schema

open Naming

/-! ## Scopes of a resource -/

/-- `FieldsUnder key fields tables k under`: seen from a table with the given key, fields and tables
below, `under` are the fields of the table with the key `k`. A nested table goes on with its wire
name, behind a `>`. -/
inductive FieldsUnder : String → List Field → List Table → String → List Field → Prop where
  | here (key : String) (fields : List Field) (tables : List Table) :
    FieldsUnder key fields tables key fields
  | inside {key k : String} {fields under : List Field} {tables : List Table} {t : Table}
    (ht : t ∈ tables) (h : FieldsUnder (key ++ ">" ++ t.wireName) t.fields t.children k under) :
    FieldsUnder key fields tables k under

/-- Where the module of a segment has its name: below the category and the segments above it. -/
def modulesAbove (category : String) (above : List String) : Scope :=
  Scope.modules (String.intercalate "." (category :: above))

theorem modulesAbove_cons (parent segment : String) (above : List String) :
    modulesAbove (parent ++ "." ++ segment) above = modulesAbove parent (segment :: above) := by
  rw [modulesAbove, modulesAbove, String.intercalate_cons_append, String.intercalate_cons_cons]

/-! ## Names that are held -/

section Reading

variable {room : Nat} {key : String} {items : List Json} {t t' : NameTable} {fields : List Field}
  {tables : List Table}

/-- On the derivation of the reading: a field is held from its own gift on, since later readings keep
what is there. -/
theorem Reads.held (ht : t.Sound) (h : Reads room key items t fields tables t') {k : String}
    {under : List Field} (hunder : FieldsUnder key fields tables k under) {f : Field}
    (hf : f ∈ under) : t'.codeName? (Scope.fields k) f.wireName = some f.codeName := by
  induction h generalizing under f with
  | nil =>
    cases hunder with
    | here => cases hf
    | inside hmem _ => cases hmem
  | plain _ _ _ _ _ hname _ rest ih =>
    obtain ⟨-, ht₁⟩ := (keeps_giveName _ _).of_eq ht hname
    cases hunder with
    | here =>
      obtain rfl | hf := List.mem_cons.mp hf
      · exact (rest.keeps ht₁).1 _ _ _ (giveName_ok hname)
      · exact ih ht₁ (.here ..) hf
    | inside hmem hbelow => exact ih ht₁ (.inside hmem hbelow) hf
  | nested _ _ _ _ _ _ _ hname _ inner rest ihbelow ih =>
    obtain ⟨-, ht₁⟩ := (keeps_giveName _ _).of_eq ht hname
    obtain ⟨hext₂, ht₂⟩ := inner.keeps ht₁
    have hlater := (rest.keeps ht₂).1
    cases hunder with
    | here =>
      obtain rfl | hf := List.mem_cons.mp hf
      · exact hlater _ _ _ (hext₂ _ _ _ (giveName_ok hname))
      · exact ih ht₂ (.here ..) hf
    | inside hmem hbelow =>
      obtain rfl | hmem := List.mem_cons.mp hmem
      · exact hlater _ _ _ (ihbelow ht₁ hbelow hf)
      · exact ih ht₂ (.inside hmem hbelow) hf

end Reading

/-- The fields of a resource have their code names in a table of names, at every depth. -/
def FieldsHeld (t : NameTable) (r : Resource) : Prop :=
  ∀ k under, FieldsUnder r.dottedPath r.fields r.children k under →
    ∀ f ∈ under, t.codeName? (Scope.fields k) f.wireName = some f.codeName

theorem FieldsHeld.extend {t t' : NameTable} {r : Resource} (h : FieldsHeld t r)
    (he : t.Extends t') : FieldsHeld t' r :=
  fun k under hunder f hf => he _ _ _ (h k under hunder f hf)

theorem fieldsHeld_of_read {limit : Nat} {doc : Json} {r : Resource} {t t' : NameTable}
    (ht : t.Sound) (h : readResource limit doc t = (.ok r, t')) : FieldsHeld t' r := by
  obtain ⟨members, header, items, modules, t₁, -, -, hcategory, hsegments, -, hmodules, -, -, -,
    hreads, -, -⟩ := readResource_ok_iff.mp h
  obtain ⟨-, ht₁⟩ := (keeps_readModules _ _).of_eq ht hmodules
  have hdotted : header.dottedPath = r.dottedPath := by
    rw [Header.dottedPath, Resource.dottedPath, hcategory, hsegments]
  rw [hdotted] at hreads
  exact fun k under hunder f hf => hreads.held ht₁ hunder hf

/-- A module that is placed is held in the scope of the segments above it. -/
theorem Placed.module_above {t : NameTable} {parent : String} {segments modules : List String}
    (h : Placed t parent segments modules) {above below : List String} {segment : String}
    (he : segments = above ++ segment :: below) :
    ∃ module, modules[above.length]? = some module
      ∧ t.codeName? (modulesAbove parent above) segment = some module := by
  induction above generalizing parent segments modules with
  | nil =>
    subst he
    cases modules with
    | nil => exact h.elim
    | cons module modules =>
      exact ⟨module, rfl, by simpa [modulesAbove] using h.1⟩
  | cons first above ih =>
    subst he
    cases modules with
    | nil => exact h.elim
    | cons module modules =>
      rw [← modulesAbove_cons]
      exact ih h.2 rfl

/-! ## Whole runs -/

/-- What every reading leaves in the table, and what no later step takes away, is there at the end. -/
theorem holds_of_mem_resourcesFrom {P : NameTable → Resource → Prop}
    (hextend : ∀ {t t' r}, P t r → t.Extends t' → P t' r)
    (hread : ∀ {limit doc r t t'}, t.Sound → readResource limit doc t = (.ok r, t') → P t' r)
    {steps : List NamingStep} {t : NameTable} (ht : t.Sound) {r : Resource}
    (h : r ∈ resourcesFrom t steps) : P (tableFrom t steps) r := by
  induction steps generalizing t with
  | nil => cases h
  | cons step steps ih =>
    obtain ⟨-, ht'⟩ := step.perform_keeps ht
    obtain hnow | hlater := List.mem_append.mp h
    · obtain ⟨hext, -⟩ := tableFrom_keeps steps ht'
      refine hextend ?_ hext
      cases step with
      | read limit doc =>
        rw [Option.mem_toList, NamingStep.resource?] at hnow
        rcases hresult : readResource limit doc t with ⟨e | r', t'⟩ <;> rw [hresult] at hnow <;>
          cases hnow
        rw [NamingStep.perform, hresult]
        exact hread ht hresult
      | resolve r' => cases hnow
    · exact ih ht' hlater

/-- **At the end of a run every code name is turned back.** Whatever else was read, with or without
success, and resolved with the same table: for every resource that was read, the code name of each
field of each of its tables is turned back into the wire name of the field, in the scope with the key
of that table, and the module of each segment of its path into the segment, in the scope of the
category and the segments above it. -/
theorem names_turned_back {steps : List NamingStep} {r : Resource} (h : r ∈ resourcesRead steps) :
    (∀ k under, FieldsUnder r.dottedPath r.fields r.children k under → ∀ f ∈ under,
      (tableFrom .empty steps).wireName? (Scope.fields k) f.codeName = some f.wireName)
    ∧ r.modules.length = r.segments.length
    ∧ ∀ above segment below, r.segments = above ++ segment :: below →
      ∃ module, r.modules[above.length]? = some module
        ∧ (tableFrom .empty steps).wireName? (modulesAbove r.category.text above) module
          = some segment := by
  have hsound := sound_tableFrom_empty steps
  have hheld : FieldsHeld (tableFrom .empty steps) r :=
    holds_of_mem_resourcesFrom (P := FieldsHeld) FieldsHeld.extend fieldsHeld_of_read
      NameTable.sound_empty h
  have hplaced := placed_of_mem_resourcesRead h
  refine ⟨fun k under hunder f hf => ?_, ?_, fun above segment below he => ?_⟩
  · exact (hsound.twoWay _ _ _).mp (hheld k under hunder f hf)
  · rw [hplaced.spelled hsound, List.length_map]
  · obtain ⟨module, hmodule, hcode⟩ := hplaced.module_above he
    exact ⟨module, hmodule, (hsound.twoWay _ _ _).mp hcode⟩

/-- A field whose code name is not its wire name, after a document that failed and a resolution. -/
theorem names_turned_back_slash :
    Emit.slashResource ∈ resourcesRead
        [.read 4 Emit.slashDocument, .read 4 .null, .resolve Emit.slashResource]
      ∧ FieldsUnder "config.x" Emit.slashResource.fields Emit.slashResource.children "config.x"
        [.plain "a/b" "a_b" .nestedTable]
      ∧ (tableFrom .empty [.read 4 Emit.slashDocument, .read 4 .null,
          .resolve Emit.slashResource]).wireName? (Scope.fields "config.x") "a_b" = some "a/b" := by
  have hread : Emit.slashResource ∈ resourcesRead
      ([.read 4 Emit.slashDocument] ++ [.read 4 .null, .resolve Emit.slashResource]) :=
    mem_resourcesFrom_append Emit.slashResource_read _
  have hunder : FieldsUnder "config.x" Emit.slashResource.fields Emit.slashResource.children
      "config.x" [.plain "a/b" "a_b" .nestedTable] := .here ..
  have hdotted : Emit.slashResource.dottedPath = "config.x" := by decide
  rw [← hdotted] at hunder ⊢
  exact ⟨hread, hunder, (names_turned_back hread).1 _ _ hunder _ (List.mem_singleton_self _)⟩

end RestForge.Schema
