import Mathlib.Data.List.Nodup
import RestForge.Proofs.Reading
import RestForge.Proofs.TreePaths

/-!
# Items in nested modules

* `File.located`: the items of a file at any depth, each with the names of the modules around it.
* `Apart`: in no module, struct or implementation do two things of one kind share a name.
* `NestsLike`: items of tables, with those of the tables below in modules of their code names.
* `NestsLike.located_eq`, `NestsLike.sealed`, `NestsLike.apart`: what holds of such items if it holds
  of the items of each table.
-/

set_option autoImplicit false

namespace RestForge.Source

/-! ## Items and their modules -/

namespace Item

mutual

def located (mods : List String) : Item → List (List String × Item)
  | module _ _ name items => locatedAll (mods ++ [name]) items
  | i => [(mods, i)]

def locatedAll (mods : List String) : List Item → List (List String × Item)
  | [] => []
  | i :: is => i.located mods ++ locatedAll mods is

end

theorem locatedAll_append (mods : List String) (items items' : List Item) :
    locatedAll mods (items ++ items') = locatedAll mods items ++ locatedAll mods items' := by
  induction items with
  | nil => rfl
  | cons i items ih => rw [List.cons_append, locatedAll, locatedAll, ih, List.append_assoc]

def isModule : Item → Bool
  | module .. => true
  | _ => false

theorem locatedAll_of_no_module {items : List Item} (h : ∀ i ∈ items, i.isModule = false)
    (mods : List String) : locatedAll mods items = items.map fun i => (mods, i) := by
  induction items with
  | nil => rfl
  | cons i items ih =>
    rw [List.forall_mem_cons] at h
    rw [locatedAll, List.map_cons, ih h.2]
    cases i with
    | module => cases h.1
    | _ => rfl

end Item

theorem Item.tokensAll_eq (items : List Item) : tokensAll items = items.flatMap tokens := by
  induction items with
  | nil => rfl
  | cons i items ih => rw [tokensAll, ih, List.flatMap_cons]

def File.located (f : File) : List (List String × Item) := Item.locatedAll [] f.items

/-! ## Names -/

/-- Items of different kinds do not get into each other's way. -/
inductive ItemKind where
  | constant
  | function
  | struct
  | module
  deriving Repr, DecidableEq

def Item.name? : Item → Option (ItemKind × String)
  | .constant c => some (.constant, c.name)
  | .function f => some (.function, f.name)
  | .struct s => some (.struct, s.name)
  | .impl _ => none
  | .module _ _ name _ => some (.module, name)
  | .moduleFile _ _ name => some (.module, name)
  | .reexport _ => none

/-- So it is in the modules inside, too. -/
inductive Apart : List Item → Prop where
  | intro {items : List Item}
    (names : (items.filterMap Item.name?).Nodup)
    (fields : ∀ s, .struct s ∈ items → (s.fields.map StructField.name).Nodup)
    (constants : ∀ i, .impl i ∈ items → (i.constants.map Constant.name).Nodup)
    (functions : ∀ i, .impl i ∈ items → (i.functions.map Function.name).Nodup)
    (inside : ∀ attrs isPublic name below, .module attrs isPublic name below ∈ items → Apart below) :
    Apart items

theorem Apart.append {items items' : List Item} (h : Apart items) (h' : Apart items')
    (hne : ∀ name ∈ items.filterMap Item.name?, name ∉ items'.filterMap Item.name?) :
    Apart (items ++ items') := by
  obtain ⟨hnames, hfields, hconstants, hfunctions, hinside⟩ := h
  obtain ⟨hnames', hfields', hconstants', hfunctions', hinside'⟩ := h'
  constructor
  · rw [List.filterMap_append, List.nodup_append]
    refine ⟨hnames, hnames', ?_⟩
    rintro a ha b hb rfl
    exact hne a ha hb
  · exact fun s hs => (List.mem_append.mp hs).elim (hfields s) (hfields' s)
  · exact fun i hi => (List.mem_append.mp hi).elim (hconstants i) (hconstants' i)
  · exact fun i hi => (List.mem_append.mp hi).elim (hfunctions i) (hfunctions' i)
  · exact fun as b name below hi =>
      (List.mem_append.mp hi).elim (hinside as b name below) (hinside' as b name below)

/-! ## Items of nested tables -/

/-- The items of a table are its own and one module for each table directly below. -/
def NestsLike (items own : PlacedTable → List Item) (attrs : PlacedTable → List Attribute)
    (isPublic : Bool) : Prop :=
  ∀ p, items p = own p ++ p.childTables.map fun c =>
    .module (attrs c) isPublic c.codeName (items c)

section Nests

variable {items own : PlacedTable → List Item} {attrs : PlacedTable → List Attribute}
  {isPublic : Bool} (h : NestsLike items own attrs isPublic)

include h

theorem NestsLike.located_eq (hown : ∀ q, ∀ i ∈ own q, i.isModule = false) (p : PlacedTable) :
    Item.locatedAll p.chain (items p) = p.walk.flatMap fun q => (own q).map fun i => (q.chain, i) := by
  induction p using PlacedTable.induct with
  | step p ih =>
    have hbelow : ∀ cs : List PlacedTable, (∀ c ∈ cs, c ∈ p.childTables) →
        Item.locatedAll p.chain (cs.map fun c => .module (attrs c) isPublic c.codeName (items c))
          = (cs.flatMap PlacedTable.walk).flatMap fun q => (own q).map fun i => (q.chain, i) := by
      intro cs hcs
      induction cs with
      | nil => rfl
      | cons c cs ihcs =>
        rw [List.forall_mem_cons] at hcs
        rw [List.map_cons, Item.locatedAll, Item.located, ← PlacedTable.chain_of_mem_childTables hcs.1,
          ih c hcs.1, ihcs hcs.2, List.flatMap_cons, List.flatMap_append]
    rw [h p, Item.locatedAll_append, Item.locatedAll_of_no_module (hown p), hbelow _ fun _ hc => hc,
      PlacedTable.walk_eq, List.flatMap_cons]

theorem NestsLike.sealed {P : Path → Prop}
    (hattrs : ∀ q, ∀ path ∈ (attrs q).flatMap Attribute.paths, P path) (p : PlacedTable)
    (hown : ∀ q ∈ p.walk, ∀ i ∈ own q, Sealed P i.tokens) :
    Sealed P (Item.tokensAll (items p)) := by
  induction p using PlacedTable.induct with
  | step p ih =>
    rw [PlacedTable.walk_eq, List.forall_mem_cons] at hown
    rw [h p, Item.tokensAll_eq, List.flatMap_append, List.flatMap_map]
    refine (Sealed.flatMap hown.1).append (.flatMap fun c hc => ?_)
    have hitems := ih c hc fun q hq => hown.2 q (List.mem_flatMap.mpr ⟨c, hc, hq⟩)
    have hwords := ((sealed_attributes (hattrs c)).append (sealed_visibility isPublic)).append
      (.word (w := "mod") (by decide))
    exact (hwords.then_name c.codeName).then_group .brace hitems.within

/-- The tables below are told apart by their code names, and modules are told from other items by
their kind. -/
theorem NestsLike.apart (hplain : ∀ q, ∀ i ∈ own q, ∀ name, i.name? ≠ some (.module, name))
    (p : PlacedTable) (hp : p.IsNamed) (hown : ∀ q ∈ p.walk, q.IsNamed → Apart (own q)) :
    Apart (items p) := by
  induction p using PlacedTable.induct with
  | step p ih =>
    rw [PlacedTable.walk_eq, List.forall_mem_cons] at hown
    have hbelow : ∀ c ∈ p.childTables, Apart (items c) := fun c hc =>
      ih c hc (hp.child hc) fun q hq => hown.2 q (List.mem_flatMap.mpr ⟨c, hc, hq⟩)
    have hmodules : (p.childTables.map fun c =>
        Item.module (attrs c) isPublic c.codeName (items c)).filterMap Item.name?
        = (p.childTables.map PlacedTable.codeName).map (Prod.mk ItemKind.module) := by
      rw [List.filterMap_map, List.map_map, ← List.filterMap_eq_map]
      rfl
    rw [h p]
    refine (hown.1 hp).append (.intro ?_ (by simp) (by simp) (by simp) ?_) fun name hname hmem => ?_
    · rw [hmodules]
      exact hp.child_codes.map (Prod.mk_right_injective _)
    · intro as b name below hi
      obtain ⟨c, hc, he⟩ := List.mem_map.mp hi
      cases he
      exact hbelow c hc
    · obtain ⟨i, hi, he⟩ := List.mem_filterMap.mp hname
      rw [hmodules] at hmem
      obtain ⟨code, -, rfl⟩ := List.mem_map.mp hmem
      exact hplain p i hi code he

end Nests

end RestForge.Source
