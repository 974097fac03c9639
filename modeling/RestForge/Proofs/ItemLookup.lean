import RestForge.Proofs.DistinctNames
import RestForge.Proofs.NestedPaths
import RestForge.Proofs.ProgramMeaning

/-!
# Finding items of the files of a resource

In the files of a resource every name leads to the item that was generated under it, as no two things
of one kind share a name.

* `Apart.function_found`, `Apart.struct_found`, `Apart.module_found`: items by their names.
* `NestsLike.itemsIn?`: the items of a table, found along its chain.
* `place?_inside`, `place?_below`, `place?_self`: where the paths of generated code lead.
-/

set_option autoImplicit false

namespace RestForge.Source

open Emit

/-! ## Items by name -/

theorem eq_of_filterMap_nodup {α β : Type} {f : α → Option β} {l : List α} (h : (l.filterMap f).Nodup)
    {x y : α} (hx : x ∈ l) (hy : y ∈ l) {b : β} (hxb : f x = some b) (hyb : f y = some b) : x = y := by
  have hmem : ∀ {l : List α} {x : α}, x ∈ l → f x = some b → b ∈ l.filterMap f :=
    fun hx hxb => List.mem_filterMap.mpr ⟨_, hx, hxb⟩
  induction l with
  | nil => cases hx
  | cons z l ih =>
    cases hz : f z with
    | none =>
      rw [List.filterMap_cons_none hz] at h
      refine ih h ?_ ?_
      · exact (List.mem_cons.mp hx).resolve_left fun he => by simp [he, hz] at hxb
      · exact (List.mem_cons.mp hy).resolve_left fun he => by simp [he, hz] at hyb
    | some c =>
      rw [List.filterMap_cons_some hz, List.nodup_cons] at h
      obtain rfl | hx' := List.mem_cons.mp hx
      · obtain rfl | hy' := List.mem_cons.mp hy
        · rfl
        · cases hz.symm.trans hxb
          exact absurd (hmem hy' hyb) h.1
      · obtain rfl | hy' := List.mem_cons.mp hy
        · cases hz.symm.trans hyb
          exact absurd (hmem hx' hxb) h.1
        · exact ih h.2 hx' hy'

section Apart

variable {items : List Item} (h : Apart items)

include h

/-- A search that is for one name only. -/
theorem Apart.found {β : Type} {search : Item → Option β} {name : ItemKind × String} {i : Item} {y : β}
    (hi : i ∈ items) (hname : i.name? = some name) (hy : search i = some y)
    (hsearch : ∀ j z, search j = some z → j.name? = some name) : items.findSome? search = some y := by
  refine findSome?_of_unique hi hy fun j hj => ?_
  cases hs : search j with
  | none => exact .inl rfl
  | some z =>
    obtain ⟨hnames, -, -, -, -⟩ := h
    rw [eq_of_filterMap_nodup hnames hj hi (hsearch j z hs) hname, hy] at hs
    exact .inr hs.symm

theorem Apart.function_found {f : Function} (hf : .function f ∈ items) :
    items.findSome? (function? f.name) = some f := by
  refine h.found hf rfl (if_pos rfl) fun j g hg => ?_
  cases j <;> simp [function?] at hg
  simp [Item.name?, ← hg.1, hg.2]

theorem Apart.struct_found {s : StructItem} (hs : .struct s ∈ items) :
    items.findSome? (struct? s.name) = some s := by
  refine h.found hs rfl (if_pos rfl) fun j g hg => ?_
  cases j <;> simp [struct?] at hg
  simp [Item.name?, ← hg.1, hg.2]

theorem Apart.module_found {attrs : List Attribute} {isPublic : Bool} {name : String}
    {below : List Item} (hm : .module attrs isPublic name below ∈ items) :
    items.findSome? (moduleItems? name) = some below := by
  refine h.found hm rfl (if_pos rfl) fun j g hg => ?_
  cases j <;> simp [moduleItems?] at hg
  simp [Item.name?, hg]

end Apart

/-! ## Items of nested tables -/

/-- From items that include those of a table, the chain leads on to those of every table below. -/
theorem NestsLike.exists_itemsIn? {items own : PlacedTable → List Item}
    {attrs : PlacedTable → List Attribute} {isPublic : Bool} (h : NestsLike items own attrs isPublic)
    {p q : PlacedTable} (hq : q ∈ p.walk) {all : List Item} (hall : Apart all)
    (hp : items p ⊆ all) : ∃ names inner, q.chain = p.chain ++ names
      ∧ itemsIn? all names = some inner ∧ Apart inner ∧ items q ⊆ inner
      ∧ (all = items p → inner = items q) := by
  induction p using PlacedTable.induct generalizing all with
  | step p ih =>
    rw [PlacedTable.walk_eq] at hq
    obtain rfl | hq := List.mem_cons.mp hq
    · exact ⟨[], all, by simp, rfl, hall, hp, id⟩
    · obtain ⟨c, hc, hq⟩ := List.mem_flatMap.mp hq
      have hmodule : .module (attrs c) isPublic c.codeName (items c) ∈ all := by
        refine hp ?_
        rw [h p]
        exact List.mem_append_right _ (List.mem_map.mpr ⟨c, hc, rfl⟩)
      have hbelow : Apart (items c) := by
        cases hall with
        | intro _ _ _ _ inside => exact inside _ _ _ _ hmodule
      obtain ⟨names, inner, hchain, hin, happart, hsub, heq⟩ := ih c hc hq hbelow (List.Subset.refl _)
      refine ⟨c.codeName :: names, inner, ?_, ?_, happart, hsub, fun _ => heq rfl⟩
      · rw [hchain, PlacedTable.chain_of_mem_childTables hc, List.append_assoc]
        rfl
      · rw [itemsIn?, hall.module_found hmodule]
        exact hin

end RestForge.Source

namespace RestForge.Emit

open Source Naming

/-- The items of the checks of a table, in the file of the resource. -/
theorem itemsIn?_validators {r : Resource} (hr : (PlacedTable.ofResource r).IsNamed) {p : PlacedTable}
    (hp : p ∈ r.tables) : itemsIn? (validatorsFile r).items p.chain = some (validatorItems p) := by
  obtain ⟨names, inner, hchain, hin, -, -, heq⟩ :=
    validatorItems_nests.exists_itemsIn? hp (apart_validators hr) (List.Subset.refl _)
  rw [hchain, ← heq rfl]
  exact hin

/-- The tests of a table, in the module of the tests that its chain names. -/
theorem itemsIn?_tests {r : Resource} (hr : (PlacedTable.ofResource r).IsNamed) (names : TypeNames)
    {p : PlacedTable} (hp : p ∈ r.tables) : ∃ inner,
      itemsIn? (testsFile r names).items p.chain = some inner ∧ Apart inner
      ∧ ∀ f ∈ tableTestsOf (testPaths r names).validators p, .function f ∈ inner := by
  have hnests := validatorTests_nests (testPaths r names).validators
  obtain ⟨chain, inner, hchain, hin, happart, hsub, -⟩ :=
    hnests.exists_itemsIn? hp (apart_tests hr names) (List.subset_append_right _ _)
  refine ⟨inner, ?_, happart, fun f hf => hsub ?_⟩
  · rw [hchain]
    exact hin
  · rw [hnests p]
    exact List.mem_append_left _ (List.mem_map_of_mem hf)

/-! ## Paths -/

section Places

variable (r : Resource) (names : TypeNames) (site : Site)

theorem fileNamed?_moduleName (k : ArtifactKind) : fileNamed? k.moduleName = some k := by
  cases k <;> rfl

/-- A path from the root of the crate. -/
theorem place?_inside (k : ArtifactKind) (rest : List String) :
    (program r names).place? site (.rel ((resourceModule r).names ++ k.moduleName :: rest))
      = some ⟨k, rest⟩ := by
  have hmodule : (program r names).module = (resourceModule r).names := rfl
  simp only [Program.place?, Path.rel, hmodule, List.take_left', List.drop_left', placeBelow?,
    fileNamed?_moduleName]
  rfl

/-- A path from the module around a file. -/
theorem place?_beside (file k : ArtifactKind) (type? : Option String) (rest : List String) :
    (program r names).place? ⟨file, [], type?⟩ (.rel ("super" :: k.moduleName :: rest))
      = some ⟨k, rest⟩ := by
  have hmodule : (program r names).module = "crate" :: r.category.text :: r.modules := rfl
  rw [Program.place?, hmodule]
  simp [Path.rel, placeBelow?, fileNamed?_moduleName]

theorem place?_self (file : ArtifactKind) (modules : List String) (type : String)
    (rest : List String) :
    (program r names).place? ⟨file, modules, some type⟩ (.rel ("Self" :: rest))
      = some ⟨file, modules ++ type :: rest⟩ := by
  have hmodule : (program r names).module = "crate" :: r.category.text :: r.modules := rfl
  rw [Program.place?, hmodule]
  simp [Path.rel]

/-- A name of the same module. -/
theorem place?_own {first : String} (hfirst : first ∉ ["crate", "super", "Self"]) (rest : List String) :
    (program r names).place? site (.rel (first :: rest))
      = some ⟨site.file, site.modules ++ first :: rest⟩ := by
  have hmodule : (program r names).module = "crate" :: r.category.text :: r.modules := rfl
  simp only [List.mem_cons, not_or] at hfirst
  rw [Program.place?, hmodule]
  simp [Path.rel, hfirst]

end Places

/-! ## The checks of a table -/

section Checks

variable {r : Resource} (hr : (PlacedTable.ofResource r).IsNamed) {p : PlacedTable} (hp : p ∈ r.tables)
  (names : TypeNames) (runs : Program.Runs) (site : Site)

/-- Where the file of tests finds the checks of a table. -/
def validatorsOf (r : Resource) (p : PlacedTable) : Path :=
  { (resourceModule r).child "validators" with
    names := ((resourceModule r).child "validators").names ++ p.chain }

theorem child_validatorsOf (r : Resource) (p : PlacedTable) (name : String) :
    (validatorsOf r p).child name = .rel ((resourceModule r).names
      ++ ArtifactKind.validators.moduleName :: (p.chain ++ [name])) := by
  simp [validatorsOf, Path.child, Path.rel, resourceModule, ArtifactKind.moduleName]

include hr hp

theorem runCheck?_eq (check : Check) (payload : Record) :
    (program r names).runCheck? (p.chain ++ [check.name]) [.record payload]
      = (call (validatorItems p) check.name payload).map .ofVerdict := by
  have hitems : itemsIn? ((program r names).file .validators) p.chain = some (validatorItems p) :=
    itemsIn?_validators hr hp
  rw [Program.runCheck?, List.dropLast_concat, List.getLastD_concat, hitems, Option.bind_some]

/-- A call of a check from the root of the crate. -/
theorem call_check (check : Check) (payload : Record) :
    (program r names).call runs site ((validatorsOf r p).child check.name) [.record payload]
      = .given ((call (validatorItems p) check.name payload).map .ofVerdict) := by
  rw [child_validatorsOf, ← runCheck?_eq hr hp names]
  exact Program.call_validators rfl (place?_inside r names site .validators _)

theorem value?_constant {env : Env} {name : String} {v : Value}
    (henv : constants? (validatorItems p) [] = some env) (hv : env.lookup name = some v) :
    (program r names).value? site ((validatorsOf r p).child name) = some (.ofValue v) := by
  have hitems : itemsIn? ((program r names).file .validators) p.chain = some (validatorItems p) :=
    itemsIn?_validators hr hp
  have hconstant : (program r names).checkConstant? (p.chain ++ [name]) = some (.ofValue v) := by
    rw [Program.checkConstant?, List.dropLast_concat, List.getLastD_concat, hitems, Option.bind_some,
      henv, Option.bind_some, hv, Option.map_some]
  rw [child_validatorsOf, Program.value?, place?_inside]
  exact hconstant

end Checks

end RestForge.Emit
