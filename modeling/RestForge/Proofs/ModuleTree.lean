import Mathlib.Data.List.Nodup
import Mathlib.Data.String.Basic
import RestForge.Crate.ModuleTree
import RestForge.Proofs.Spelling

/-!
# The directories of a crate

* `sorted_alter`, `mem_alter`: a change by key keeps the keys sorted, and what it leaves.
* `ModuleNode.Neat`: a directory in which every directory has a code name of its own.
* `neat_graft`: resources with such modules may be added anywhere.
* `nodup_files`, `mem_files`: each directory has one module file, at the path of its names.
* `nodup_moduleFiles`, `placed_of_mem_moduleFiles`: so it is in the whole crate.
-/

set_option autoImplicit false

namespace RestForge.KeyedList

variable {κ α : Type} [DecidableEq κ] [LT κ] [DecidableLT κ]

theorem mem_alter {key : κ} {f : Option α → α} {l : List (κ × α)} {p : κ × α}
    (h : p ∈ alter key f l) :
    p ∈ l ∨ p = (key, f none) ∨ ∃ v, (key, v) ∈ l ∧ p = (key, f (some v)) := by
  induction l with
  | nil => exact .inr (.inl (List.mem_singleton.mp h))
  | cons q l ih =>
    obtain ⟨k, v⟩ := q
    rw [alter] at h
    split at h
    · rename_i hk
      obtain rfl | hmem := List.mem_cons.mp h
      · exact .inr (.inr ⟨v, by simp [hk]⟩)
      · exact .inl (List.mem_cons_of_mem _ hmem)
    · split at h
      · obtain rfl | hmem := List.mem_cons.mp h
        · exact .inr (.inl rfl)
        · exact .inl hmem
      · obtain rfl | hmem := List.mem_cons.mp h
        · exact .inl (by simp)
        · obtain hold | hnew | ⟨w, hw, he⟩ := ih hmem
          · exact .inl (List.mem_cons_of_mem _ hold)
          · exact .inr (.inl hnew)
          · exact .inr (.inr ⟨w, List.mem_cons_of_mem _ hw, he⟩)

theorem sorted_alter [IsStrictTotalOrder κ (· < ·)] {l : List (κ × α)} (h : Sorted l) (key : κ)
    (f : Option α → α) : Sorted (alter key f l) := by
  induction l with
  | nil => simp [alter, Sorted]
  | cons q l ih =>
    obtain ⟨k, v⟩ := q
    obtain ⟨hhead, htail⟩ := List.pairwise_cons.mp h
    rw [alter]
    by_cases hk : key = k
    · rw [if_pos hk]
      exact List.pairwise_cons.mpr ⟨hhead, htail⟩
    · rw [if_neg hk]
      by_cases hlt : key < k
      · rw [if_pos hlt]
        refine List.pairwise_cons.mpr ⟨fun p hp => ?_, h⟩
        obtain rfl | hmem := List.mem_cons.mp hp
        · exact hlt
        · exact trans_of (· < ·) hlt (hhead p hmem)
      · rw [if_neg hlt]
        have hgt : k < key :=
          (trichotomous_of (· < ·) key k).elim (absurd · hlt) fun h => h.resolve_left hk
        refine List.pairwise_cons.mpr ⟨fun p hp => ?_, ih htail⟩
        obtain hold | rfl | ⟨w, -, rfl⟩ := mem_alter hp
        · exact hhead p hold
        · exact hgt
        · exact hgt

end RestForge.KeyedList

namespace RestForge.Crate

open Naming KeyedList

namespace ModuleNode

/-! ## Neat directories -/

/-- Each directory below has a code name that no other one beside it has. -/
inductive Neat : ModuleNode → Prop where
  | node (dotted : String) (resource : Option ResourceEntry) (children : List (String × ModuleNode))
      (sorted : Sorted children) (spelled : ∀ c ∈ children, CodeName c.1)
      (below : ∀ c ∈ children, Neat c.2) : Neat (node dotted resource children)

theorem neat_fresh (dotted : String) : Neat (fresh dotted) :=
  .node _ _ _ List.Pairwise.nil (by simp) (by simp)

theorem neat_graft (entry : ResourceEntry) {segments : List Segment}
    (hs : ∀ s ∈ segments, CodeName s.module) {n : ModuleNode} (h : n.Neat) :
    (graft entry segments n).Neat := by
  induction segments generalizing n with
  | nil =>
    cases h with
    | node dotted resource children sorted spelled below =>
      rw [graft]
      exact .node _ _ _ sorted spelled below
  | cons s segments ih =>
    have hrest : ∀ s ∈ segments, CodeName s.module := fun s' hs' => hs s' (by simp [hs'])
    cases h with
    | node dotted resource children sorted spelled below =>
      rw [graft]
      refine .node _ _ _ (sorted_alter sorted _ _) (fun c hc => ?_) (fun c hc => ?_)
      · obtain hold | rfl | ⟨v, -, rfl⟩ := mem_alter hc
        · exact spelled c hold
        · exact hs s (by simp)
        · exact hs s (by simp)
      · obtain hold | rfl | ⟨v, hv, rfl⟩ := mem_alter hc
        · exact below c hold
        · exact ih hrest (neat_fresh _)
        · exact ih hrest (below _ hv)

/-! ## Their module files -/

theorem filesAll_eq (path : List String) (children : List (String × ModuleNode)) :
    filesAll path children = children.flatMap fun c => c.2.files (path ++ [c.1]) := by
  induction children with
  | nil => rfl
  | cons c children ih => rw [filesAll, ih, List.flatMap_cons]

/-- A path of code names below a directory, to a module file. -/
def IsBelow (path : List String) (f : ModuleFile) : Prop :=
  ∃ mods, f.path = path ++ mods ++ ["mod.rs"] ∧ ∀ m ∈ mods, CodeName m

theorem mem_files {n : ModuleNode} (h : n.Neat) {path : List String} {f : ModuleFile}
    (hf : f ∈ n.files path) : IsBelow path f := by
  induction h generalizing path with
  | node dotted resource children sorted spelled below ih =>
    rw [files, filesAll_eq] at hf
    obtain rfl | hf := List.mem_cons.mp hf
    · exact ⟨[], by simp, by simp⟩
    · obtain ⟨c, hc, hfc⟩ := List.mem_flatMap.mp hf
      obtain ⟨mods, he, hmods⟩ := ih c hc hfc
      refine ⟨c.1 :: mods, by simp [he], fun m hm => ?_⟩
      obtain rfl | hm := List.mem_cons.mp hm
      · exact spelled c hc
      · exact hmods m hm

theorem nodup_files {n : ModuleNode} (h : n.Neat) (path : List String) :
    ((n.files path).map ModuleFile.path).Nodup := by
  induction h generalizing path with
  | node dotted resource children sorted spelled below ih =>
    rw [files, filesAll_eq, List.map_cons, List.nodup_cons, List.map_flatMap]
    refine ⟨fun hmem => ?_, List.nodup_flatMap.mpr ⟨fun c hc => ih c hc _, ?_⟩⟩
    -- every path below is longer, and below two directories the next components differ
    · obtain ⟨c, hc, hmem⟩ := List.mem_flatMap.mp hmem
      obtain ⟨f, hf, he⟩ := List.mem_map.mp hmem
      obtain ⟨mods, hpath, -⟩ := mem_files (below c hc) hf
      have hlen := congrArg List.length (hpath.symm.trans he)
      simp only [List.length_append, List.length_cons, List.length_nil] at hlen
      omega
    · refine sorted.imp_of_mem fun {a b} ha hb hlt => ?_
      intro p hpa hpb
      obtain ⟨f, hf, rfl⟩ := List.mem_map.mp hpa
      obtain ⟨g, hg, he⟩ := List.mem_map.mp hpb
      obtain ⟨mods, hf, -⟩ := mem_files (below a ha) hf
      obtain ⟨mods', hg, -⟩ := mem_files (below b hb) hg
      rw [hf, hg] at he
      simp only [List.append_assoc, List.cons_append, List.append_cancel_left_eq,
        List.cons.injEq] at he
      exact (ne_of_lt hlt) he.1.symm

end ModuleNode

/-! ## The files of a crate -/

def ResourceEntry.IsSpelled (e : ResourceEntry) : Prop := ∀ s ∈ e.segments, CodeName s.module

theorem neat_categoryNode {entries : List ResourceEntry} (h : ∀ e ∈ entries, e.IsSpelled)
    {c : Category} {n : ModuleNode} (hn : categoryNode? entries c = some n) : n.Neat := by
  have hfold : ∀ (mine : List ResourceEntry) (n : ModuleNode), (∀ e ∈ mine, e.IsSpelled) → n.Neat →
      (mine.foldl (fun n e => n.graft e e.segments) n).Neat := by
    intro mine
    induction mine with
    | nil => exact fun n _ hn => hn
    | cons e mine ih =>
      intro n hmine hn
      refine ih _ (fun e' he' => hmine e' (by simp [he'])) ?_
      exact ModuleNode.neat_graft e (hmine e (by simp)) hn
  unfold categoryNode? at hn
  split at hn
  · cases hn
  · cases hn
    refine hfold _ _ (fun e he => h e ?_) (ModuleNode.neat_fresh _)
    exact List.mem_of_mem_filter he

def categoryNodes (entries : List ResourceEntry) : List (Category × ModuleNode) :=
  Category.all.filterMap fun c => (categoryNode? entries c).map fun n => (c, n)

theorem mem_categoryNodes {entries : List ResourceEntry} {c : Category} {n : ModuleNode}
    (h : (c, n) ∈ categoryNodes entries) : categoryNode? entries c = some n := by
  obtain ⟨c', -, he⟩ := List.mem_filterMap.mp h
  obtain ⟨n', hn, he⟩ := Option.map_eq_some_iff.mp he
  cases he
  exact hn

theorem pairwise_categoryNodes (entries : List ResourceEntry) :
    (categoryNodes entries).Pairwise fun a b => a.1 ≠ b.1 := by
  have hall : Category.all.Pairwise (· ≠ ·) := by decide
  refine List.pairwise_filterMap.mpr (hall.imp fun {c d} hne p hp q hq he => hne ?_)
  obtain ⟨n, -, rfl⟩ := Option.map_eq_some_iff.mp hp
  obtain ⟨m, -, rfl⟩ := Option.map_eq_some_iff.mp hq
  exact he

theorem text_injective {c d : Category} (h : c.text = d.text) : c = d := by
  cases c <;> cases d <;> first | rfl | exact absurd h (by decide)

/-- Where a module file may lie: at the top, or below the directory of a category. -/
def ModuleFile.IsPlaced (f : ModuleFile) : Prop :=
  f.path = ["src", "lib.rs"] ∨ ∃ c : Category, ModuleNode.IsBelow ["src", c.text] f

section Spelled

variable {entries : List ResourceEntry} (h : ∀ e ∈ entries, e.IsSpelled)

include h

theorem neat_of_mem {c : Category × ModuleNode} (hc : c ∈ categoryNodes entries) : c.2.Neat :=
  neat_categoryNode h (mem_categoryNodes hc)

/-- Files in the directories of different categories differ in the second component. -/
theorem nodup_categoryFiles :
    ((categoryNodes entries).flatMap fun c =>
      (c.2.files ["src", c.1.text]).map ModuleFile.path).Nodup := by
  refine List.nodup_flatMap.mpr ⟨fun c hc => ModuleNode.nodup_files (neat_of_mem h hc) _, ?_⟩
  refine (pairwise_categoryNodes entries).imp_of_mem fun {a b} ha hb hne => ?_
  intro p hpa hpb
  obtain ⟨f, hf, rfl⟩ := List.mem_map.mp hpa
  obtain ⟨g, hg, he⟩ := List.mem_map.mp hpb
  obtain ⟨mods, hf, -⟩ := ModuleNode.mem_files (neat_of_mem h ha) hf
  obtain ⟨mods', hg, -⟩ := ModuleNode.mem_files (neat_of_mem h hb) hg
  rw [hf, hg] at he
  simp only [List.cons_append, List.cons.injEq, true_and] at he
  exact hne (text_injective he.1.symm)

theorem placed_of_mem_moduleFiles {f : ModuleFile} (hf : f ∈ moduleFiles entries) : f.IsPlaced := by
  rw [moduleFiles, List.mem_mergeSort] at hf
  obtain rfl | hf := List.mem_cons.mp hf
  · exact .inl rfl
  · obtain ⟨c, hc, hf⟩ := List.mem_flatMap.mp hf
    exact .inr ⟨c.1, ModuleNode.mem_files (neat_of_mem h hc) hf⟩

theorem nodup_moduleFiles : ((moduleFiles entries).map ModuleFile.path).Nodup := by
  have hsorted := ((List.mergeSort_perm _ ModuleFile.before).map ModuleFile.path :
    ((moduleFiles entries).map ModuleFile.path).Perm _)
  refine hsorted.nodup_iff.mpr ?_
  rw [List.map_cons, List.nodup_cons, List.map_flatMap]
  refine ⟨fun hmem => ?_, nodup_categoryFiles h⟩
  obtain ⟨c, hc, hmem⟩ := List.mem_flatMap.mp hmem
  obtain ⟨f, hf, he⟩ := List.mem_map.mp hmem
  obtain ⟨mods, hpath, -⟩ := ModuleNode.mem_files (neat_of_mem h hc) hf
  have hlast := congrArg List.getLast? (hpath.symm.trans he)
  rw [List.getLast?_concat] at hlast
  have hname : some "mod.rs" = some "lib.rs" := hlast
  exact absurd hname (by decide)

end Spelled

/-- The file at the top of a crate without resources. -/
def bareTop : ModuleFile := ⟨["src", "lib.rs"], crateFile []⟩

/-- Without resources there is only the file at the top. -/
theorem layOut_nil : layOut [] = .ok [bareTop] :=
  congrArg Except.ok (List.mergeSort_singleton _)

end RestForge.Crate
