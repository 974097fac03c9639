import RestForge.Proofs.ClosedTree

/-!
# The order of the module files

The module files of a crate are sorted by their paths, which are compared component by component, and
no two files have one path. What was laid out does not show in which order its resources came.

* `pairwise_before`, `ascending_moduleFiles`: the files in the order of their paths.
* `layOut_ordered`: the layout of resources that were read in one run, in any order.
-/

set_option autoImplicit false

namespace RestForge.Crate

/-! ## Sorted by path -/

theorem ModuleFile.before_iff {f g : ModuleFile} : f.before g = true ↔ f.path ≤ g.path := by
  rw [ModuleFile.before, Bool.not_eq_true', decide_eq_false_iff_not, not_lt]

theorem pairwise_before (entries : List ResourceEntry) :
    (moduleFiles entries).Pairwise fun f g => f.path ≤ g.path := by
  refine (List.pairwise_mergeSort ?_ ?_ _).imp ModuleFile.before_iff.mp
  · intro f g h hfg hgh
    exact ModuleFile.before_iff.mpr ((ModuleFile.before_iff.mp hfg).trans (ModuleFile.before_iff.mp hgh))
  · intro f g
    rw [Bool.or_eq_true, ModuleFile.before_iff, ModuleFile.before_iff]
    exact le_total f.path g.path

theorem ascending_moduleFiles {entries : List ResourceEntry} (h : ∀ e ∈ entries, e.IsSpelled) :
    (moduleFiles entries).Pairwise fun f g => f.path < g.path := by
  have hne := List.pairwise_map.mp (nodup_moduleFiles h)
  exact (pairwise_before entries).imp₂ (fun f g hle hne => lt_of_le_of_ne hle hne) hne

end RestForge.Crate

namespace RestForge.Run

open Naming Schema Crate

variable {steps : List NamingStep} {batch : List Named}

theorem entriesOf_apart (hread : ∀ b ∈ batch, b.1 ∈ resourcesRead steps)
    (hapart : batch.Pairwise fun a b => a.1.dottedPath ≠ b.1.dottedPath) :
    (entriesOf batch).Pairwise ResourceEntry.IsApart := by
  have htwoWay := (sound_tableFrom_empty steps).twoWay
  refine List.pairwise_map.mpr (hapart.imp_of_mem fun {a b} ha hb hne => ?_)
  have hplaced := placed_of_mem_resourcesRead (hread a ha)
  have hplaced' := placed_of_mem_resourcesRead (hread b hb)
  exact isApart_of_placed htwoWay hplaced hplaced' hne a.2 b.2

/-- **The layout has an order of its own.** Resources that were read in one run and have different
dotted paths are laid out, whatever their types are called. In any other order they are laid out as
well, as the very same files, and the path of each file is less than those of the files after it. -/
theorem layOut_ordered {entries : List ResourceEntry} {files : List ModuleFile}
    (hread : ∀ b ∈ batch, b.1 ∈ resourcesRead steps)
    (hapart : batch.Pairwise fun a b => a.1.dottedPath ≠ b.1.dottedPath)
    (hlaid : layOut (entriesOf batch) = .ok files) (hperm : (entriesOf batch).Perm entries) :
    layOut entries = .ok files ∧ files.Pairwise fun f g => f.path < g.path := by
  refine ⟨layOut_perm hperm (entriesOf_apart hread hapart) hlaid, ?_⟩
  have hspelled : ∀ b ∈ batch, IsSpelled b := fun b hb => spelled_of_mem_resourcesRead (hread b hb)
  obtain ⟨-, -, hfiles⟩ := except_bind_ok hlaid
  cases hfiles
  exact ascending_moduleFiles (entries_spelled hspelled)

/-- The resource `net/model` and its parent give the same files if the parent comes first. -/
theorem layOut_ordered_net :
    (∀ b ∈ netBatch, b.1 ∈ resourcesRead netSteps)
      ∧ (netBatch.Pairwise fun a b => a.1.dottedPath ≠ b.1.dottedPath)
      ∧ (entriesOf netBatch).Perm (entriesOf netBatch).reverse
      ∧ ∃ files, layOut (entriesOf netBatch) = .ok files
        ∧ layOut (entriesOf netBatch).reverse = .ok files
        ∧ files.Pairwise fun f g => f.path < g.path := by
  have hapart : netBatch.Pairwise fun a b => a.1.dottedPath ≠ b.1.dottedPath :=
    .cons (List.forall_mem_singleton.mpr net_apart) (List.pairwise_singleton _ _)
  have hlaid : layOut (entriesOf netBatch) = .ok (moduleFiles (entriesOf netBatch)) := rfl
  have hperm := (List.reverse_perm (entriesOf netBatch)).symm
  exact ⟨netBatch_read, hapart, hperm, _, hlaid, layOut_ordered netBatch_read hapart hlaid hperm⟩

end RestForge.Run
