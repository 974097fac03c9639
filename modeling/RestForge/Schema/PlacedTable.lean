import RestForge.Schema.Basic

/-!
# Tables in their place

The root of a resource and its nested tables are looked at alike: as a table together with the paths
that lead to it.

* `PlacedTable`: a table with its dotted path, its wire path and the code names leading to it.
* `PlacedTable.ofResource`: the root table.
* `PlacedTable.childTables`: the tables directly below, in document order.
* `PlacedTable.fold`: recursion over a table and everything nested in it.
* `Resource.tables`: every table of a resource, each before those below it.
-/

set_option autoImplicit false

namespace RestForge

structure PlacedTable where
  dotted : String
  wirePath : String
  chain : List String
  help : Option String
  mkey : Option String
  fields : List Field
  children : List Table
  deriving Repr

namespace PlacedTable

def ofResource (r : Resource) : PlacedTable :=
  ⟨r.dottedPath, r.wirePath, [], r.help, r.mkey, r.fields, r.children⟩

/-- A nested table, given the paths of the table that holds it. -/
def below (dotted wirePath : String) (chain : List String) (t : Table) : PlacedTable :=
  ⟨dotted ++ "." ++ t.wireName, wirePath ++ "/" ++ t.wireName, chain ++ [t.codeName], t.help, t.mkey,
    t.fields, t.children⟩

def child (p : PlacedTable) (t : Table) : PlacedTable := below p.dotted p.wirePath p.chain t

def childTables (p : PlacedTable) : List PlacedTable := p.children.map p.child

def isRoot (p : PlacedTable) : Bool := p.chain.isEmpty

/-- The code name of the table itself; the root has none. -/
def codeName (p : PlacedTable) : String := p.chain.getLastD ""

/-- The last piece of the wire path. -/
def segment (p : PlacedTable) : String := Text.lastPiece '/' p.wirePath

/-- The name under which the types of the table are registered. -/
def key (p : PlacedTable) : String := String.intercalate ">" p.chain

/-- The identifying field. -/
def mkeyField? (p : PlacedTable) : Option Field :=
  p.mkey.bind fun key => p.fields.find? fun f => f.wireName == key

def requiredFields (p : PlacedTable) : List Field := p.fields.filter Field.required

def enumFields (p : PlacedTable) : List Field := p.fields.filter Field.isEnum

/-- The table directly below with the code name of a field. -/
def childFor? (p : PlacedTable) (f : Field) : Option PlacedTable :=
  p.childTables.find? fun c => c.codeName == f.codeName

end PlacedTable

/-! ## All tables of a resource -/

mutual

/-- Works a nested table up from the results for the tables directly below it. -/
def Table.foldPlaced {β : Type} (f : PlacedTable → List β → β) (dotted wirePath : String)
    (chain : List String) : Table → β
  | ⟨wireName, codeName, help, mkey, fields, children⟩ =>
    f (PlacedTable.below dotted wirePath chain ⟨wireName, codeName, help, mkey, fields, children⟩)
      (foldPlacedAll f (dotted ++ "." ++ wireName) (wirePath ++ "/" ++ wireName)
        (chain ++ [codeName]) children)

def foldPlacedAll {β : Type} (f : PlacedTable → List β → β) (dotted wirePath : String)
    (chain : List String) : List Table → List β
  | [] => []
  | t :: ts => t.foldPlaced f dotted wirePath chain :: foldPlacedAll f dotted wirePath chain ts

end

namespace PlacedTable

/-- Works a table up from the results for the tables directly below it. -/
def fold {β : Type} (f : PlacedTable → List β → β) (p : PlacedTable) : β :=
  f p (foldPlacedAll f p.dotted p.wirePath p.chain p.children)

theorem fold_eq {β : Type} (f : PlacedTable → List β → β) (p : PlacedTable) :
    p.fold f = f p (p.childTables.map (fold f)) := by
  have go : ∀ ts : List Table, foldPlacedAll f p.dotted p.wirePath p.chain ts
      = (ts.map p.child).map (fold f) := by
    intro ts
    induction ts with
    | nil => simp [foldPlacedAll]
    | cons t ts ih =>
      obtain ⟨wireName, codeName, help, mkey, fields, children⟩ := t
      simp [foldPlacedAll, Table.foldPlaced, ih, fold, child, below]
  simp [fold, childTables, go]

/-- The table and everything nested in it, each table before those below it. -/
def walk : PlacedTable → List PlacedTable := fold fun p below => p :: below.flatten

theorem walk_eq (p : PlacedTable) : p.walk = p :: p.childTables.flatMap walk := by
  rw [walk, fold_eq, ← walk, List.flatMap_def]

end PlacedTable

def Resource.tables (r : Resource) : List PlacedTable := (PlacedTable.ofResource r).walk

end RestForge
