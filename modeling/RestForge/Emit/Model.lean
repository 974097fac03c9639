import RestForge.Emit.Basic

/-!
# Model types

Every table has a struct with one optional field per schema field, in document order. A field carries
its wire name as an attribute; the struct lists all wire names.

* `modelStruct`, `modelImpl`: the items of one table.
* `modelFile`: the file of a resource.
-/

set_option autoImplicit false

namespace RestForge.Emit

open Source Naming

def modelDoc (p : PlacedTable) : String :=
  match p.help with
  | some help => help ++ "\n\nWire path: " ++ ticked p.dotted ++ "."
  | none => "Model for " ++ ticked p.dotted ++ "."

/-- Help text or name and type, then the declared values, the default and the reference, each
behind an empty line. -/
def fieldDoc (f : Field) : String :=
  let head :=
    match f.help with
    | some help => help
    | none => ticked f.wireName ++ " (" ++ f.type.text ++ ")."
  let values :=
    if f.isEnum then
      ["", "Allowed values: " ++ String.intercalate ", " (f.distinctValues.map ticked) ++ "."]
    else []
  let default :=
    match f.default with
    | some d => ["", "Default: " ++ ticked d ++ "."]
    | none => []
  let reference :=
    match f.reference with
    | some r => ["", "References " ++ ticked r ++ "."]
    | none => []
  String.intercalate "\n" (head :: values ++ default ++ reference)

/-- A nested table is a list of the models of its rows. -/
def fieldType (names : TypeNames) (p : PlacedTable) (f : Field) : Ty :=
  match p.childFor? f with
  | some child =>
    if f.isTable then applied "Vec" [.named (.rel [names.model child])] else scalarType f
  | none => scalarType f

def modelField (names : TypeNames) (p : PlacedTable) (f : Field) : StructField :=
  { attrs := docAttributes (fieldDoc f) ++ [.rename f.wireName]
    isPublic := true
    name := f.codeName
    type := applied "Option" [fieldType names p f] }

def modelTraits : List Path :=
  [.rel ["Debug"], .rel ["Clone"], .rel ["Default"], .rel ["PartialEq"],
    .glob ["serde", "Serialize"], .glob ["serde", "Deserialize"]]

def modelStruct (names : TypeNames) (p : PlacedTable) : StructItem :=
  { attrs := docAttributes (modelDoc p) ++ [.derive modelTraits]
    name := names.model p
    fields := p.fields.map (modelField names p) }

def modelImpl (names : TypeNames) (p : PlacedTable) : ImplItem :=
  { trait? := some (runtime ["Model"])
    target := names.model p
    constants := [⟨[], false, "FIELDS", textList true, texts (p.fields.map Field.wireName)⟩]
    functions := [] }

def modelFile (r : Resource) (names : TypeNames) : File :=
  { docs := [" Models for " ++ ticked r.dottedPath ++ "."]
    items := r.tables.flatMap fun p => [.struct (modelStruct names p), .impl (modelImpl names p)] }

end RestForge.Emit
