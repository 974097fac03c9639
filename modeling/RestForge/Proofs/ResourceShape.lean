import RestForge.Proofs.TableReadings

/-!
# The shape of what was read

* `Describes`, `Mirrors`: field by field and table by table, the document and what was read of it.
* `Tidy`, `DeeplyTidy`: what holds of one table apart from its names, and so below it.
* `WellFormed`: everything that the rest of the program takes for granted about one table.
* `readResource_wellFormed`: a resource that was read is well formed at every depth.
-/

set_option autoImplicit false

namespace RestForge.Schema

open Naming

/-! ## Documents and what was read of them -/

structure Describes (item : Record) (f : Field) : Prop where
  head : HasHead item ⟨f.wireName, f.type, f.required, f.values, f.default⟩
  help : OptionalText item "help" f.help
  reference : OptionalText item "datasource" f.reference

/-- The items of a table are its fields one by one, and each nested field among them is in turn a
table below. -/
inductive Mirrors : List Json → List Field → List Table → Prop where
  | nil : Mirrors [] [] []
  | plain {item : Record} {items : List Json} {f : Field} {fields : List Field}
    {tables : List Table} (hfield : Describes item f) (hplain : f.isTable = false)
    (rest : Mirrors items fields tables) : Mirrors (.object item :: items) (f :: fields) tables
  | nested {item : Record} {items below : List Json} {f : Field} {fields : List Field} {t : Table}
    {tables : List Table} (hfield : Describes item f) (hnested : f.isTable = true)
    (hwire : t.wireName = f.wireName) (hcode : t.codeName = f.codeName) (hhelp : t.help = f.help)
    (hmkey : OptionalText item "mkey" t.mkey) (hchildren : item.get? "children" = some (.array below))
    (hbelow : Mirrors below t.fields t.children) (rest : Mirrors items fields tables) :
    Mirrors (.object item :: items) (f :: fields) (t :: tables)

section Reading

variable {room : Nat} {key : String} {items : List Json} {t t' : NameTable} {fields : List Field}
  {tables : List Table}

theorem HasHead.describes {item : Record} {head : FieldHead} {help reference : Option String}
    (hhead : HasHead item head) (hhelp : OptionalText item "help" help)
    (hreference : OptionalText item "datasource" reference) (code : String) :
    Describes item (head.field code help reference) := ⟨hhead, hhelp, hreference⟩

theorem Reads.mirrors (h : Reads room key items t fields tables t') :
    Mirrors items fields tables := by
  induction h with
  | nil => exact .nil
  | plain hhead hplain _ hhelp hreference _ _ _ ih =>
    exact .plain (hhead.describes hhelp hreference _)
      (Bool.eq_false_iff.mpr (mt isTable_iff.mp hplain)) ih
  | nested hhead hnested hchildren hhelp hreference hmkey _ _ _ _ _ ihbelow ih =>
    exact .nested (hhead.describes hhelp hreference _) (isTable_iff.mpr hnested) rfl rfl rfl hmkey
      hchildren ihbelow ih

/-! ## Tables apart from their names -/

structure Tidy (fields : List Field) : Prop where
  named : ∀ f ∈ fields, f.wireName ≠ ""
  enums : ∀ f ∈ fields, f.values ≠ [] ↔ f.isEnum = true

/-- Tables nest at most `room` levels deep. -/
inductive DeeplyTidy : Nat → List Field → List Table → Prop where
  | flat {room : Nat} {fields : List Field} (here : Tidy fields) : DeeplyTidy room fields []
  | deep {room : Nat} {fields : List Field} {tables : List Table} (here : Tidy fields)
    (keyed : ∀ t ∈ tables, KeyAmong t.mkey (t.fields.map column))
    (below : ∀ t ∈ tables, DeeplyTidy room t.fields t.children) :
    DeeplyTidy (room + 1) fields tables

theorem HasHead.tidy {item : Record} {head : FieldHead} (hhead : HasHead item head)
    (hfields : Tidy fields) (code : String) (help reference : Option String) :
    Tidy (head.field code help reference :: fields) := by
  have henum : head.values ≠ [] ↔ (head.field code help reference).isEnum = true := by
    rw [hhead.enums]
    exact beq_iff_eq.symm
  exact ⟨List.forall_mem_cons.mpr ⟨hhead.named, hfields.named⟩,
    List.forall_mem_cons.mpr ⟨henum, hfields.enums⟩⟩

theorem Reads.deeplyTidy (h : Reads room key items t fields tables t') :
    DeeplyTidy room fields tables := by
  induction h with
  | nil => exact .flat ⟨by simp, by simp⟩
  | plain hhead _ _ _ _ _ _ _ ih =>
    cases ih with
    | flat here => exact .flat (hhead.tidy here _ _ _)
    | deep here keyed below => exact .deep (hhead.tidy here _ _ _) keyed below
  | nested hhead _ _ _ _ _ hkey _ _ _ _ ihbelow ih =>
    cases ih with
    | flat here =>
      refine .deep (hhead.tidy here _ _ _) ?_ ?_
      · exact List.forall_mem_singleton.mpr hkey
      · exact List.forall_mem_singleton.mpr ihbelow
    | deep here keyed below =>
      refine .deep (hhead.tidy here _ _ _) ?_ ?_
      · exact List.forall_mem_cons.mpr ⟨hkey, keyed⟩
      · exact List.forall_mem_cons.mpr ⟨ihbelow, below⟩

end Reading

/-! ## Well-formed resources -/

/-- What holds of a table that is reached in a resource. -/
structure WellFormed (limit : Nat) (p : PlacedTable) : Prop where
  tidy : Tidy p.fields
  names : WellNamed p.fields p.children
  key : KeyAmong p.mkey (p.fields.map column)
  depth : p.chain.length ≤ limit

theorem wellFormed_walk {limit room : Nat} {p : PlacedTable}
    (htidy : DeeplyTidy room p.fields p.children) (hnamed : p.IsNamed)
    (hkey : KeyAmong p.mkey (p.fields.map column)) (hdepth : p.chain.length + room ≤ limit) :
    ∀ q ∈ p.walk, WellFormed limit q := by
  -- each level down makes the chain longer by one and leaves one level less
  induction p using PlacedTable.induct generalizing room with
  | step p ih =>
    rw [PlacedTable.walk_eq, List.forall_mem_cons]
    have htop : Tidy p.fields → WellFormed limit p := fun here =>
      ⟨here, hnamed.here, hkey, by omega⟩
    generalize hfields : p.fields = fields at htidy htop
    generalize htables : p.children = tables at htidy
    cases htidy with
    | flat here =>
      refine ⟨htop here, fun q hq => ?_⟩
      rw [PlacedTable.childTables, htables] at hq
      cases hq
    | deep here keyed below =>
      refine ⟨htop here, fun q hq => ?_⟩
      obtain ⟨c, hc, hq⟩ := List.mem_flatMap.mp hq
      obtain ⟨t, ht, rfl⟩ := List.mem_map.mp hc
      rw [htables] at ht
      refine ih _ hc (below t ht) (hnamed.child hc) (keyed t ht) ?_ q hq
      simp only [PlacedTable.child, PlacedTable.below, List.length_append, List.length_singleton]
      omega

/-- **A resource that was read is well formed.** Whatever was read and resolved before, the wire path
is cut into non-empty segments, which make up the dotted path and the modules; the fields are the
items of the document in order, at every depth; and every table of the resource is well formed. -/
theorem readResource_wellFormed {steps : List NamingStep} {limit : Nat} {doc : Json} {r : Resource}
    {t : NameTable} (h : readResource limit doc (tableFrom .empty steps) = (.ok r, t)) :
    r.wirePath ≠ "" ∧ (∀ s ∈ Text.split '/' r.wirePath, s ≠ "")
      ∧ r.dottedPath
        = r.category.text ++ "." ++ String.intercalate "." (Text.split '/' r.wirePath)
      ∧ r.modules = (Text.split '/' r.wirePath).map (identifier .modules)
      ∧ (∃ members items, doc = .object members ∧ RootItems members items
        ∧ Mirrors items r.fields r.children)
      ∧ ∀ p ∈ r.tables, WellFormed limit p := by
  have ht := sound_tableFrom_empty steps
  obtain ⟨hplaced, hnamed⟩ := readResource_ok ht h
  have hsound := ((keeps_readResource limit doc).of_eq ht h).2
  obtain ⟨members, header, items, modules, t₁, hdoc, hheader, hcategory, hsegments, -, -, -, -,
    hitems, hreads, -, hkey⟩ := readResource_ok_iff.mp h
  obtain ⟨raw, -, hpath⟩ := hheader.path
  rw [← hsegments] at hpath
  have hcut : Text.split '/' r.wirePath = r.segments :=
    Text.split_intercalate (fun s hs => (hpath.segment s hs).2) hpath.nonempty
  rw [hcut]
  refine ⟨fun hempty => ?_, fun s hs => (hpath.segment s hs).1, rfl, hplaced.spelled hsound,
    ⟨members, items, hdoc, hitems, hreads.mirrors⟩, ?_⟩
  · obtain ⟨first, rest, -, -, hfirst, -⟩ := intercalate_ends hpath.nonempty hpath.segment
    rw [Resource.wirePath] at hempty
    rw [hempty] at hfirst
    cases hfirst
  · exact wellFormed_walk hreads.deeplyTidy hnamed hkey (by simp [PlacedTable.ofResource])

/-! ## A document with a keyed table in it -/

def stateItem : Record :=
  [("name", .string "state"), ("options", .strings ["up", "down"]), ("type", .string "option")]

def linksItem : Record :=
  [("children", .array [.object stateItem]), ("mkey", .string "state"), ("name", .string "links"),
    ("type", .string "table")]

def portItem : Record := [("name", .string "port"), ("required", .bool true), ("type", .string "uint")]

def portDocument : Record :=
  [("category", .string "cmdb"), ("fields", .array [.object portItem, .object linksItem]),
    ("methods", .strings ["put", "GET"]), ("mkey", .string "port"), ("path", .string "/net/port/")]

def portRead : Field := ⟨"port", "port", .integer, true, [], none, none, none⟩

def stateRead : Field := ⟨"state", "state", .enum, false, ["up", "down"], none, none, none⟩

def portResource : Resource :=
  ⟨.config, ["net", "port"], ["net", "port"], none, some "port",
    [portRead, .plain "links" "links" .nestedTable],
    [⟨"links", "links", none, some "state", [stateRead], []⟩], [.get, .put]⟩

theorem portDocument_read :
    ∃ t, readResource 1 (.object portDocument) (tableFrom .empty []) = (.ok portResource, t) := by
  have head_of_read : ∀ (l : Location) {item : Record} {head : FieldHead},
      readFieldHead l [] item = .ok head → HasHead item head :=
    fun l item head h => (readFieldHead_ok_iff.mp h).1
  have hstate : HasHead stateItem ⟨"state", .enum, false, ["up", "down"], none⟩ :=
    head_of_read ⟨[1, 0]⟩ rfl
  have hlinks : HasHead linksItem ⟨"links", .nestedTable, false, [], none⟩ :=
    head_of_read ⟨[1]⟩ rfl
  have hport : HasHead portItem ⟨"port", .integer, true, [], none⟩ :=
    head_of_read ⟨[0]⟩ rfl
  let net := NameTable.empty.add (Scope.modules "config") "net" "net"
  let modules := net.add (Scope.modules "config.net") "port" "port"
  let port := modules.add (Scope.fields "config.net.port") "port" "port"
  let links := port.add (Scope.fields "config.net.port") "links" "links"
  have hmodules : readModules "config" ["net", "port"] .empty = (.ok ["net", "port"], modules) := by
    have hnet : giveName (Scope.modules "config") "net" .empty = (.ok "net", net) :=
      giveName_free (by decide) (by simp) (by simp)
    have hrest : readModules "config.net" ["port"] net = (.ok ["port"], modules) := by
      refine readModules_single (by decide) ?_ ?_
      · simp [net, Scope.modules, NameTable.codeName?_add]
      · simp [net, Scope.modules, NameTable.wireName?_add]
    exact (ok_bind hnet).trans ((ok_bind hrest).trans rfl)
  have hportName : giveName (Scope.fields "config.net.port") "port" modules = (.ok "port", port) := by
    refine giveName_free (by decide) ?_ ?_
    · simp [modules, net, Scope.fields, Scope.modules, NameTable.codeName?_add]
    · simp [modules, net, Scope.fields, Scope.modules, NameTable.wireName?_add]
  have hlinksName : giveName (Scope.fields "config.net.port") "links" port
      = (.ok "links", links) := by
    refine giveName_free (by decide) ?_ ?_
    · simp [port, modules, net, Scope.fields, Scope.modules, NameTable.codeName?_add]
    · simp [port, modules, net, Scope.fields, Scope.modules, NameTable.wireName?_add]
  have hstateName : giveName (Scope.fields "config.net.port>links") "state" links
      = (.ok "state", links.add (Scope.fields "config.net.port>links") "state" "state") := by
    refine giveName_free (by decide) ?_ ?_
    · simp [links, port, modules, net, Scope.fields, Scope.modules, NameTable.codeName?_add]
    · simp [links, port, modules, net, Scope.fields, Scope.modules, NameTable.wireName?_add]
  have hinner : Reads 0 "config.net.port>links" [.object stateItem] links [stateRead] []
      (links.add (Scope.fields "config.net.port>links") "state" "state") :=
    .plain hstate (by decide) (.inl rfl) (.omitted (.inl rfl)) (.omitted (.inl rfl)) hstateName
      (by simp) (.nil ..)
  have hkeyed : KeyAmong (some "state") ([stateRead].map column) := by
    rintro _ ⟨⟩
    exact ⟨.enum, by simp [column, stateRead], by simp⟩
  have hreads := Reads.plain hport (by decide) (.inl rfl) (.omitted (.inl rfl)) (.omitted (.inl rfl))
    hportName (by simp [FieldHead.field])
    (Reads.nested hlinks rfl rfl (.omitted (.inl rfl)) (.omitted (.inl rfl)) (.text "state" rfl)
      hkeyed hlinksName (by simp) hinner (.nil ..))
  have hheader : HasHeader portDocument ⟨.config, ["net", "port"], [.get, .put]⟩ :=
    readHeader_ok_iff.mp rfl
  refine ⟨_, readResource_ok_iff.mpr ⟨portDocument, _, _, _, modules, rfl, hheader, rfl, rfl, rfl,
    hmodules, rfl, .omitted (.inl rfl), .listed _ rfl, hreads, .text "port" rfl, ?_⟩⟩
  rintro _ ⟨⟩
  exact ⟨.integer, by simp [portResource, column, portRead], by simp⟩

theorem readResource_wellFormed_port :
    ∃ t, readResource 1 (.object portDocument) (tableFrom .empty []) = (.ok portResource, t)
      ∧ portResource.wirePath ≠ "" ∧ (∀ s ∈ Text.split '/' portResource.wirePath, s ≠ "")
      ∧ portResource.dottedPath
        = "config" ++ "." ++ String.intercalate "." (Text.split '/' portResource.wirePath)
      ∧ portResource.modules = (Text.split '/' portResource.wirePath).map (identifier .modules)
      ∧ (∃ members items, Json.object portDocument = .object members ∧ RootItems members items
        ∧ Mirrors items portResource.fields portResource.children)
      ∧ ∀ p ∈ portResource.tables, WellFormed 1 p := by
  obtain ⟨t, hread⟩ := portDocument_read
  exact ⟨t, hread, readResource_wellFormed hread⟩

end RestForge.Schema
