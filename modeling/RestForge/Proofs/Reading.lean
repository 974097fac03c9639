import Mathlib.Data.List.Nodup
import RestForge.Proofs.SoundTable
import RestForge.Schema.Reader

/-!
# What reading a document leaves

* `keeps_readResource`: reading only adds names to a sound table.
* `WellNamed`: in one table, wire names and code names are distinct, and the tables below go with the
  nested fields. `DeeplyNamed`: so it is at every depth.
* `Placed`: the modules of a path are the names recorded for its segments.
* `readResource_ok`: a resource that was read is deeply named and placed.
* `NamingStep`, `resourcesRead`: runs of readings and resolutions on one table, and what they read.
* `PlacedTable.IsNamed`: a table with names as reading leaves them, and so below it.
-/

set_option autoImplicit false

namespace RestForge.Schema

open Naming

/-! ## Names are only added -/

theorem keeps_giveName (scope : Scope) (wire : String) : Keeps (giveName scope wire) := by
  intro t ht
  have hsnd : (giveName scope wire t).2 = (t.normalize scope wire).2 := by
    unfold giveName
    rcases t.normalize scope wire with ⟨_ | _, t'⟩ <;> rfl
  rw [hsnd]
  exact ⟨t.extends_record _ _ _, ht.record fun _ => rfl⟩

theorem keeps_readModules (parent : String) (segments : List String) :
    Keeps (readModules parent segments) := by
  induction segments generalizing parent with
  | nil => exact keeps_pure []
  | cons segment segments ih =>
    rw [readModules]
    exact keeps_bind (keeps_giveName _ _) fun code => keeps_bind (ih _) fun codes => keeps_pure _

section Descent

variable {descend : Descent} (hd : ∀ key l items, Keeps (descend key l items))

include hd

theorem keeps_readNested (key : String) (l : Location) (head : FieldHead) (code : String)
    (item : Record) : Keeps (readNested descend key l head code item) := by
  unfold readNested
  split
  · refine keeps_bind (hd _ _ _) fun ⟨fields, children⟩ => keeps_bind (keeps_lift _) fun mkey => ?_
    dsimp only
    split
    · split
      · refine keeps_bind (keeps_throw _) fun _ => ?_
        exact keeps_bind (keeps_lift _) fun help => keeps_pure _
      · exact keeps_bind (keeps_lift _) fun help => keeps_pure _
    · exact keeps_bind (keeps_lift _) fun help => keeps_pure _
  · exact keeps_throw _

theorem keeps_readField (key : String) (l : Location) (seen : List String) (item : Json) :
    Keeps (readField descend key l seen item) := by
  unfold readField
  split
  · refine keeps_bind (keeps_lift _) fun head => keeps_bind (keeps_giveName _ _) fun code => ?_
    dsimp only
    split
    · refine keeps_bind (keeps_map _ (keeps_readNested hd _ _ _ _ _)) fun table => ?_
      exact keeps_bind (keeps_lift _) fun _ => keeps_bind (keeps_lift _) fun _ => keeps_pure _
    · split
      · refine keeps_bind (keeps_throw _) fun table => ?_
        exact keeps_bind (keeps_lift _) fun _ => keeps_bind (keeps_lift _) fun _ => keeps_pure _
      · refine keeps_bind (keeps_pure _) fun table => ?_
        exact keeps_bind (keeps_lift _) fun _ => keeps_bind (keeps_lift _) fun _ => keeps_pure _
  · exact keeps_throw _

theorem keeps_readFields (key : String) (l : Location) (i : Nat) (seen : List String)
    (items : List Json) : Keeps (readFields descend key l i seen items) := by
  induction items generalizing i seen with
  | nil => exact keeps_pure _
  | cons item items ih =>
    rw [readFields]
    refine keeps_bind (keeps_readField hd _ _ _ _) fun read => ?_
    exact keeps_bind (ih _ _) fun rest => keeps_pure _

end Descent

theorem keeps_readTable (limit room : Nat) (key : String) (l : Location) (items : List Json) :
    Keeps (readTable limit room key l items) := by
  induction room generalizing key l items with
  | zero => exact keeps_readFields (fun _ _ _ => keeps_throw _) _ _ _ _ _
  | succ room ih => exact keeps_readFields ih _ _ _ _ _

theorem keeps_readResource (limit : Nat) (doc : Json) : Keeps (readResource limit doc) := by
  unfold readResource
  refine keeps_bind (keeps_lift _) fun members => keeps_bind (keeps_lift _) fun header => ?_
  refine keeps_bind (keeps_readModules _ _) fun modules => keeps_bind (keeps_lift _) fun help => ?_
  refine keeps_bind (keeps_lift _) fun items => keeps_bind (keeps_readTable _ _ _ _ _) fun _ => ?_
  refine keeps_bind (keeps_lift _) fun mkey => keeps_bind (keeps_lift _) fun _ => keeps_pure _

/-! ## Names that were given -/

theorem giveName_ok {scope : Scope} {wire code : String} {t t' : NameTable}
    (h : giveName scope wire t = (.ok code, t')) : t'.codeName? scope wire = some code := by
  unfold giveName at h
  have hgiven : ∀ code, (t.normalize scope wire).1 = .ok code →
      (t.normalize scope wire).2.codeName? scope wire = some code :=
    fun code => t.codeName?_of_record
  rcases hn : t.normalize scope wire with ⟨c | given, t₁⟩
  · rw [hn] at h
    cases h
  · rw [hn] at h hgiven
    cases h
    exact hgiven code rfl

theorem giveName_free {scope : Scope} {wire code : String} {t : NameTable}
    (hcode : identifier scope.kind wire = code) (hwire : t.codeName? scope wire = none)
    (hfree : t.wireName? scope code = none) :
    giveName scope wire t = (.ok code, t.add scope wire code) := by
  rw [giveName, NameTable.normalize, hcode, NameTable.record_free hwire hfree]

theorem giveName_known {scope : Scope} {wire code : String} {t : NameTable}
    (h : t.codeName? scope wire = some code) : giveName scope wire t = (.ok code, t) := by
  rw [giveName, NameTable.normalize, NameTable.record_known _ h]

theorem giveName_owned {scope : Scope} {wire code owner : String} {t : NameTable}
    (hcode : identifier scope.kind wire = code) (hwire : t.codeName? scope wire = none)
    (howner : t.wireName? scope code = some owner) :
    giveName scope wire t = (.error (.collides ⟨scope, code, owner, wire⟩), t) := by
  rw [giveName, NameTable.normalize, hcode, NameTable.record_owned hwire howner]

/-- Each module is the name recorded for its segment below the dotted path that leads to it. -/
def Placed (t : NameTable) : String → List String → List String → Prop
  | _, [], [] => True
  | parent, segment :: segments, module :: modules =>
    t.codeName? (Scope.modules parent) segment = some module
      ∧ Placed t (parent ++ "." ++ segment) segments modules
  | _, _, _ => False

theorem Placed.extend {t t' : NameTable} (he : t.Extends t') {parent : String}
    {segments modules : List String} (h : Placed t parent segments modules) :
    Placed t' parent segments modules := by
  induction segments generalizing parent modules with
  | nil =>
    cases modules with
    | nil => trivial
    | cons => exact h.elim
  | cons segment segments ih =>
    cases modules with
    | nil => exact h.elim
    | cons module modules => exact ⟨he _ _ _ h.1, ih h.2⟩

/-- In one table of names, different paths lead to different modules: below the part that they share
both look into the same scope, where two segments hold two names. -/
theorem Placed.segments_unique {t : NameTable} (ht : t.TwoWay) {parent : String}
    {segments segments' modules : List String} (h : Placed t parent segments modules)
    (h' : Placed t parent segments' modules) : segments = segments' := by
  induction segments generalizing parent segments' modules with
  | nil =>
    cases modules with
    | nil =>
      cases segments' with
      | nil => rfl
      | cons => exact h'.elim
    | cons => exact h.elim
  | cons segment segments ih =>
    cases modules with
    | nil => exact h.elim
    | cons module modules =>
      cases segments' with
      | nil => exact h'.elim
      | cons segment' segments' =>
        obtain rfl := ht.wire_unique h.1 h'.1
        rw [ih h.2 h'.2]

theorem Placed.spelled {t : NameTable} (ht : t.Sound) {parent : String}
    {segments modules : List String} (h : Placed t parent segments modules) :
    modules = segments.map (identifier .modules) := by
  induction segments generalizing parent modules with
  | nil =>
    cases modules with
    | nil => rfl
    | cons => exact h.elim
  | cons segment segments ih =>
    cases modules with
    | nil => exact h.elim
    | cons module modules =>
      rw [List.map_cons, ← ih h.2, ht.spelled _ _ _ (by simp [Scope.modules]) h.1]
      rfl

theorem readModules_ok {parent : String} {segments modules : List String} {t t' : NameTable}
    (ht : t.Sound) (h : readModules parent segments t = (.ok modules, t')) :
    Placed t' parent segments modules := by
  induction segments generalizing parent modules t with
  | nil =>
    obtain ⟨rfl, -⟩ := pure_ok h
    trivial
  | cons segment segments ih =>
    rw [readModules] at h
    obtain ⟨code, t₁, hcode, h⟩ := bind_ok h
    obtain ⟨codes, t₂, hcodes, h⟩ := bind_ok h
    obtain ⟨rfl, rfl⟩ := pure_ok h
    obtain ⟨-, ht₁⟩ := (keeps_giveName _ _).of_eq ht hcode
    obtain ⟨hext, -⟩ := (keeps_readModules _ _).of_eq ht₁ hcodes
    exact ⟨hext _ _ _ (giveName_ok hcode), ih ht₁ hcodes⟩

theorem readModules_single {parent segment code : String} {t : NameTable}
    (hcode : identifier .modules segment = code)
    (hwire : t.codeName? (Scope.modules parent) segment = none)
    (hfree : t.wireName? (Scope.modules parent) code = none) :
    readModules parent [segment] t = (.ok [code], t.add (Scope.modules parent) segment code) := by
  have hname : giveName (Scope.modules parent) segment t
      = (.ok code, t.add (Scope.modules parent) segment code) := giveName_free hcode hwire hfree
  rw [readModules, ok_bind hname]
  rfl

/-! ## Fields and tables that were read -/

structure WellNamed (fields : List Field) (children : List Table) : Prop where
  spelled : ∀ f ∈ fields, f.codeName = identifier .fields f.wireName
  wires : (fields.map Field.wireName).Nodup
  codes : (fields.map Field.codeName).Nodup
  paired : children.map (fun t => (t.wireName, t.codeName))
    = (fields.filter Field.isTable).map fun f => (f.wireName, f.codeName)

namespace WellNamed

variable {fields : List Field} {children : List Table}

theorem children_codes (h : WellNamed fields children) : (children.map Table.codeName).Nodup := by
  have hcodes : children.map Table.codeName = (fields.filter Field.isTable).map Field.codeName := by
    have hpaired := congrArg (List.map Prod.snd) h.paired
    rwa [List.map_map, List.map_map] at hpaired
  rw [hcodes]
  exact h.codes.sublist (List.filter_sublist.map _)

theorem field_unique (h : WellNamed fields children) {f g : Field} (hf : f ∈ fields)
    (hg : g ∈ fields) (he : f.codeName = g.codeName) : f = g :=
  List.inj_on_of_nodup_map h.codes hf hg he

/-- Every table below belongs to a nested field of its names. -/
theorem field_of_child (h : WellNamed fields children) {t : Table} (ht : t ∈ children) :
    ∃ f ∈ fields, f.wireName = t.wireName ∧ f.codeName = t.codeName := by
  have hmem : (t.wireName, t.codeName) ∈ children.map fun t => (t.wireName, t.codeName) :=
    List.mem_map.mpr ⟨t, ht, rfl⟩
  rw [h.paired] at hmem
  obtain ⟨f, hf, he⟩ := List.mem_map.mp hmem
  obtain ⟨hwire, hcode⟩ := Prod.mk.inj he
  exact ⟨f, List.mem_of_mem_filter hf, hwire, hcode⟩

end WellNamed

/-- The names in a table and in all tables below it. -/
inductive DeeplyNamed : List Field → List Table → Prop where
  | mk (fields : List Field) (children : List Table) (here : WellNamed fields children)
      (below : ∀ t ∈ children, DeeplyNamed t.fields t.children) : DeeplyNamed fields children

/-- What a field brings along: a nested field a table of its names, and any other field nothing. -/
inductive Brings (f : Field) : Option Table → Prop where
  | nothing (h : f.isTable = false) : Brings f none
  | table (t : Table) (h : f.isTable = true) (wire : t.wireName = f.wireName)
      (code : t.codeName = f.codeName) (below : DeeplyNamed t.fields t.children) : Brings f (some t)

theorem except_bind_ok {ε α β : Type} {e : Except ε α} {f : α → Except ε β} {y : β}
    (h : (e >>= f) = .ok y) : ∃ x, e = .ok x ∧ f x = .ok y := by
  cases e with
  | error e => cases h
  | ok x => exact ⟨x, rfl, h⟩

theorem readName_ok {l : Location} {seen : List String} {item : Record} {name : String}
    (h : readName l seen item = .ok name) : name ∉ seen := by
  unfold readName at h
  split at h
  · split at h
    · cases h
    · split at h
      · cases h
      · rename_i hseen
        cases h
        simpa using hseen
  · cases h

theorem readFieldHead_ok {l : Location} {seen : List String} {item : Record} {head : FieldHead}
    (h : readFieldHead l seen item = .ok head) : head.name ∉ seen := by
  unfold readFieldHead at h
  obtain ⟨name, hname, h⟩ := except_bind_ok h
  obtain ⟨type, -, h⟩ := except_bind_ok h
  obtain ⟨required, -, h⟩ := except_bind_ok h
  obtain ⟨values, -, h⟩ := except_bind_ok h
  cases h
  exact readName_ok hname

section Descent

variable {descend : Descent} (hd : ∀ key l items, Keeps (descend key l items))
  (hok : ∀ key l items t c t', t.Sound → descend key l items t = (.ok c, t') →
    DeeplyNamed c.1 c.2)

include hok

theorem readNested_ok {key : String} {l : Location} {head : FieldHead} {code : String}
    {item : Record} {t t' : NameTable} {table : Table} (ht : t.Sound)
    (h : readNested descend key l head code item t = (.ok table, t')) :
    table.wireName = head.name ∧ table.codeName = code
      ∧ DeeplyNamed table.fields table.children := by
  unfold readNested at h
  rcases hc : item.get? "children" with _ | (_ | _ | _ | _ | items | _) <;> simp only [hc] at h
  case some.array =>
    obtain ⟨⟨fields, children⟩, t₁, hbelow, hmkey⟩ := bind_ok h
    obtain ⟨mkey, -, hcheck⟩ := lift_bind_ok hmkey
    have hnamed := hok _ _ _ _ _ _ ht hbelow
    have hend : ((do
        let help ← optionalString item "help" (.fieldMember l "help")
        return ⟨head.name, code, help, mkey, fields, children⟩ : Reading Table) t₁)
          = (.ok table, t') →
        table.wireName = head.name ∧ table.codeName = code
          ∧ DeeplyNamed table.fields table.children := by
      intro hhelp
      obtain ⟨help, -, hpure⟩ := lift_bind_ok hhelp
      obtain ⟨rfl, -⟩ := pure_ok hpure
      exact ⟨rfl, rfl, hnamed⟩
    cases mkey with
    | none => exact hend hcheck
    | some mkey =>
      by_cases hfound : (!fields.any fun f => f.wireName == mkey && !f.isTable) = true
      · simp only [hfound, if_true] at hcheck
        exact absurd hcheck throw_bind_not_ok
      · simp only [hfound] at hcheck
        exact hend hcheck
  all_goals exact absurd h throw_not_ok

include hd

theorem readField_ok {key : String} {l : Location} {seen : List String} {item : Json}
    {t t' : NameTable} {f : Field} {table? : Option Table} (ht : t.Sound)
    (h : readField descend key l seen item t = (.ok (f, table?), t')) :
    f.wireName ∉ seen ∧ t'.codeName? (Scope.fields key) f.wireName = some f.codeName
      ∧ Brings f table? := by
  unfold readField at h
  split at h
  · rename_i members
    obtain ⟨head, hhead, hname⟩ := lift_bind_ok h
    obtain ⟨code, t₁, hcode, htable⟩ := bind_ok hname
    obtain ⟨-, ht₁⟩ := (keeps_giveName _ _).of_eq ht hcode
    have hgiven := giveName_ok hcode
    have hseen := readFieldHead_ok hhead
    dsimp only at htable
    by_cases hnested : head.type = .nestedTable
    · rw [if_pos hnested] at htable
      obtain ⟨table, t₂, hmap, hrest⟩ := bind_ok htable
      obtain ⟨nested, hnest, rfl⟩ := map_ok hmap
      obtain ⟨help, -, hreference⟩ := lift_bind_ok hrest
      obtain ⟨reference, -, hpure⟩ := lift_bind_ok hreference
      obtain ⟨he, rfl⟩ := pure_ok hpure
      cases he
      obtain ⟨hwire, hcode', hbelow⟩ := readNested_ok hok ht₁ hnest
      obtain ⟨hext, -⟩ := (keeps_readNested hd _ _ _ _ _).of_eq ht₁ hnest
      exact ⟨hseen, hext _ _ _ hgiven,
        .table nested (by simp [Field.isTable, hnested]) hwire hcode' hbelow⟩
    · rw [if_neg hnested] at htable
      by_cases hchildren : (present? members "children").isSome = true
      · rw [if_pos hchildren] at htable
        exact absurd htable throw_bind_not_ok
      · rw [if_neg hchildren, pure_bind] at htable
        obtain ⟨help, -, hreference⟩ := lift_bind_ok htable
        obtain ⟨reference, -, hpure⟩ := lift_bind_ok hreference
        obtain ⟨he, rfl⟩ := pure_ok hpure
        cases he
        exact ⟨hseen, hgiven, .nothing (by simp [Field.isTable, hnested])⟩
  · exact absurd h throw_not_ok

/-- What the fields of one table and its tables below have in common once all are read; `seen` holds
the wire names read before them. -/
structure Gathered (t : NameTable) (key : String) (seen : List String) (fields : List Field)
    (tables : List Table) : Prop where
  unseen : ∀ f ∈ fields, f.wireName ∉ seen
  given : ∀ f ∈ fields, t.codeName? (Scope.fields key) f.wireName = some f.codeName
  wires : (fields.map Field.wireName).Nodup
  paired : tables.map (fun t => (t.wireName, t.codeName))
    = (fields.filter Field.isTable).map fun f => (f.wireName, f.codeName)
  below : ∀ t ∈ tables, DeeplyNamed t.fields t.children

omit hd hok in
theorem Gathered.cons {t : NameTable} {key : String} {seen : List String} {f : Field}
    {table? : Option Table} {fields : List Field} {tables : List Table}
    (hseen : f.wireName ∉ seen) (hgiven : t.codeName? (Scope.fields key) f.wireName = some f.codeName)
    (hbrings : Brings f table?) (hrest : Gathered t key (f.wireName :: seen) fields tables) :
    Gathered t key seen (f :: fields) (table?.toList ++ tables) := by
  refine ⟨fun g hg => ?_, fun g hg => ?_, ?_, ?_, fun u hu => ?_⟩
  · obtain rfl | hg := List.mem_cons.mp hg
    · exact hseen
    · exact fun hmem => hrest.unseen g hg (List.mem_cons_of_mem _ hmem)
  · obtain rfl | hg := List.mem_cons.mp hg
    · exact hgiven
    · exact hrest.given g hg
  · rw [List.map_cons, List.nodup_cons]
    refine ⟨fun hmem => ?_, hrest.wires⟩
    obtain ⟨g, hg, he⟩ := List.mem_map.mp hmem
    exact hrest.unseen g hg (by simp [he])
  · rw [List.map_append, hrest.paired]
    cases hbrings with
    | nothing h => simp [h]
    | table u h wire code below => simp [h, wire, code]
  · obtain hu | hu := List.mem_append.mp hu
    · cases hbrings with
      | nothing h => cases hu
      | table u' h wire code below =>
        obtain rfl := List.mem_singleton.mp hu
        exact below
    · exact hrest.below u hu

theorem readFields_ok {key : String} {l : Location} {i : Nat} {seen : List String}
    {items : List Json} {t t' : NameTable} {c : Contents} (ht : t.Sound)
    (h : readFields descend key l i seen items t = (.ok c, t')) :
    Gathered t' key seen c.1 c.2 := by
  induction items generalizing i seen t c with
  | nil =>
    obtain ⟨rfl, -⟩ := pure_ok h
    exact ⟨by simp, by simp, by simp, by simp, by simp⟩
  | cons item items ih =>
    rw [readFields] at h
    obtain ⟨⟨f, table?⟩, t₁, hfield, hrest⟩ := bind_ok h
    obtain ⟨⟨fields, tables⟩, t₂, hfields, hpure⟩ := bind_ok hrest
    obtain ⟨rfl, rfl⟩ := pure_ok hpure
    obtain ⟨-, ht₁⟩ := (keeps_readField hd _ _ _ _).of_eq ht hfield
    obtain ⟨hext, -⟩ := (keeps_readFields hd _ _ _ _ _).of_eq ht₁ hfields
    obtain ⟨hseen, hgiven, hbrings⟩ := readField_ok hd hok ht hfield
    exact (ih ht₁ hfields).cons hseen (hext _ _ _ hgiven) hbrings

end Descent

/-- Fields whose names are held by one scope of a sound table have code names as distinct as their
wire names. -/
theorem Gathered.deeplyNamed {t : NameTable} {key : String} {seen : List String}
    {fields : List Field} {tables : List Table} (ht : t.Sound)
    (h : Gathered t key seen fields tables) : DeeplyNamed fields tables := by
  have hspelled : ∀ f ∈ fields, f.codeName = identifier .fields f.wireName := by
    intro f hf
    exact ht.spelled (Scope.fields key) _ _ (by simp [Scope.fields]) (h.given f hf)
  have hcodes : (fields.map Field.codeName).Nodup := by
    have hwires := List.pairwise_map.mp h.wires
    refine List.pairwise_map.mpr (hwires.imp_of_mem fun {f g} hf hg hne he => hne ?_)
    have hgiven := h.given f hf
    rw [he] at hgiven
    exact ht.twoWay.wire_unique hgiven (h.given g hg)
  exact .mk fields tables ⟨hspelled, h.wires, hcodes, h.paired⟩ h.below

theorem readTable_ok {limit room : Nat} {key : String} {l : Location} {items : List Json}
    {t t' : NameTable} {c : Contents} (ht : t.Sound)
    (h : readTable limit room key l items t = (.ok c, t')) : DeeplyNamed c.1 c.2 := by
  obtain ⟨-, ht'⟩ := (keeps_readTable limit room key l items).of_eq ht h
  -- on the levels of nesting that are left; a table without any holds no nested field
  induction room generalizing key l items t c t' with
  | zero =>
    rw [readTable] at h
    have hgathered := readFields_ok (fun _ _ _ => keeps_throw _)
      (fun _ _ _ _ _ _ _ hthrow => absurd hthrow throw_not_ok) ht h
    exact hgathered.deeplyNamed ht'
  | succ room ih =>
    rw [readTable] at h
    have hgathered := readFields_ok (keeps_readTable limit room)
      (fun _ _ _ _ _ _ ht hbelow =>
        ih ht hbelow ((keeps_readTable _ _ _ _ _).of_eq ht hbelow).2) ht h
    exact hgathered.deeplyNamed ht'

/-- The modules of a resource that was read are held by the table it leaves, and its tables are well
named at every depth. -/
theorem readResource_ok {limit : Nat} {doc : Json} {r : Resource} {t t' : NameTable} (ht : t.Sound)
    (h : readResource limit doc t = (.ok r, t')) :
    Placed t' r.category.text r.segments r.modules ∧ DeeplyNamed r.fields r.children := by
  unfold readResource at h
  obtain ⟨members, -, hheader⟩ := lift_bind_ok h
  obtain ⟨header, -, hread⟩ := lift_bind_ok hheader
  obtain ⟨modules, t₁, hmodules, hhelp⟩ := bind_ok hread
  obtain ⟨help, -, hitems⟩ := lift_bind_ok hhelp
  obtain ⟨items, -, hread⟩ := lift_bind_ok hitems
  obtain ⟨⟨fields, children⟩, t₂, htable, hmkey⟩ := bind_ok hread
  obtain ⟨mkey, -, hcheck⟩ := lift_bind_ok hmkey
  obtain ⟨u, -, hpure⟩ := lift_bind_ok hcheck
  obtain ⟨rfl, rfl⟩ := pure_ok hpure
  obtain ⟨-, ht₁⟩ := (keeps_readModules _ _).of_eq ht hmodules
  obtain ⟨hext, -⟩ := (keeps_readTable _ _ _ _ _).of_eq ht₁ htable
  exact ⟨(readModules_ok ht hmodules).extend hext, readTable_ok ht₁ htable⟩

/-! ## Runs -/

/-- What a run does with its one table of names: it reads documents, and it resolves the type names
of resources. -/
inductive NamingStep where
  | read (limit : Nat) (doc : Json)
  | resolve (r : Resource)

namespace NamingStep

def perform : NamingStep → NameTable → NameTable
  | read limit doc, t => (readResource limit doc t).2
  | resolve r, t => (Naming.resolve r t).2

def resource? : NamingStep → NameTable → Option Resource
  | read limit doc, t => (readResource limit doc t).1.toOption
  | resolve _, _ => none

theorem perform_keeps (step : NamingStep) {t : NameTable} (ht : t.Sound) :
    t.Extends (step.perform t) ∧ (step.perform t).Sound := by
  cases step with
  | read limit doc => exact keeps_readResource limit doc t ht
  | resolve r => exact keeps_resolve r t ht

theorem resource?_ok {step : NamingStep} {t : NameTable} {r : Resource} (ht : t.Sound)
    (h : step.resource? t = some r) :
    Placed (step.perform t) r.category.text r.segments r.modules
      ∧ DeeplyNamed r.fields r.children := by
  cases step with
  | read limit doc =>
    rcases hread : readResource limit doc t with ⟨e | r', t'⟩
    · rw [resource?, hread] at h
      cases h
    · rw [resource?, hread] at h
      cases h
      rw [perform, hread]
      exact readResource_ok ht hread
  | resolve r' => cases h

end NamingStep

def tableFrom (t : NameTable) (steps : List NamingStep) : NameTable :=
  steps.foldl (fun t step => step.perform t) t

def resourcesFrom : NameTable → List NamingStep → List Resource
  | _, [] => []
  | t, step :: steps => (step.resource? t).toList ++ resourcesFrom (step.perform t) steps

/-- The resources that a run reads, with a table that is empty at first. -/
def resourcesRead (steps : List NamingStep) : List Resource := resourcesFrom .empty steps

theorem tableFrom_keeps (steps : List NamingStep) {t : NameTable} (ht : t.Sound) :
    t.Extends (tableFrom t steps) ∧ (tableFrom t steps).Sound := by
  induction steps generalizing t with
  | nil => exact ⟨.refl t, ht⟩
  | cons step steps ih =>
    obtain ⟨hext, ht'⟩ := step.perform_keeps ht
    obtain ⟨hext', hsound⟩ := ih ht'
    exact ⟨hext.trans hext', hsound⟩

/-- Whatever was read at any time is placed by the last table. -/
theorem placed_of_mem_resourcesFrom {steps : List NamingStep} {t : NameTable} (ht : t.Sound)
    {r : Resource} (h : r ∈ resourcesFrom t steps) :
    Placed (tableFrom t steps) r.category.text r.segments r.modules
      ∧ DeeplyNamed r.fields r.children := by
  induction steps generalizing t with
  | nil => cases h
  | cons step steps ih =>
    obtain ⟨-, ht'⟩ := step.perform_keeps ht
    obtain hread | hlater := List.mem_append.mp h
    · obtain ⟨hplaced, hnamed⟩ := step.resource?_ok ht (Option.mem_toList.mp hread)
      obtain ⟨hext, -⟩ := tableFrom_keeps steps ht'
      exact ⟨hplaced.extend hext, hnamed⟩
    · exact ih ht' hlater

theorem placed_of_mem_resourcesRead {steps : List NamingStep} {r : Resource}
    (h : r ∈ resourcesRead steps) :
    Placed (tableFrom .empty steps) r.category.text r.segments r.modules :=
  (placed_of_mem_resourcesFrom NameTable.sound_empty h).1

/-- A document that can be read at its turn gives a resource of the run. -/
theorem mem_resourcesFrom_of_read {before after : List NamingStep} {t t' : NameTable} {limit : Nat}
    {doc : Json} {r : Resource} (h : readResource limit doc (tableFrom t before) = (.ok r, t')) :
    r ∈ resourcesFrom t (before ++ .read limit doc :: after) := by
  induction before generalizing t with
  | nil =>
    have hread : (NamingStep.read limit doc).resource? t = some r := by
      rw [NamingStep.resource?]
      exact congrArg (fun c => c.1.toOption) h
    rw [List.nil_append, resourcesFrom, hread]
    exact List.mem_cons_self
  | cons step before ih => exact List.mem_append_right _ (ih h)

theorem mem_resourcesRead_of_read {limit : Nat} {doc : Json} {r : Resource} {t : NameTable}
    (h : readResource limit doc .empty = (.ok r, t)) : r ∈ resourcesRead [.read limit doc] := by
  have hfirst : readResource limit doc (tableFrom .empty []) = (.ok r, t) := h
  exact mem_resourcesFrom_of_read hfirst

theorem mem_resourcesFrom_append {steps : List NamingStep} {t : NameTable} {r : Resource}
    (h : r ∈ resourcesFrom t steps) (later : List NamingStep) :
    r ∈ resourcesFrom t (steps ++ later) := by
  induction steps generalizing t with
  | nil => cases h
  | cons step steps ih =>
    rw [List.cons_append, resourcesFrom]
    obtain hread | hlater := List.mem_append.mp h
    · exact List.mem_append_left _ hread
    · exact List.mem_append_right _ (ih hlater)

theorem sound_tableFrom_empty (steps : List NamingStep) : (tableFrom .empty steps).Sound :=
  (tableFrom_keeps steps NameTable.sound_empty).2

end RestForge.Schema

/-! ## Tables in their place -/

namespace RestForge.PlacedTable

open Naming Schema

theorem induct {motive : PlacedTable → Prop}
    (step : ∀ p, (∀ c ∈ p.childTables, motive c) → motive p) (p : PlacedTable) : motive p := by
  refine step p fun c hc => ?_
  obtain ⟨t, ht, rfl⟩ := List.mem_map.mp hc
  exact induct step (p.child t)
termination_by sizeOf p.children
decreasing_by
  have hlt := List.sizeOf_lt_of_mem ht
  have hbelow : sizeOf t.children < sizeOf t := by
    cases t
    simp only [Table.mk.sizeOf_spec]
    omega
  show sizeOf t.children < sizeOf p.children
  omega

/-- The table is well named, and so is every table below it. -/
def IsNamed (p : PlacedTable) : Prop := DeeplyNamed p.fields p.children

theorem IsNamed.here {p : PlacedTable} (h : p.IsNamed) : WellNamed p.fields p.children := by
  cases h with
  | mk _ _ here _ => exact here

theorem codeName_child (p : PlacedTable) (t : Table) : (p.child t).codeName = t.codeName :=
  List.getLastD_concat

theorem chain_of_mem_childTables {p c : PlacedTable} (hc : c ∈ p.childTables) :
    c.chain = p.chain ++ [c.codeName] := by
  obtain ⟨t, -, rfl⟩ := List.mem_map.mp hc
  rw [codeName_child]
  rfl

theorem IsNamed.child_codes {p : PlacedTable} (h : p.IsNamed) :
    (p.childTables.map PlacedTable.codeName).Nodup := by
  have hcodes : p.childTables.map PlacedTable.codeName = p.children.map Table.codeName := by
    rw [childTables, List.map_map]
    exact List.map_congr_left fun t _ => codeName_child p t
  rw [hcodes]
  exact h.here.children_codes

theorem IsNamed.child {p c : PlacedTable} (h : p.IsNamed) (hc : c ∈ p.childTables) :
    c.IsNamed := by
  obtain ⟨t, ht, rfl⟩ := List.mem_map.mp hc
  cases h with
  | mk _ _ _ below => exact below t ht

theorem isNamed_ofResource {steps : List NamingStep} {r : Resource}
    (h : r ∈ resourcesRead steps) : (ofResource r).IsNamed :=
  (placed_of_mem_resourcesFrom NameTable.sound_empty h).2

end RestForge.PlacedTable
