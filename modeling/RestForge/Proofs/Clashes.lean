import RestForge.Proofs.DottedPaths
import RestForge.Proofs.FileOrder
import RestForge.Proofs.NameRoundTrip
import RestForge.Proofs.TableKeys

/-!
# Where collisions come from

A collision is reported where two names ask for one code name in one scope. A scope is known by a
text, in which the names on the way to it are glued together, so that names which hold the glue can
bring different tables, or different modules, into one scope.

* `Reached`: the arrays of a document that reading comes to, with the keys of their tables.
* `AskedBy`: the names that a document asks for, with their scopes.
* `Asking`: reading that asks for no other names; `asking_readResource`: a document is read so.
* `asked_of_held`: a name that is held was asked for by a document that was read.
* `ArrayClash`, `PathClash`: two names of one array, and two segments below one module, that ask for
  one code name.
* `collisions_explained`: what every collision tells, and when it is one of these.
-/

set_option autoImplicit false

namespace RestForge.Schema

open Naming Text

/-! ## Arrays that reading comes to -/

/-- The first item with this name has these children. -/
def FirstTable (items : List Json) (name : String) (children : List Json) : Prop :=
  ∃ (before : List Json) (item : Record) (after : List Json),
    items = before ++ .object item :: after ∧ ¬HasName before name
    ∧ item.get? "name" = some (.string name) ∧ item.get? "children" = some (.array children)

/-- The array of a table with the key `k`, seen from the table with the given key and items; a second
item with the name of a table is refused before its children are read. -/
inductive Reached : String → List Json → String → List Json → Prop where
  | here (key : String) (items : List Json) : Reached key items key items
  | inside {key k : String} {items children array : List Json} {name : String}
    (htable : FirstTable items name children) (h : Reached (key ++ ">" ++ name) children k array) :
    Reached key items k array

variable {key k : String} {items children array array' : List Json} {name : String}

theorem FirstTable.hasTable (h : FirstTable items name children) : HasTable items name children := by
  obtain ⟨before, item, after, rfl, -, hname, hchildren⟩ := h
  exact ⟨item, List.mem_append_right _ List.mem_cons_self, hname, hchildren⟩

theorem Reached.tableAt (h : Reached key items k array) : TableAt key items k array := by
  induction h with
  | here key items => exact .here key items
  | inside htable _ ih => exact .inside htable.hasTable ih

theorem FirstTable.unique {children' : List Json} (h : FirstTable items name children)
    (h' : FirstTable items name children') : children = children' := by
  obtain ⟨before, item, after, rfl, hbefore, hname, hchildren⟩ := h
  obtain ⟨before', item', after', he, hbefore', hname', hchildren'⟩ := h'
  -- neither item stands before the other one
  have hsame : Json.object item = Json.object item' := by
    obtain ⟨between, hfront, hrest⟩ | ⟨between, hfront, hrest⟩ := List.append_eq_append_iff.mp he
    · cases between with
      | nil => exact (List.cons.inj hrest).1
      | cons x between =>
        obtain ⟨rfl, -⟩ := List.cons.inj hrest
        exact absurd ⟨item, by simp [hfront], hname⟩ hbefore'
    · cases between with
      | nil => exact (List.cons.inj hrest).1.symm
      | cons x between =>
        obtain ⟨rfl, -⟩ := List.cons.inj hrest
        exact absurd ⟨item', by simp [hfront], hname'⟩ hbefore
  cases hsame
  rw [hchildren] at hchildren'
  cases hchildren'
  rfl

/-- Where no name of a table holds the sign, the key of a table tells its array. -/
theorem Reached.unique
    (hunmarked : ∀ array name children, ArrayIn items array → HasTable array name children →
      '>' ∉ name.toList)
    (h : Reached key items k array) (h' : Reached key items k array') : array = array' := by
  induction h with
  | here key items =>
    cases h' with
    | here => rfl
    | inside _ hbelow => exact absurd hbelow.tableAt TableAt.not_above
  | @inside key k items children array name htable hbelow ih =>
    cases h' with
    | here => exact absurd hbelow.tableAt TableAt.not_above
    | @inside _ _ _ children' _ name' htable' hbelow' =>
      obtain rfl := TableAt.name_unique (hunmarked _ _ _ (.here items) htable.hasTable)
        (hunmarked _ _ _ (.here items) htable'.hasTable) hbelow.tableAt hbelow'.tableAt
      obtain rfl := htable.unique htable'
      exact ih (fun array name children hin => hunmarked array name children
        (.inside htable.hasTable hin)) hbelow'

/-! ## Names that are asked for -/

/-- Names of modules, of a path below a parent. -/
def SegmentOf (parent : String) (segments : List String) (s : Scope) (wire : String) : Prop :=
  ∃ above below, segments = above ++ wire :: below ∧ s = modulesAbove parent above

/-- Names of fields, in a table with a key and in the tables below it. -/
def FieldOf (key : String) (items : List Json) (s : Scope) (wire : String) : Prop :=
  ∃ k array, Reached key items k array ∧ HasName array wire ∧ s = Scope.fields k

/-- The names that a document asks for. -/
inductive AskedBy (doc : Json) (s : Scope) (wire : String) : Prop where
  | module {h : Header} (hheader : HeaderOf doc h)
    (hsegment : SegmentOf h.category.text h.segments s wire)
  | field {members : Record} {h : Header} {items : List Json} (hdoc : doc = .object members)
    (hheader : HeaderOf doc h) (hitems : RootItems members items)
    (hfield : FieldOf h.dottedPath items s wire)

theorem AskedBy.kind_ne {doc : Json} {s : Scope} {wire : String} (h : AskedBy doc s wire) :
    s.kind ≠ .types := by
  cases h with
  | module _ hsegment =>
    obtain ⟨above, below, -, rfl⟩ := hsegment
    simp [modulesAbove, Scope.modules]
  | field _ _ _ hfield =>
    obtain ⟨k, array, -, -, rfl⟩ := hfield
    simp [Scope.fields]

/-! ## Reading that asks for certain names -/

/-- Steps that leave the table alone, and gifts of names from `A`, in sequence. A step only matters for
the results that the one before can have. -/
inductive Asking (A : Scope → String → Prop) : {α : Type} → Reading α → Prop where
  | lift {α : Type} (e : Except Refusal α) (h : Plain e) : Asking A (liftM e : Reading α)
  | give (scope : Scope) (wire : String) (h : A scope wire) : Asking A (giveName scope wire)
  | bind {α β : Type} {act : Reading α} {f : α → Reading β} (hact : Asking A act)
    (hf : ∀ x, (∃ t t', act t = (.ok x, t')) → Asking A (f x)) : Asking A (act >>= f)

section Asking

variable {α β : Type} {A B : Scope → String → Prop}

theorem asking_pure (x : α) : Asking A (pure x : Reading α) := .lift (.ok x) (plain_ok x)

theorem asking_throw {e : Refusal} (h : ∀ c, e ≠ .collides c) : Asking A (throw e : Reading α) := by
  refine .lift (.error e) fun c he => h c ?_
  cases he
  rfl

theorem Asking.map (f : α → β) {act : Reading α} (h : Asking A act) : Asking A (f <$> act) :=
  .bind h fun x _ => asking_pure (f x)

/-- Steps after one that cannot fail otherwise than plainly. -/
theorem Asking.lift_bind {e : Except Refusal α} {f : α → Reading β} (h : Plain e)
    (hf : ∀ x, e = .ok x → Asking A (f x)) : Asking A ((liftM e : Reading α) >>= f) := by
  refine .bind (.lift e h) ?_
  rintro x ⟨t, t', hx⟩
  have he : (e, t) = (.ok x, t') := hx
  exact hf x (congrArg Prod.fst he)

theorem Asking.mono {act : Reading α} (h : Asking A act) (hAB : ∀ s w, A s w → B s w) :
    Asking B act := by
  induction h with
  | lift e hplain => exact .lift e hplain
  | give scope wire hA => exact .give scope wire (hAB _ _ hA)
  | bind _ _ ihact ihf => exact .bind ihact ihf

/-- The names that are new were asked for. -/
theorem Asking.new {act : Reading α} (h : Asking A act) {t : NameTable} {s : Scope} {w c : String}
    (hheld : (act t).2.codeName? s w = some c) : t.codeName? s w = some c ∨ A s w := by
  induction h generalizing t with
  | lift e _ => exact .inl hheld
  | give scope wire hA =>
    obtain ⟨known, -, he⟩ | ⟨owner, -, -, he⟩ | ⟨-, -, he⟩ :=
      giveName_cases (rfl : identifier scope.kind wire = _) t <;> rw [he] at hheld
    · exact .inl hheld
    · exact .inl hheld
    · rw [NameTable.codeName?_add] at hheld
      by_cases hnew : s = scope ∧ w = wire
      · obtain ⟨rfl, rfl⟩ := hnew
        exact .inr hA
      · exact .inl (by rwa [if_neg hnew] at hheld)
  | bind _ _ ihact ihf =>
    rename_i act f _ _
    rw [bind_apply] at hheld
    rcases he : act t with ⟨e | x, t₁⟩ <;> rw [he] at hheld
    · exact ihact (by rwa [he])
    · obtain hfirst | hA := ihf x ⟨t, t₁, he⟩ hheld
      · exact ihact (by rwa [he])
      · exact .inr hA

/-- The name that is refused was asked for, and it is not held. -/
theorem Asking.refused {act : Reading α} (h : Asking A act) {t t' : NameTable} {c : Collision}
    (hact : act t = (.error (.collides c), t')) : A c.scope c.incoming
      ∧ identifier c.scope.kind c.incoming = c.codeName
      ∧ t'.codeName? c.scope c.incoming = none := by
  induction h generalizing t t' with
  | lift e hplain =>
    have he : (e, t) = (.error (.collides c), t') := hact
    exact absurd (congrArg Prod.fst he) (hplain c)
  | give scope wire hA =>
    generalize hcode : identifier scope.kind wire = code
    obtain ⟨known, -, he⟩ | ⟨owner, hwire, -, he⟩ | ⟨-, -, he⟩ := giveName_cases hcode t <;>
      rw [he] at hact <;> cases hact
    exact ⟨hA, hcode, hwire⟩
  | bind _ _ ihact ihf =>
    rename_i act f _ _
    rw [bind_apply] at hact
    rcases he : act t with ⟨e | x, t₁⟩ <;> rw [he] at hact
    · cases hact
      exact ihact he
    · exact ihf x ⟨t, t₁, he⟩ hact

end Asking

/-! ## The readers -/

theorem asking_readModules (parent : String) (segments : List String) :
    Asking (SegmentOf parent segments) (readModules parent segments) := by
  induction segments generalizing parent with
  | nil => exact asking_pure _
  | cons segment segments ih =>
    refine .bind (.give _ _ ⟨[], segments, rfl, by simp [modulesAbove]⟩) fun code _ => ?_
    refine .bind ((ih _).mono ?_) fun codes _ => asking_pure _
    rintro s w ⟨above, below, rfl, rfl⟩
    exact ⟨segment :: above, below, rfl, modulesAbove_cons _ _ _⟩

section Descent

variable {descend : Descent} (hd : ∀ key l items, Asking (FieldOf key items) (descend key l items))

include hd

theorem asking_readNested (key : String) (l : Location) (head : FieldHead) (code : String)
    (item : Record) : Asking (fun s w => ∃ children, item.get? "children" = some (.array children)
      ∧ FieldOf (key ++ ">" ++ head.name) children s w)
      (readNested descend key l head code item) := by
  have hend : ∀ table : Option String → Table,
      Asking (fun s w => ∃ children, item.get? "children" = some (.array children)
        ∧ FieldOf (key ++ ">" ++ head.name) children s w)
        (do return table (← optionalString item "help" (.fieldMember l "help")) : Reading Table) :=
    fun table => .lift_bind (plain_optionalString _ _ _) fun help _ => asking_pure _
  unfold readNested
  split
  · rename_i children hchildren
    refine .bind ((hd _ _ _).mono fun s w h => ⟨children, hchildren, h⟩) fun contents _ => ?_
    refine .lift_bind (plain_optionalString _ _ _) fun mkey _ => ?_
    dsimp only
    split
    · split
      · exact .bind (asking_throw (by simp)) fun _ _ => hend _
      · exact hend _
    · exact hend _
  · exact asking_throw (by simp)

/-- The names that one item asks for, in a table with the given key. -/
theorem asking_readField (key : String) (l : Location) (seen : List String) (item : Json) :
    Asking (fun s w => ∃ (members : Record) (name : String), item = .object members
      ∧ members.get? "name" = some (.string name) ∧ name ∉ seen
      ∧ (s = Scope.fields key ∧ w = name ∨ ∃ children : List Json,
        members.get? "children" = some (.array children)
          ∧ FieldOf (key ++ ">" ++ name) children s w))
      (readField descend key l seen item) := by
  have hend : ∀ {A : Scope → String → Prop} (result : Option String → Option String →
      Field × Option Table), ∀ item : Record, Asking A (do
        let help ← optionalString item "help" (.fieldMember l "help")
        let reference ← optionalString item "datasource" (.fieldMember l "datasource")
        return result help reference : Reading (Field × Option Table)) :=
    fun result item => .lift_bind (plain_optionalString _ _ _) fun help _ =>
      .lift_bind (plain_optionalString _ _ _) fun reference _ => asking_pure _
  unfold readField
  split
  · rename_i members
    refine .lift_bind (plain_readFieldHead _ _ _) fun head hread => ?_
    obtain ⟨hhead, hseen⟩ := readFieldHead_ok_iff.mp hread
    refine .bind (.give _ _ ⟨members, head.name, rfl, hhead.name, hseen, .inl ⟨rfl, rfl⟩⟩)
      fun code _ => ?_
    dsimp only
    split
    · refine .bind (.map _ ((asking_readNested hd _ _ _ _ _).mono ?_)) fun table _ => hend _ _
      rintro s w ⟨children, hchildren, hfield⟩
      exact ⟨members, head.name, rfl, hhead.name, hseen, .inr ⟨children, hchildren, hfield⟩⟩
    · split
      · exact .bind (asking_throw (by simp)) fun table _ => hend _ _
      · exact .bind (asking_pure _) fun table _ => hend _ _
  · exact asking_throw (by simp)

/-- The names seen are those of the items before, so that a table that is read is the first one of its
name. -/
theorem asking_readFields (key : String) (l : Location) (i : Nat) (seen : List String)
    (before items : List Json) (hseen : ∀ name, HasName before name → name ∈ seen) :
    Asking (FieldOf key (before ++ items)) (readFields descend key l i seen items) := by
  induction items generalizing before i seen with
  | nil => exact asking_pure _
  | cons item items ih =>
    refine .bind ((asking_readField hd _ _ _ _).mono ?_) ?_
    · rintro s w ⟨members, name, rfl, hname, hnew, ⟨rfl, rfl⟩ | ⟨children, hchildren, hfield⟩⟩
      · exact ⟨key, _, .here _ _, ⟨members, by simp, hname⟩, rfl⟩
      · obtain ⟨k, array, hreached, hasks, rfl⟩ := hfield
        have htable : FirstTable (before ++ .object members :: items) name children :=
          ⟨before, members, items, rfl, fun h => hnew (hseen name h), hname, hchildren⟩
        exact ⟨k, array, .inside htable hreached, hasks, rfl⟩
    · rintro ⟨field, table?⟩ ⟨t, t', hfield⟩
      obtain ⟨members, head, code, t₁, help, reference, rfl, hhead, -, -, -, -, rfl, -⟩ :=
        readField_ok_iff.mp hfield
      have happend : before ++ .object members :: items = (before ++ [.object members]) ++ items := by
        simp
      rw [happend]
      refine .bind (ih _ _ _ ?_) fun rest _ => asking_pure _
      rintro name ⟨other, hother, hname⟩
      obtain hother | hother := List.mem_append.mp hother
      · exact List.mem_cons_of_mem _ (hseen name ⟨other, hother, hname⟩)
      · cases List.mem_singleton.mp hother
        rw [hhead.name] at hname
        cases hname
        exact List.mem_cons_self

end Descent

theorem asking_readTable (limit room : Nat) (key : String) (l : Location) (items : List Json) :
    Asking (FieldOf key items) (readTable limit room key l items) := by
  have hnone : ∀ name, HasName [] name → name ∈ ([] : List String) := by
    rintro name ⟨item, hitem, -⟩
    cases hitem
  induction room generalizing key l items with
  | zero => exact asking_readFields (fun _ _ _ => asking_throw (by simp)) _ _ _ _ [] _ hnone
  | succ room ih => exact asking_readFields ih _ _ _ _ [] _ hnone

theorem asking_readResource (limit : Nat) (doc : Json) :
    Asking (AskedBy doc) (readResource limit doc) := by
  refine .lift_bind (plain_asObject _) fun members hmembers => ?_
  refine .lift_bind (plain_readHeader _) fun h hread => ?_
  have hdoc : doc = .object members := by
    cases doc <;> cases hmembers
    rfl
  have hheader : HeaderOf doc h := ⟨members, hdoc, readHeader_ok_iff.mp hread⟩
  refine .bind ((asking_readModules _ _).mono fun s w => .module hheader) fun modules _ => ?_
  refine .lift_bind (plain_optionalString _ _ _) fun help _ => ?_
  refine .lift_bind (plain_readRootFields _) fun items hitems => ?_
  refine .bind ((asking_readTable _ _ _ _ _).mono fun s w =>
    .field hdoc hheader (readRootFields_ok_iff.mp hitems)) fun contents _ => ?_
  refine .lift_bind (plain_optionalString _ _ _) fun mkey _ => ?_
  exact .lift_bind (plain_checkRootKey _ _) fun _ _ => asking_pure _

/-! ## Histories -/

/-- The document was read, whether or not it became a resource. -/
def WasRead (steps : List NamingStep) (doc : Json) : Prop := ∃ limit, .read limit doc ∈ steps

/-- Names of modules and fields come from documents that were read. -/
theorem asked_of_held {steps : List NamingStep} {t : NameTable} {s : Scope} {w c : String}
    (hkind : s.kind ≠ .types) (hheld : (tableFrom t steps).codeName? s w = some c) :
    t.codeName? s w = some c ∨ ∃ doc, WasRead steps doc ∧ AskedBy doc s w := by
  induction steps generalizing t with
  | nil => exact .inl hheld
  | cons step steps ih =>
    obtain hstep | ⟨doc, ⟨limit, hmem⟩, hasked⟩ := ih (t := step.perform t) hheld
    · cases step with
      | read limit doc =>
        obtain hbefore | hasked := (asking_readResource limit doc).new hstep
        · exact .inl hbefore
        · exact .inr ⟨doc, ⟨limit, List.mem_cons_self⟩, hasked⟩
      | resolve r =>
        have hne : s ≠ Scope.types r.dottedPath := by
          rintro rfl
          exact hkind rfl
        have hsame : (resolve r t).2.codeName? s w = some c := hstep
        rw [← (resolve_elsewhere hne t).1 w] at hsame
        exact .inl hsame
    · exact .inr ⟨doc, ⟨limit, List.mem_cons_of_mem _ hmem⟩, hasked⟩

/-! ## Clashes -/

/-- Two items of one array have different names and ask for one code name. -/
def ArrayClash (doc : Json) : Prop :=
  ∃ members items array name name', doc = .object members ∧ RootItems members items
    ∧ ArrayIn items array ∧ HasName array name ∧ HasName array name' ∧ name ≠ name'
    ∧ identifier .fields name = identifier .fields name'

/-- Below the same segments, the paths go on with different segments that ask for one code name. -/
def PathClash (doc doc' : Json) : Prop :=
  ∃ h h' above segment segment' below below', HeaderOf doc h ∧ HeaderOf doc' h'
    ∧ h.category = h'.category ∧ h.segments = above ++ segment :: below
    ∧ h'.segments = above ++ segment' :: below' ∧ segment ≠ segment'
    ∧ identifier .modules segment = identifier .modules segment'

/-- No name on the way to a scope holds a sign that scopes are glued with. -/
structure Unmarked (doc : Json) : Prop where
  segments : ∀ h, HeaderOf doc h → ∀ s ∈ h.segments, '.' ∉ s.toList ∧ '>' ∉ s.toList
  tables : ∀ members items array name children, doc = .object members → RootItems members items →
    ArrayIn items array → HasTable array name children → '>' ∉ name.toList

theorem Unmarked.dottedPath {doc : Json} (hdoc : Unmarked doc) {h : Header}
    (hheader : HeaderOf doc h) : '>' ∉ h.dottedPath.toList := by
  have hcategory : '>' ∉ h.category.text.toList := by cases h.category <;> decide
  have hsegments : '>' ∉ (String.intercalate "." h.segments).toList :=
    notMem_intercalate (by decide) fun s hs => (hdoc.segments h hheader s hs).2
  rw [Header.dottedPath]
  simp only [String.toList_append, List.mem_append, not_or]
  exact ⟨⟨hcategory, by decide⟩, hsegments⟩

/-- The scope of a module tells the category and the segments above it. -/
theorem modulesAbove_injective {category category' : Category} {above above' : List String}
    (hdots : ∀ s ∈ above, '.' ∉ s.toList) (hdots' : ∀ s ∈ above', '.' ∉ s.toList)
    (he : modulesAbove category.text above = modulesAbove category'.text above') :
    category = category' ∧ above = above' := by
  have hword : ∀ c : Category, '.' ∉ c.text.toList := fun c => by cases c <;> decide
  have hpath : String.intercalate (String.singleton '.') (category.text :: above)
      = String.intercalate (String.singleton '.') (category'.text :: above') :=
    congrArg Scope.path he
  have hpieces := congrArg (split '.') hpath
  rw [split_intercalate (List.forall_mem_cons.mpr ⟨hword _, hdots⟩) (by simp),
    split_intercalate (List.forall_mem_cons.mpr ⟨hword _, hdots'⟩) (by simp)] at hpieces
  obtain ⟨htext, rfl⟩ := List.cons.inj hpieces
  exact ⟨by cases category <;> cases category' <;> first | rfl | exact absurd htext (by decide), rfl⟩

/-- The key of a table tells the dotted path of the document. -/
theorem dottedPath_unique {d d' : String} {items items' : List Json} (hd : '>' ∉ d.toList)
    (hd' : '>' ∉ d'.toList) (h : Reached d items k array) (h' : Reached d' items' k array') :
    d = d' := by
  obtain ⟨rest, he, hrest⟩ := h.tableAt.key_tail
  obtain ⟨rest', he', hrest'⟩ := h'.tableAt.key_tail
  have hcut := congrArg (List.takeWhile (· != '>')) (he.symm.trans he')
  rw [takeWhile_name hd hrest, takeWhile_name hd' hrest'] at hcut
  exact String.toList_injective hcut

/-- Two segments that meet in a scope are below the same segments of the same category. -/
theorem pathClash_of_scope {doc doc' : Json} (hdoc : Unmarked doc) (hdoc' : Unmarked doc')
    {h h' : Header} (hheader : HeaderOf doc h) (hheader' : HeaderOf doc' h') {s : Scope}
    {wire wire' : String} (hsegment : SegmentOf h.category.text h.segments s wire)
    (hsegment' : SegmentOf h'.category.text h'.segments s wire') (hne : wire ≠ wire')
    (he : identifier s.kind wire = identifier s.kind wire') : PathClash doc doc' := by
  obtain ⟨above, below, hs, rfl⟩ := hsegment
  obtain ⟨above', below', hs', hscope⟩ := hsegment'
  have hdots : ∀ s ∈ above, '.' ∉ s.toList := fun s hmem =>
    (hdoc.segments h hheader s (hs ▸ List.mem_append_left _ hmem)).1
  have hdots' : ∀ s ∈ above', '.' ∉ s.toList := fun s hmem =>
    (hdoc'.segments h' hheader' s (hs' ▸ List.mem_append_left _ hmem)).1
  obtain ⟨hcategory, rfl⟩ := modulesAbove_injective hdots hdots' hscope
  exact ⟨h, h', above, wire, wire', below, below', hheader, hheader', hcategory, hs, hs', hne, he⟩

/-- A path does not clash with itself. -/
theorem not_pathClash_self (doc : Json) : ¬PathClash doc doc := by
  rintro ⟨h, h', above, segment, segment', below, below', hheader, hheader', -, hs, hs', hne, -⟩
  rw [hheader.unique hheader', hs'] at hs
  exact hne (List.cons.inj (List.append_cancel_left hs)).1.symm

/-- Two names that meet in the scope of a table are of one array, if they are of one document. -/
theorem arrayClash_of_scope {doc : Json} (hdoc : Unmarked doc) {members : Record} {h : Header}
    {items items' : List Json} (hmembers : doc = .object members)
    (hitems : RootItems members items) (hitems' : RootItems members items') {s : Scope}
    {wire wire' : String} (hfield : FieldOf h.dottedPath items s wire)
    (hfield' : FieldOf h.dottedPath items' s wire') (hne : wire ≠ wire')
    (he : identifier s.kind wire = identifier s.kind wire') : ArrayClash doc := by
  obtain rfl := hitems.unique hitems'
  obtain ⟨k, array, hreached, hname, rfl⟩ := hfield
  obtain ⟨k', array', hreached', hname', hs⟩ := hfield'
  obtain rfl : k = k' := congrArg Scope.path hs
  obtain rfl := Reached.unique (fun array name children hin htable =>
    hdoc.tables _ _ array name children hmembers hitems hin htable) hreached hreached'
  exact ⟨members, items, array, wire, wire', hmembers, hitems, hreached.tableAt.arrayIn, hname,
    hname', hne, he⟩

theorem SegmentOf.kind {parent : String} {segments : List String} {s : Scope} {wire : String}
    (h : SegmentOf parent segments s wire) : s.kind = .modules := by
  obtain ⟨above, below, -, rfl⟩ := h
  rfl

theorem FieldOf.kind {s : Scope} {wire : String} (h : FieldOf key items s wire) :
    s.kind = .fields := by
  obtain ⟨k, array, -, -, rfl⟩ := h
  rfl

/-- Without the signs, documents share a scope of fields only if they share the dotted path, and two
names that meet in a scope clash in an array or in their paths. -/
theorem clash_of_asked {doc doc' : Json} (hdoc : Unmarked doc) (hdoc' : Unmarked doc') {s : Scope}
    {wire wire' : String} (hasked : AskedBy doc s wire) (hasked' : AskedBy doc' s wire')
    (hne : wire ≠ wire') (he : identifier s.kind wire = identifier s.kind wire') :
    PathClash doc doc'
      ∨ readDottedPath doc' = readDottedPath doc ∧ (doc' = doc → ArrayClash doc) := by
  cases hasked with
  | module hheader hsegment =>
    cases hasked' with
    | module hheader' hsegment' =>
      exact .inl (pathClash_of_scope hdoc hdoc' hheader hheader' hsegment hsegment' hne he)
    | field _ _ _ hfield => cases hsegment.kind.symm.trans hfield.kind
  | field hmembers hheader hitems hfield =>
    cases hasked' with
    | module _ hsegment => cases hsegment.kind.symm.trans hfield.kind
    | field hmembers' hheader' hitems' hfield' =>
      refine .inr ⟨?_, ?_⟩
      · obtain ⟨k, array, hreached, -, rfl⟩ := hfield
        obtain ⟨k', array', hreached', -, hs⟩ := hfield'
        obtain rfl : k = k' := congrArg Scope.path hs
        rw [hheader'.readDottedPath, hheader.readDottedPath, dottedPath_unique
          (hdoc.dottedPath hheader) (hdoc'.dottedPath hheader') hreached hreached']
      · rintro rfl
        obtain rfl := hheader.unique hheader'
        cases hmembers.symm.trans hmembers'
        exact arrayClash_of_scope hdoc hmembers hitems hitems' hfield hfield' hne he

/-- **Where a collision comes from.** After any documents were read into one table, with or without
success, and resources resolved, a document with a dotted path of its own is refused with a collision.
Then two different names ask for one code name: one asked for by this document, the other, in a scope
with the same text, by this document or an earlier one. Where neither of the two documents has names
that hold a sign which scopes are glued with, two items of one array clash, or this path clashes with
that of the earlier document. -/
theorem collisions_explained {before : List NamingStep} {limit : Nat} {doc : Json} {c : Collision}
    {t' : NameTable} (hfresh : ∀ doc', WasRead before doc' → readDottedPath doc' ≠ readDottedPath doc)
    (hrefused : readResource limit doc (tableFrom .empty before) = (.error (.collides c), t')) :
    c.existing ≠ c.incoming ∧ identifier c.scope.kind c.existing = c.codeName
      ∧ identifier c.scope.kind c.incoming = c.codeName ∧ AskedBy doc c.scope c.incoming
      ∧ ∃ doc', (doc' = doc ∨ WasRead before doc') ∧ AskedBy doc' c.scope c.existing
        ∧ (Unmarked doc → Unmarked doc' →
          ArrayClash doc ∨ WasRead before doc' ∧ PathClash doc doc') := by
  have hsound := sound_tableFrom_empty before
  obtain ⟨hasked, hspelled, hnone⟩ := (asking_readResource limit doc).refused hrefused
  have hholds : t'.codeName? c.scope c.existing = some c.codeName :=
    (program_readResource limit doc).owned hsound hrefused
  obtain ⟨-, hsound'⟩ := (keeps_readResource limit doc).of_eq hsound hrefused
  have hne : c.existing ≠ c.incoming := by
    intro he
    rw [he, hnone] at hholds
    cases hholds
  have hspelled' : identifier c.scope.kind c.existing = c.codeName :=
    (hsound'.spelled _ _ _ hasked.kind_ne hholds).symm
  obtain ⟨doc', hread, hasked'⟩ : ∃ doc', (doc' = doc ∨ WasRead before doc')
      ∧ AskedBy doc' c.scope c.existing := by
    have hleft : (readResource limit doc (tableFrom .empty before)).2 = t' :=
      congrArg Prod.snd hrefused
    rw [← hleft] at hholds
    obtain hbefore | hnow := (asking_readResource limit doc).new hholds
    · obtain hempty | ⟨doc', hread, hasked'⟩ := asked_of_held hasked.kind_ne hbefore
      · simp at hempty
      · exact ⟨doc', .inr hread, hasked'⟩
    · exact ⟨doc, .inl rfl, hnow⟩
  refine ⟨hne, hspelled', hspelled, hasked, doc', hread, hasked', fun hdoc hdoc' => ?_⟩
  obtain hclash | ⟨hdotted, harray⟩ := clash_of_asked hdoc hdoc' hasked hasked' hne.symm
    (hspelled.trans hspelled'.symm)
  · obtain rfl | hread := hread
    · exact absurd hclash (not_pathClash_self _)
    · exact .inr ⟨hread, hclash⟩
  · obtain rfl | hread := hread
    · exact .inl (harray rfl)
    · exact absurd hdotted (hfresh doc' hread)

/-! ### A clash below one module -/

theorem ArrayIn.eq_of_noTables (hnone : ∀ name children, ¬HasTable items name children)
    (h : ArrayIn items array) : array = items := by
  cases h with
  | here => rfl
  | inside htable _ => exact absurd htable (hnone _ _)

/-- A document is unmarked if its path is and its table has no tables below. -/
theorem unmarked_of_flat {members : Record} {h : Header} (hheader : HeaderOf (.object members) h)
    (hsegments : ∀ s ∈ h.segments, '.' ∉ s.toList ∧ '>' ∉ s.toList)
    (hflat : ∀ items name children, RootItems members items → ¬HasTable items name children) :
    Unmarked (.object members) := by
  refine ⟨fun h' hheader' => ?_, ?_⟩
  · rwa [hheader'.unique hheader]
  · rintro _ items array name children ⟨rfl⟩ hitems hin htable
    obtain rfl := hin.eq_of_noTables fun name children => hflat items name children hitems
    exact absurd htable (hflat _ _ _ hitems)

theorem unmarked_underscore : Unmarked (.object Run.underscoreMembers) := by
  have hheader : HeaderOf (.object Run.underscoreMembers) ⟨.config, ["a_b"], []⟩ :=
    ⟨_, rfl, readHeader_ok_iff.mp rfl⟩
  refine unmarked_of_flat hheader (by decide) ?_
  rintro items name children hitems ⟨item, hitem, -⟩
  cases hitems.unique (.omitted (.inl rfl))
  cases hitem

theorem unmarked_hyphen : Unmarked (.object Run.hyphenMembers) := by
  have hheader : HeaderOf (.object Run.hyphenMembers) ⟨.config, ["a-b"], []⟩ :=
    ⟨_, rfl, readHeader_ok_iff.mp rfl⟩
  refine unmarked_of_flat hheader (by decide) ?_
  rintro items name children hitems ⟨item, hitem, hname, -⟩
  obtain rfl := hitems.unique (.listed [.object []] rfl)
  cases List.mem_singleton.mp hitem
  cases hname

/-- Nothing is generated of the first document, but its module has its name. -/
theorem collisions_explained_underscore :
    readResource 4 (.object Run.underscoreMembers)
        (tableFrom .empty [.read 4 (.object Run.hyphenMembers)])
      = (.error (.collides Run.collision), Run.takenTable)
      ∧ ∃ doc', AskedBy doc' Run.collision.scope Run.collision.existing
        ∧ (doc' = .object Run.underscoreMembers ∨ doc' = .object Run.hyphenMembers)
        ∧ (ArrayClash (.object Run.underscoreMembers)
          ∨ PathClash (.object Run.underscoreMembers) doc') := by
  have htable : tableFrom .empty [.read 4 (.object Run.hyphenMembers)] = Run.takenTable := by
    rw [tableFrom, List.foldl_cons, List.foldl_nil, NamingStep.perform, Run.hyphenMembers_refused]
  have hrefused : readResource 4 (.object Run.underscoreMembers)
      (tableFrom .empty [.read 4 (.object Run.hyphenMembers)])
        = (.error (.collides Run.collision), Run.takenTable) := by
    rw [htable, Run.underscoreMembers_refused]
  have hread : ∀ doc', WasRead [.read 4 (.object Run.hyphenMembers)] doc' →
      doc' = .object Run.hyphenMembers := by
    rintro doc' ⟨limit, hmem⟩
    cases List.mem_singleton.mp hmem
    rfl
  have hfresh : ∀ doc', WasRead [.read 4 (.object Run.hyphenMembers)] doc' →
      readDottedPath doc' ≠ readDottedPath (.object Run.underscoreMembers) := by
    intro doc' hdoc'
    have hhyphen : readDottedPath (.object Run.hyphenMembers) = .ok "config.a-b" := rfl
    have hunderscore : readDottedPath (.object Run.underscoreMembers) = .ok "config.a_b" := rfl
    rw [hread doc' hdoc', hhyphen, hunderscore]
    decide
  obtain ⟨-, -, -, -, doc', hdoc', hasked, hclash⟩ := collisions_explained hfresh hrefused
  have hone := hdoc'.imp_right (hread doc')
  have hunmarked : Unmarked doc' := by
    obtain rfl | rfl := hone
    · exact unmarked_underscore
    · exact unmarked_hyphen
  exact ⟨hrefused, doc', hasked, hone, (hclash unmarked_underscore hunmarked).imp_right And.right⟩

/-! ### A dot that brings modules together -/

/-- A dot in the first segment. -/
def gluedMembers : Record :=
  [("category", .string "config"), ("methods", .array []), ("path", .string "a.b/c-d")]

def crowdedMembers : Record :=
  [("category", .string "config"), ("methods", .array []), ("path", .string "a/b/c_d")]

def gluedTable : NameTable :=
  (NameTable.empty.add (Scope.modules "config") "a.b" "a_b").add (Scope.modules "config.a.b") "c-d"
    "c_d"

def crowdedTable : NameTable :=
  (gluedTable.add (Scope.modules "config") "a" "a").add (Scope.modules "config.a") "b" "b"

def crowdedCollision : Collision := ⟨Scope.modules "config.a.b", "c_d", "c-d", "c_d"⟩

theorem headerOf_gluedMembers : HeaderOf (.object gluedMembers) ⟨.config, ["a.b", "c-d"], []⟩ :=
  ⟨_, rfl, readHeader_ok_iff.mp rfl⟩

theorem headerOf_crowdedMembers : HeaderOf (.object crowdedMembers) ⟨.config, ["a", "b", "c_d"], []⟩ :=
  ⟨_, rfl, readHeader_ok_iff.mp rfl⟩

theorem tableFrom_glued : tableFrom .empty [.read 4 (.object gluedMembers)] = gluedTable := by
  have hfirst : giveName (Scope.modules "config") "a.b" .empty
      = (.ok "a_b", NameTable.empty.add (Scope.modules "config") "a.b" "a_b") :=
    giveName_free (by decide) (by simp) (by simp)
  have hsecond : readModules "config.a.b" ["c-d"]
      (NameTable.empty.add (Scope.modules "config") "a.b" "a_b") = (.ok ["c_d"], gluedTable) :=
    readModules_single (by decide) (by simp [NameTable.codeName?_add])
      (by simp [NameTable.wireName?_add])
  have hmodules : readModules "config" ["a.b", "c-d"] .empty = (.ok ["a_b", "c_d"], gluedTable) :=
    (ok_bind hfirst).trans ((ok_bind hsecond).trans rfl)
  have hread : readResource 4 (.object gluedMembers) .empty
      = (.ok ⟨.config, ["a.b", "c-d"], ["a_b", "c_d"], none, none, [], [], []⟩, gluedTable) := by
    refine (lift_ok_bind rfl).trans ?_
    refine (lift_ok_bind (x := (⟨.config, ["a.b", "c-d"], []⟩ : Header)) rfl).trans ?_
    exact (ok_bind hmodules).trans rfl
  rw [tableFrom, List.foldl_cons, List.foldl_nil, NamingStep.perform, hread]

theorem crowdedMembers_refused : readResource 4 (.object crowdedMembers) gluedTable
    = (.error (.collides crowdedCollision), crowdedTable) := by
  have hfirst : giveName (Scope.modules "config") "a" gluedTable
      = (.ok "a", gluedTable.add (Scope.modules "config") "a" "a") := by
    refine giveName_free (by decide) ?_ ?_ <;>
      simp [gluedTable, Scope.modules, NameTable.codeName?_add, NameTable.wireName?_add]
  have hsecond : giveName (Scope.modules "config.a") "b"
      (gluedTable.add (Scope.modules "config") "a" "a") = (.ok "b", crowdedTable) := by
    refine giveName_free (by decide) ?_ ?_ <;>
      simp [gluedTable, Scope.modules, NameTable.codeName?_add, NameTable.wireName?_add]
  have hthird : giveName (Scope.modules "config.a.b") "c_d" crowdedTable
      = (.error (.collides crowdedCollision), crowdedTable) := by
    refine giveName_owned (by decide) ?_ ?_ <;>
      simp [crowdedTable, gluedTable, Scope.modules, NameTable.codeName?_add,
        NameTable.wireName?_add]
  have hmodules : readModules "config" ["a", "b", "c_d"] gluedTable
      = (.error (.collides crowdedCollision), crowdedTable) :=
    (ok_bind hfirst).trans (error_bind ((ok_bind hsecond).trans
      (error_bind (error_bind hthird))))
  refine (lift_ok_bind rfl).trans ?_
  refine (lift_ok_bind (x := (⟨.config, ["a", "b", "c_d"], []⟩ : Header)) rfl).trans ?_
  exact error_bind hmodules

/-- The modules of the two paths meet in one scope, though their parents are different. -/
theorem collision_without_clash :
    readDottedPath (.object gluedMembers) ≠ readDottedPath (.object crowdedMembers)
      ∧ (readResource 4 (.object crowdedMembers)
          (tableFrom .empty [.read 4 (.object gluedMembers)])).1
        = .error (.collides crowdedCollision)
      ∧ ¬ArrayClash (.object crowdedMembers)
      ∧ ¬PathClash (.object crowdedMembers) (.object gluedMembers) := by
  refine ⟨?_, ?_, ?_, ?_⟩
  · rw [headerOf_gluedMembers.readDottedPath, headerOf_crowdedMembers.readDottedPath]
    decide
  · rw [tableFrom_glued, crowdedMembers_refused]
  · rintro ⟨members, items, array, name, name', ⟨rfl⟩, hitems, hin, ⟨item, hitem, -⟩, -⟩
    obtain rfl := hitems.unique (.omitted (.inl rfl))
    obtain rfl := hin.eq_of_noTables fun name children htable => by
      obtain ⟨item, hitem, -⟩ := htable
      cases hitem
    cases hitem
  · rintro ⟨h, h', above, segment, segment', below, below', hheader, hheader', -, hs, hs', -, he⟩
    obtain rfl := hheader.unique headerOf_crowdedMembers
    obtain rfl := hheader'.unique headerOf_gluedMembers
    cases above with
    | nil =>
      obtain ⟨rfl, -⟩ := List.cons.inj hs
      obtain ⟨rfl, -⟩ := List.cons.inj hs'
      exact absurd he (by decide)
    | cons first above =>
      obtain ⟨rfl, -⟩ := List.cons.inj hs
      exact absurd (List.cons.inj hs').1 (by decide)

end RestForge.Schema
