import RestForge.Proofs.Reading

/-!
# Reading with more names

Reading a document touches the table of names only where it gives a name, and never gives the name of
a type. So a reading that starts with more names ends the same, unless one of the names that were
added stands in its way.

* `Plain`: the readers that give no names report no collision.
* `Program`: the actions that readings are built from; `program_readResource`.
* `SameTypes`: two tables with the same type names.
* `Holds`, `Usurped`: is a code name with its owner, or did the one who was refused get it?
* `Program.sameTypes`, `Program.owned`, `Program.parallel`: what every program does.
-/

set_option autoImplicit false

namespace RestForge.Schema

open Naming

variable {α β : Type}

/-! ## Refusals without a collision -/

def Plain (e : Except Refusal α) : Prop := ∀ c, e ≠ .error (.collides c)

theorem plain_ok (x : α) : Plain (.ok x) := by
  intro c h
  cases h

theorem plain_flaw (f : Flaw) : Plain (flaw f : Except Refusal α) := by
  intro c h
  cases h

theorem plain_bind {e : Except Refusal α} {f : α → Except Refusal β} (he : Plain e)
    (hf : ∀ x, Plain (f x)) : Plain (e >>= f) := by
  cases e with
  | error e =>
    intro c h
    cases h
    exact he c rfl
  | ok x => exact hf x

theorem plain_asObject (doc : Json) : Plain (asObject doc) := by
  intro c h
  cases doc <;> cases h

theorem plain_optionalString (doc : Record) (key : String) (spot : Spot) :
    Plain (optionalString doc key spot) := by
  unfold optionalString
  split
  · exact plain_ok _
  · exact plain_ok _
  · exact plain_flaw _

theorem plain_readCategory (doc : Record) : Plain (readCategory doc) := by
  unfold readCategory
  split
  · exact plain_flaw _
  · split
    · exact plain_ok _
    · exact plain_flaw _
  · exact plain_flaw _

theorem plain_readSegments (doc : Record) : Plain (readSegments doc) := by
  refine plain_bind (plain_optionalString _ _ _) fun path => ?_
  split
  · exact plain_flaw _
  · dsimp only
    split
    · exact plain_flaw _
    · split
      · exact plain_flaw _
      · exact plain_ok _

theorem plain_readMethod (i : Nat) (item : Json) : Plain (readMethod i item) := by
  unfold readMethod
  split
  · split
    · exact plain_ok _
    · exact plain_flaw _
  · exact plain_flaw _

theorem plain_readMethodsFrom (i : Nat) (items : List Json) : Plain (readMethodsFrom i items) := by
  induction items generalizing i with
  | nil => exact plain_ok _
  | cons item items ih =>
    exact plain_bind (plain_readMethod _ _) fun m => plain_bind (ih _) fun ms => plain_ok _

theorem plain_readMethods (doc : Record) : Plain (readMethods doc) := by
  unfold readMethods
  split
  · exact plain_flaw _
  · exact plain_bind (plain_readMethodsFrom _ _) fun listed => plain_ok _
  · exact plain_flaw _

theorem plain_readHeader (doc : Record) : Plain (readHeader doc) := by
  refine plain_bind (plain_readCategory _) fun category => ?_
  refine plain_bind (plain_readSegments _) fun segments => ?_
  exact plain_bind (plain_readMethods _) fun methods => plain_ok _

theorem plain_readName (l : Location) (seen : List String) (item : Record) :
    Plain (readName l seen item) := by
  unfold readName
  split
  · split
    · exact plain_flaw _
    · split
      · exact plain_flaw _
      · exact plain_ok _
  · exact plain_flaw _

theorem plain_readType (l : Location) (name : String) (item : Record) :
    Plain (readType l name item) := by
  unfold readType
  split
  · split
    · exact plain_ok _
    · exact plain_flaw _
  · exact plain_flaw _

theorem plain_readRequired (l : Location) (item : Record) : Plain (readRequired l item) := by
  unfold readRequired
  split
  · exact plain_ok _
  · exact plain_ok _
  · exact plain_flaw _

theorem plain_readOption (l : Location) (j : Nat) (item : Json) : Plain (readOption l j item) := by
  unfold readOption
  split
  · exact plain_ok _
  · split
    · exact plain_ok _
    · exact plain_flaw _
  · exact plain_flaw _

theorem plain_readOptionsFrom (l : Location) (j : Nat) (items : List Json) :
    Plain (readOptionsFrom l j items) := by
  induction items generalizing j with
  | nil => exact plain_ok _
  | cons item items ih =>
    exact plain_bind (plain_readOption _ _ _) fun s => plain_bind (ih _) fun ss => plain_ok _

theorem plain_readOptions (l : Location) (name : String) (type : FieldType) (item : Record) :
    Plain (readOptions l name type item) := by
  have hcheck : ∀ options : List String, Plain (if type = .enum then
      if options.isEmpty then flaw (.enumWithoutOptions l name) else .ok options
    else if options.isEmpty then .ok options else flaw (.optionsWithoutEnum l name)) := by
    intro options
    split <;> split
    · exact plain_flaw _
    · exact plain_ok _
    · exact plain_ok _
    · exact plain_flaw _
  unfold readOptions
  cases present? item "options" with
  | none => exact hcheck []
  | some value =>
    cases value with
    | array items => exact plain_bind (plain_readOptionsFrom _ _ _) hcheck
    | _ => exact plain_flaw (.optionsNotArray l _)

theorem plain_readFieldHead (l : Location) (seen : List String) (item : Record) :
    Plain (readFieldHead l seen item) := by
  refine plain_bind (plain_readName _ _ _) fun name => plain_bind (plain_readType _ _ _) fun type => ?_
  refine plain_bind (plain_readRequired _ _) fun required => ?_
  exact plain_bind (plain_readOptions _ _ _ _) fun values => plain_ok _

theorem plain_readRootFields (doc : Record) : Plain (readRootFields doc) := by
  unfold readRootFields
  split
  · exact plain_ok _
  · exact plain_ok _
  · exact plain_flaw _

theorem plain_checkRootKey (fields : List Field) (mkey : Option String) :
    Plain (checkRootKey fields mkey) := by
  unfold checkRootKey
  split
  · exact plain_ok _
  · split
    · exact plain_flaw _
    · split
      · exact plain_flaw _
      · exact plain_ok _

/-! ## Programs -/

/-- Steps that leave the table alone, and gifts of names of fields and modules, in sequence. -/
inductive Program : {α : Type} → Reading α → Prop where
  | lift {α : Type} (e : Except Refusal α) (h : Plain e) : Program (liftM e : Reading α)
  | give (scope : Scope) (wire : String) (h : scope.kind ≠ .types) : Program (giveName scope wire)
  | bind {α β : Type} {act : Reading α} {f : α → Reading β} (hact : Program act)
    (hf : ∀ x, Program (f x)) : Program (act >>= f)

theorem program_pure (x : α) : Program (pure x : Reading α) := .lift (.ok x) (plain_ok x)

theorem program_throw {e : Refusal} (h : ∀ c, e ≠ .collides c) : Program (throw e : Reading α) := by
  refine .lift (.error e) fun c he => h c ?_
  cases he
  rfl

theorem program_map (f : α → β) {act : Reading α} (h : Program act) : Program (f <$> act) :=
  .bind h fun x => program_pure (f x)

theorem program_readModules (parent : String) (segments : List String) :
    Program (readModules parent segments) := by
  induction segments generalizing parent with
  | nil => exact program_pure _
  | cons segment segments ih =>
    exact .bind (.give _ _ (by simp [Scope.modules])) fun code => .bind (ih _) fun codes =>
      program_pure _

section Descent

variable {descend : Descent} (hd : ∀ key l items, Program (descend key l items))

include hd

theorem program_readNested (key : String) (l : Location) (head : FieldHead) (code : String)
    (item : Record) : Program (readNested descend key l head code item) := by
  have hend : ∀ table : Option String → Table,
      Program (do return table (← optionalString item "help" (.fieldMember l "help")) :
        Reading Table) :=
    fun table => .bind (.lift _ (plain_optionalString _ _ _)) fun help => program_pure _
  unfold readNested
  split
  · refine .bind (hd _ _ _) fun contents => .bind (.lift _ (plain_optionalString _ _ _)) fun mkey => ?_
    dsimp only
    split
    · split
      · exact .bind (program_throw (by simp)) fun _ => hend _
      · exact hend _
    · exact hend _
  · exact program_throw (by simp)

theorem program_readField (key : String) (l : Location) (seen : List String) (item : Json) :
    Program (readField descend key l seen item) := by
  have hend : ∀ result : Option String → Option String → Field × Option Table, ∀ item : Record,
      Program (do
        let help ← optionalString item "help" (.fieldMember l "help")
        let reference ← optionalString item "datasource" (.fieldMember l "datasource")
        return result help reference : Reading (Field × Option Table)) :=
    fun result item => .bind (.lift _ (plain_optionalString _ _ _)) fun help =>
      .bind (.lift _ (plain_optionalString _ _ _)) fun reference => program_pure _
  unfold readField
  split
  · refine .bind (.lift _ (plain_readFieldHead _ _ _)) fun head => ?_
    refine .bind (.give _ _ (by simp [Scope.fields])) fun code => ?_
    dsimp only
    split
    · exact .bind (program_map _ (program_readNested hd _ _ _ _ _)) fun table => hend _ _
    · split
      · exact .bind (program_throw (by simp)) fun table => hend _ _
      · exact .bind (program_pure _) fun table => hend _ _
  · exact program_throw (by simp)

theorem program_readFields (key : String) (l : Location) (i : Nat) (seen : List String)
    (items : List Json) : Program (readFields descend key l i seen items) := by
  induction items generalizing i seen with
  | nil => exact program_pure _
  | cons item items ih =>
    exact .bind (program_readField hd _ _ _ _) fun read => .bind (ih _ _) fun rest => program_pure _

end Descent

theorem program_readTable (limit room : Nat) (key : String) (l : Location) (items : List Json) :
    Program (readTable limit room key l items) := by
  induction room generalizing key l items with
  | zero => exact program_readFields (fun _ _ _ => program_throw (by simp)) _ _ _ _ _
  | succ room ih => exact program_readFields ih _ _ _ _ _

theorem program_readResource (limit : Nat) (doc : Json) : Program (readResource limit doc) := by
  refine .bind (.lift _ (plain_asObject _)) fun members => ?_
  refine .bind (.lift _ (plain_readHeader _)) fun header => ?_
  refine .bind (program_readModules _ _) fun modules => ?_
  refine .bind (.lift _ (plain_optionalString _ _ _)) fun help => ?_
  refine .bind (.lift _ (plain_readRootFields _)) fun items => ?_
  refine .bind (program_readTable _ _ _ _ _) fun contents => ?_
  refine .bind (.lift _ (plain_optionalString _ _ _)) fun mkey => ?_
  exact .bind (.lift _ (plain_checkRootKey _ _)) fun _ => program_pure _

/-! ## What every program does -/

theorem Program.keeps {act : Reading α} (h : Program act) : Keeps act := by
  induction h with
  | lift e _ => exact keeps_lift e
  | give scope wire _ => exact keeps_giveName scope wire
  | bind _ _ ihact ihf => exact keeps_bind ihact ihf

/-- Two tables with the same names of types. -/
def SameTypes (t u : NameTable) : Prop :=
  ∀ s, s.kind = .types → (∀ w, t.codeName? s w = u.codeName? s w)
    ∧ ∀ c, t.wireName? s c = u.wireName? s c

theorem SameTypes.refl (t : NameTable) : SameTypes t t := fun _ _ => ⟨fun _ => rfl, fun _ => rfl⟩

theorem SameTypes.trans {t u v : NameTable} (h : SameTypes t u) (h' : SameTypes u v) :
    SameTypes t v := fun s hs =>
  ⟨fun w => ((h s hs).1 w).trans ((h' s hs).1 w), fun c => ((h s hs).2 c).trans ((h' s hs).2 c)⟩

theorem SameTypes.symm {t u : NameTable} (h : SameTypes t u) : SameTypes u t := fun s hs =>
  ⟨fun w => ((h s hs).1 w).symm, fun c => ((h s hs).2 c).symm⟩

theorem giveName_cases {scope : Scope} {wire code : String}
    (hcode : identifier scope.kind wire = code) (t : NameTable) :
    (∃ known, t.codeName? scope wire = some known ∧ giveName scope wire t = (.ok known, t))
    ∨ (∃ owner, t.codeName? scope wire = none ∧ t.wireName? scope code = some owner
        ∧ giveName scope wire t = (.error (.collides ⟨scope, code, owner, wire⟩), t))
    ∨ (t.codeName? scope wire = none ∧ t.wireName? scope code = none
        ∧ giveName scope wire t = (.ok code, t.add scope wire code)) := by
  cases hw : t.codeName? scope wire with
  | some known => exact .inl ⟨known, rfl, giveName_known hw⟩
  | none =>
    cases hc : t.wireName? scope code with
    | some owner => exact .inr (.inl ⟨owner, rfl, rfl, giveName_owned hcode hw hc⟩)
    | none => exact .inr (.inr ⟨rfl, rfl, giveName_free hcode hw hc⟩)

/-- A document gives no type a name. -/
theorem Program.sameTypes {act : Reading α} (h : Program act) (t : NameTable) :
    SameTypes t (act t).2 := by
  induction h generalizing t with
  | lift e _ => exact .refl t
  | give scope wire hscope =>
    obtain ⟨known, -, he⟩ | ⟨owner, -, -, he⟩ | ⟨-, -, he⟩ :=
      giveName_cases (rfl : identifier scope.kind wire = _) t
    · rw [he]; exact .refl t
    · rw [he]; exact .refl t
    · rw [he]
      intro s hs
      have hne : s ≠ scope := by
        rintro rfl
        exact hscope hs
      exact ⟨fun w => by simp [NameTable.codeName?_add, hne],
        fun c => by simp [NameTable.wireName?_add, hne]⟩
  | bind _ _ ihact ihf =>
    rename_i act f _ _
    rw [bind_apply]
    have hact := ihact t
    rcases he : act t with ⟨e | x, t₁⟩ <;> rw [he] at hact
    · exact hact
    · exact hact.trans (ihf x t₁)

/-- The owner that a collision names has the code name. -/
def Holds (t : NameTable) (c : Collision) : Prop :=
  t.codeName? c.scope c.existing = some c.codeName

theorem Holds.extend {t t' : NameTable} {c : Collision} (h : Holds t c) (he : t.Extends t') :
    Holds t' c := he _ _ _ h

/-- Who was refused the code name has it here. -/
structure Usurped (t : NameTable) (c : Collision) : Prop where
  given : t.codeName? c.scope c.incoming = some c.codeName
  other : c.existing ≠ c.incoming

theorem Usurped.extend {t t' : NameTable} {c : Collision} (h : Usurped t c) (he : t.Extends t') :
    Usurped t' c := ⟨he _ _ _ h.given, h.other⟩

theorem Usurped.not_holds {t : NameTable} (ht : t.TwoWay) {c : Collision} (h : Usurped t c) :
    ¬ Holds t c := fun hholds => h.other (ht.wire_unique hholds h.given)

/-- A collision that is reported names an owner whom the table knows. -/
theorem Program.owned {act : Reading α} (h : Program act) {t t' : NameTable} (ht : t.Sound)
    {c : Collision} (hact : act t = (.error (.collides c), t')) : Holds t' c := by
  induction h generalizing t t' with
  | lift e hplain =>
    have he : (e, t) = (.error (.collides c), t') := hact
    exact absurd (congrArg Prod.fst he) (hplain c)
  | give scope wire _ =>
    generalize hcode : identifier scope.kind wire = code
    obtain ⟨known, -, he⟩ | ⟨owner, -, howner, he⟩ | ⟨-, -, he⟩ := giveName_cases hcode t <;>
      rw [he] at hact <;> cases hact
    exact (ht.twoWay _ _ _).mpr howner
  | bind hprog hf ihact ihf =>
    rename_i act f
    rw [bind_apply] at hact
    rcases he : act t with ⟨e | x, t₁⟩ <;> rw [he] at hact
    · cases hact
      exact ihact ht he
    · exact ihf x (hprog.keeps.of_eq ht he).2 hact

/-- With more names before, an action either ends the same, or is refused a code name that it gets
without them. -/
def Parallel (act : Reading α) (t u : NameTable) : Prop :=
  ((act u).1 = (act t).1 ∧ (act t).2.Extends (act u).2)
    ∨ ∃ c, (act u).1 = .error (.collides c) ∧ Usurped (act t).2 c

theorem extends_add {t u : NameTable} (htu : t.Extends u) {scope : Scope} {wire code : String}
    (h : u.codeName? scope wire = some code) : (t.add scope wire code).Extends u := by
  intro s w c hname
  rw [NameTable.codeName?_add] at hname
  split at hname
  · rename_i hnew
    obtain ⟨rfl, rfl⟩ := hnew
    rw [h, hname]
  · exact htu s w c hname

theorem add_extends_add {t u : NameTable} (htu : t.Extends u) (scope : Scope) (wire code : String) :
    (t.add scope wire code).Extends (u.add scope wire code) := by
  intro s w c hname
  rw [NameTable.codeName?_add] at hname ⊢
  split at hname
  · rwa [if_pos (by assumption)]
  · rw [if_neg (by assumption)]
    exact htu s w c hname

theorem parallel_giveName {scope : Scope} (hscope : scope.kind ≠ .types) (wire : String)
    {t u : NameTable} (ht : t.Sound) (hu : u.Sound) (htu : t.Extends u) :
    Parallel (giveName scope wire) t u := by
  generalize hcode : identifier scope.kind wire = code
  have howner : ∀ {v : NameTable} {owner : String}, v.Sound → v.wireName? scope code = some owner →
      v.codeName? scope owner = some code := fun hv h => (hv.twoWay _ _ _).mpr h
  obtain ⟨known, hk, he⟩ | ⟨owner, hw, hc, he⟩ | ⟨hw, hc, he⟩ := giveName_cases hcode u
  · -- who is known with more names gets this code name also where it is new
    have hknown : known = code := (hu.spelled scope wire known hscope hk).trans hcode
    rw [hknown] at hk he
    refine .inl ?_
    obtain ⟨known', hk', he'⟩ | ⟨owner', hw', hc', -⟩ | ⟨-, -, he'⟩ := giveName_cases hcode t
    · have hsame := htu _ _ _ hk'
      rw [hk] at hsame
      cases hsame
      rw [he, he']
      exact ⟨rfl, htu⟩
    · have hsame := hu.twoWay.wire_unique (htu _ _ _ (howner ht hc')) hk
      rw [← hsame, howner ht hc'] at hw'
      cases hw'
    · rw [he, he']
      exact ⟨rfl, extends_add htu hk⟩
  · -- refused with more names: without them the owner is the same, or nobody is
    have howned := howner hu hc
    obtain ⟨known', hk', -⟩ | ⟨owner', -, hc', he'⟩ | ⟨-, -, he'⟩ := giveName_cases hcode t
    · rw [htu _ _ _ hk'] at hw
      cases hw
    · have hsame := hu.twoWay.wire_unique (htu _ _ _ (howner ht hc')) howned
      refine .inl ?_
      rw [he, he', hsame]
      exact ⟨rfl, htu⟩
    · refine .inr ⟨_, by rw [he], ?_, fun hsame => ?_⟩
      · rw [he']
        simp [NameTable.codeName?_add]
      · dsimp only at hsame
        rw [hsame, hw] at howned
        cases howned
  · refine .inl ?_
    obtain ⟨known', hk', -⟩ | ⟨owner', -, hc', -⟩ | ⟨-, -, he'⟩ := giveName_cases hcode t
    · rw [htu _ _ _ hk'] at hw
      cases hw
    · rw [(hu.twoWay _ _ _).mp (htu _ _ _ (howner ht hc'))] at hc
      cases hc
    · rw [he, he']
      exact ⟨rfl, add_extends_add htu _ _ _⟩

theorem Program.parallel {act : Reading α} (h : Program act) {t u : NameTable} (ht : t.Sound)
    (hu : u.Sound) (htu : t.Extends u) : Parallel act t u := by
  induction h generalizing t u with
  | lift e _ => exact .inl ⟨rfl, htu⟩
  | give scope wire hscope => exact parallel_giveName hscope wire ht hu htu
  | bind hprog hf ihact ihf =>
    rename_i act f
    unfold Parallel
    rw [bind_apply, bind_apply]
    have hboth := ihact ht hu htu
    unfold Parallel at hboth
    rcases hactu : act u with ⟨e | x, u₁⟩ <;> rcases hactt : act t with ⟨e' | x', t₁⟩ <;>
      rw [hactu, hactt] at hboth
    · obtain ⟨he, hext⟩ | ⟨c, hc, husurped⟩ := hboth
      · cases he
        exact .inl ⟨rfl, hext⟩
      · cases hc
        exact .inr ⟨c, rfl, husurped⟩
    · -- refused with more names only: what follows without them keeps what was given
      obtain ⟨he, -⟩ | ⟨c, hc, husurped⟩ := hboth
      · cases he
      · cases hc
        have hlater := (hf x').keeps t₁ (hprog.keeps.of_eq ht hactt).2
        exact .inr ⟨c, rfl, husurped.extend hlater.1⟩
    · obtain ⟨he, -⟩ | ⟨c, hc, -⟩ := hboth
      · cases he
      · cases hc
    · obtain ⟨he, hext⟩ | ⟨c, hc, -⟩ := hboth
      · cases he
        exact ihf x (hprog.keeps.of_eq ht hactt).2 (hprog.keeps.of_eq hu hactu).2 hext
      · cases hc

end RestForge.Schema
