import RestForge.Proofs.NamePrograms
import RestForge.Proofs.OutputPaths
import RestForge.Proofs.SchemaFormat
import RestForge.Proofs.TypeWords
import RestForge.Run.Generate

/-!
# The type names of a resource

* `codeNames_of_mem_tables`: the names that lead to a table are code names; `chain_of_key`: the key of
  a table tells which.
* `Adds`: the names that an action may add; `adds_resolve`: resolving adds what a resource registers.
* `resolve_ok`: the names that were resolved are those that the table then holds.
* `TypesAre`: what holds of every name of a type with its key; `typesAre_tableFrom`: it holds in a run
  if it holds of what is registered.
* `assemble_ok_iff`, `generateOne_fails_iff`: the files of a resource are written unless a type name
  is no identifier.
* `type_names_legal_unless_digit`: the type names of a resource are legal, but for digits in front.
-/

set_option autoImplicit false

namespace RestForge

open Naming Schema

/-! ## The names that lead to a table -/

theorem PlacedTable.chain_codeNames {p : PlacedTable} (hp : p.IsNamed)
    (hchain : ∀ name ∈ p.chain, CodeName name) :
    ∀ q ∈ p.walk, ∀ name ∈ q.chain, CodeName name := by
  induction p using PlacedTable.induct with
  | step p ih =>
    rw [walk_eq, List.forall_mem_cons]
    refine ⟨hchain, fun q hq => ?_⟩
    obtain ⟨c, hc, hq⟩ := List.mem_flatMap.mp hq
    refine ih c hc (hp.child hc) ?_ q hq
    obtain ⟨t, ht, rfl⟩ := List.mem_map.mp hc
    obtain ⟨f, hf, -, hcode⟩ := hp.here.field_of_child ht
    intro name hname
    obtain hname | hname := List.mem_append.mp hname
    · exact hchain name hname
    · rw [List.mem_singleton.mp hname, ← hcode, hp.here.spelled f hf]
      exact codeName_identifier _ _

theorem codeNames_of_mem_tables {steps : List NamingStep} {r : Resource}
    (h : r ∈ resourcesRead steps) {p : PlacedTable} (hp : p ∈ r.tables) :
    ∀ name ∈ r.modules ++ p.chain, CodeName name := by
  intro name hname
  obtain hname | hname := List.mem_append.mp hname
  · exact Run.spelled_of_mem_resourcesRead h name hname
  · exact PlacedTable.chain_codeNames (PlacedTable.isNamed_ofResource h) (by simp [PlacedTable.ofResource])
      p hp name hname

theorem chain_of_key {p q : PlacedTable} (hp : ∀ name ∈ p.chain, CodeName name)
    (hq : ∀ name ∈ q.chain, CodeName name) (h : p.key = q.key) : p.chain = q.chain := by
  -- code names are not empty and hold no `>`: a key can be cut, and only the root has the empty one
  have hcut : ∀ {chain : List String}, (∀ name ∈ chain, CodeName name) → chain ≠ [] →
      Text.split '>' (String.intercalate ">" chain) = chain := fun hchain hne =>
    Text.split_intercalate (fun name hname => (hchain name hname).notMem (by decide)) hne
  have hempty : ∀ {chain : List String}, (∀ name ∈ chain, CodeName name) →
      String.intercalate ">" chain = "" → chain = [] := by
    intro chain hchain he
    by_contra hne
    have hsplit := hcut hchain hne
    rw [he] at hsplit
    have hmem : "" ∈ chain := by
      rw [← hsplit]
      decide
    exact (hchain "" hmem).ne_empty rfl
  unfold PlacedTable.key at h
  by_cases hp' : p.chain = []
  · rw [hp'] at h ⊢
    exact (hempty hq h.symm).symm
  · by_cases hq' : q.chain = []
    · rw [hq'] at h ⊢
      exact hempty hp h
    · rw [← hcut hp hp', h, hcut hq hq']

namespace Naming

/-! ## Resolving -/

variable {ε α β : Type}

/-- Whatever the action adds, it registers in this scope under the key and the name of a
registration. -/
def Adds (scope : Scope) (regs : List Registration) (act : Action ε α) : Prop :=
  ∀ t s w c, (act t).2.codeName? s w = some c →
    t.codeName? s w = some c ∨ (s = scope ∧ ∃ reg ∈ regs, w = reg.key ∧ c = reg.name)

section Adds

variable {scope : Scope} {regs : List Registration}

theorem adds_pure (x : α) : Adds scope regs (pure x : Action ε α) := fun _ _ _ _ h => .inl h

theorem adds_register {reg : Registration} (h : reg ∈ regs) : Adds scope regs (register scope reg) := by
  intro t s w c hname
  obtain ⟨known, -, he⟩ | ⟨owner, -, -, he⟩ | ⟨-, -, he⟩ := t.record_cases scope reg.key reg.name <;>
    rw [register, he] at hname
  · exact .inl hname
  · exact .inl hname
  · rw [NameTable.codeName?_add] at hname
    split at hname
    · rename_i hnew
      cases hname
      exact .inr ⟨hnew.1, reg, h, hnew.2, rfl⟩
    · exact .inl hname

theorem adds_bind {act : Action ε α} {f : α → Action ε β} (hact : Adds scope regs act)
    (hf : ∀ x, Adds scope regs (f x)) : Adds scope regs (act >>= f) := by
  intro t s w c hname
  rw [bind_apply] at hname
  have hfirst := hact t s w c
  rcases he : act t with ⟨e | x, t₁⟩ <;> rw [he] at hname hfirst
  · exact hfirst hname
  · obtain hname | hreg := hf x t₁ s w c hname
    · exact hfirst hname
    · exact .inr hreg

theorem adds_mapM {act : α → Action ε β} {xs : List α} (hact : ∀ x ∈ xs, Adds scope regs (act x)) :
    Adds scope regs (xs.mapM act) := by
  induction xs with
  | nil => exact adds_pure _
  | cons x xs ih =>
    rw [List.mapM_cons]
    refine adds_bind (hact x (by simp)) fun y => ?_
    exact adds_bind (ih fun x hx => hact x (List.mem_cons_of_mem _ hx)) fun ys => adds_pure _

end Adds

theorem adds_resolve (r : Resource) :
    Adds (Scope.types r.dottedPath) (registrations r) (resolve r) := by
  refine adds_bind (adds_mapM fun p hp => ?_) fun pairs => adds_pure _
  have hmem : ∀ reg ∈ [modelRegistration r.modules p, clientRegistration r.modules p],
      reg ∈ registrations r := fun reg hreg => List.mem_flatMap.mpr ⟨p, hp, hreg⟩
  refine adds_bind (adds_register (hmem _ (by simp))) fun model => ?_
  exact adds_bind (adds_register (hmem _ (by simp))) fun client => adds_pure _

theorem of_mem_registrations {r : Resource} {reg : Registration} (h : reg ∈ registrations r) :
    ∃ p ∈ r.tables,
      (reg.key = "model:" ++ p.key ∧ reg.name = typeName (r.modules ++ p.chain))
      ∨ (reg.key = "client:" ++ p.key ∧ reg.name = typeName (r.modules ++ p.chain) ++ "Client") := by
  obtain ⟨p, hp, hreg⟩ := List.mem_flatMap.mp h
  simp only [List.mem_cons, List.not_mem_nil, or_false] at hreg
  refine ⟨p, hp, hreg.imp (fun he => ?_) fun he => ?_⟩
  · constructor <;> rw [he, modelRegistration]
  · constructor <;> rw [he, clientRegistration]

theorem register_ok {scope : Scope} {reg : Registration} {name : String} {t t' : NameTable}
    (h : register scope reg t = (.ok name, t')) : t'.codeName? scope reg.key = some name := by
  rw [register] at h
  have hgiven : (t.record scope reg.key reg.name).1 = .ok name →
      (t.record scope reg.key reg.name).2.codeName? scope reg.key = some name :=
    t.codeName?_of_record
  rw [h] at hgiven
  exact hgiven rfl

/-- The table has the two names under the key of theirs. -/
def Registered (t : NameTable) (scope : Scope) (entry : String × TypePair) : Prop :=
  t.codeName? scope ("model:" ++ entry.1) = some entry.2.model
    ∧ t.codeName? scope ("client:" ++ entry.1) = some entry.2.client

theorem Registered.extend {t t' : NameTable} (he : t.Extends t') {scope : Scope}
    {entry : String × TypePair} (h : Registered t scope entry) : Registered t' scope entry :=
  ⟨he _ _ _ h.1, he _ _ _ h.2⟩

theorem keeps_resolveTable (resource : String) (modules : List String) (p : PlacedTable) :
    Keeps (resolveTable (Scope.types resource) modules p) :=
  keeps_bind (keeps_register _ _) fun _ => keeps_bind (keeps_register _ _) fun _ => keeps_pure _

theorem resolveTable_ok {resource : String} {modules : List String} {p : PlacedTable}
    {entry : String × TypePair} {t t' : NameTable} (ht : t.Sound)
    (h : resolveTable (Scope.types resource) modules p t = (.ok entry, t')) :
    entry.1 = p.key ∧ Registered t' (Scope.types resource) entry := by
  obtain ⟨model, t₁, hmodel, h⟩ := bind_ok h
  obtain ⟨client, t₂, hclient, h⟩ := bind_ok h
  obtain ⟨rfl, rfl⟩ := pure_ok h
  obtain ⟨-, ht₁⟩ := (keeps_register _ _).of_eq ht hmodel
  obtain ⟨hext, -⟩ := (keeps_register _ _).of_eq ht₁ hclient
  exact ⟨rfl, hext _ _ _ (register_ok hmodel), register_ok hclient⟩

theorem resolveTables_ok {resource : String} {modules : List String} {tables : List PlacedTable}
    {entries : List (String × TypePair)} {t t' : NameTable} (ht : t.Sound)
    (h : tables.mapM (resolveTable (Scope.types resource) modules) t = (.ok entries, t')) :
    entries.map Prod.fst = tables.map PlacedTable.key
      ∧ ∀ entry ∈ entries, Registered t' (Scope.types resource) entry := by
  induction tables generalizing entries t with
  | nil =>
    obtain ⟨rfl, -⟩ := pure_ok h
    exact ⟨rfl, by simp⟩
  | cons p tables ih =>
    rw [List.mapM_cons] at h
    obtain ⟨entry, t₁, hentry, h⟩ := bind_ok h
    obtain ⟨rest, t₂, hrest, h⟩ := bind_ok h
    obtain ⟨rfl, rfl⟩ := pure_ok h
    obtain ⟨-, ht₁⟩ := (keeps_resolveTable _ _ _).of_eq ht hentry
    obtain ⟨hext, -⟩ := (keeps_mapM (keeps_resolveTable resource modules) tables).of_eq ht₁ hrest
    obtain ⟨hkey, hregistered⟩ := resolveTable_ok ht hentry
    obtain ⟨hkeys, hall⟩ := ih ht₁ hrest
    refine ⟨?_, List.forall_mem_cons.mpr ⟨hregistered.extend hext, hall⟩⟩
    rw [List.map_cons, List.map_cons, hkey, hkeys]

theorem resolve_ok {r : Resource} {names : TypeNames} {t t' : NameTable} (ht : t.Sound)
    (h : resolve r t = (.ok names, t')) {p : PlacedTable} (hp : p ∈ r.tables) :
    names.pair? p = some ⟨names.model p, names.client p⟩
      ∧ Registered t' (Scope.types r.dottedPath) (p.key, ⟨names.model p, names.client p⟩) := by
  obtain ⟨entries, t₁, hentries, h⟩ := bind_ok h
  obtain ⟨rfl, rfl⟩ := pure_ok h
  obtain ⟨hkeys, hall⟩ := resolveTables_ok ht hentries
  have hmem : p.key ∈ entries.map Prod.fst := by
    rw [hkeys]
    exact List.mem_map_of_mem hp
  cases hlookup : entries.lookup p.key with
  | none =>
    obtain ⟨entry, hentry, he⟩ := List.mem_map.mp hmem
    have hne := List.lookup_eq_none_iff.mp hlookup entry hentry
    simp [he] at hne
  | some pair =>
    obtain ⟨before, after, rfl, -⟩ := List.lookup_eq_some_iff.mp hlookup
    have hpair : (⟨before ++ (p.key, pair) :: after⟩ : TypeNames).pair? p = some pair := hlookup
    have hmodel : (⟨before ++ (p.key, pair) :: after⟩ : TypeNames).model p = pair.model := by
      rw [TypeNames.model, hpair]
    have hclient : (⟨before ++ (p.key, pair) :: after⟩ : TypeNames).client p = pair.client := by
      rw [TypeNames.client, hpair]
    rw [hmodel, hclient]
    exact ⟨hpair, hall _ (by simp)⟩

theorem ofResource_mem_tables (r : Resource) : PlacedTable.ofResource r ∈ r.tables := by
  rw [Resource.tables, PlacedTable.walk_eq]
  exact List.mem_cons_self

theorem rootPair_of_resolve {r : Resource} {names : TypeNames} {t t' : NameTable} (ht : t.Sound)
    (h : resolve r t = (.ok names, t')) : names.rootPair
      = ⟨names.model (PlacedTable.ofResource r), names.client (PlacedTable.ofResource r)⟩ := by
  obtain ⟨hpair, -⟩ := resolve_ok ht h (ofResource_mem_tables r)
  have hkey : names.byKey.lookup "" = names.pair? (PlacedTable.ofResource r) := rfl
  rw [TypeNames.rootPair, hkey, hpair]
  rfl

theorem roles_apart (a b : String) : "model:" ++ a ≠ "client:" ++ b := by
  intro he
  have hhead := congrArg (fun s => s.toList.head?) he
  simp [String.toList_append] at hhead

/-- Where no type of the resource had a name before, each gets the one that is asked for. -/
theorem resolve_fresh {r : Resource} {names : TypeNames} {t t' : NameTable} (ht : t.Sound)
    (hcode : ∀ p ∈ r.tables, ∀ name ∈ r.modules ++ p.chain, CodeName name)
    (hfresh : ∀ key, t.codeName? (Scope.types r.dottedPath) key = none)
    (h : resolve r t = (.ok names, t')) {p : PlacedTable} (hp : p ∈ r.tables) :
    names.model p = typeName (r.modules ++ p.chain)
      ∧ names.client p = typeName (r.modules ++ p.chain) ++ "Client" := by
  obtain ⟨-, hmodel, hclient⟩ := resolve_ok ht h hp
  have hadds := adds_resolve r t (Scope.types r.dottedPath)
  rw [h] at hadds
  dsimp only at hmodel hclient
  have hchain : ∀ {role : String} {q : PlacedTable}, q ∈ r.tables → role ++ p.key = role ++ q.key →
      p.chain = q.chain := by
    intro role q hq he
    have hlists := congrArg String.toList he
    rw [String.toList_append, String.toList_append] at hlists
    exact chain_of_key (fun name hname => hcode p hp name (List.mem_append_right _ hname))
      (fun name hname => hcode q hq name (List.mem_append_right _ hname))
      (String.toList_injective (List.append_cancel_left hlists))
  -- nothing was there before, so that each name comes from a registration under the same key
  constructor
  · obtain hold | ⟨-, reg, hreg, hkey, hname⟩ := hadds _ _ hmodel
    · rw [hfresh] at hold
      cases hold
    · obtain ⟨q, hq, ⟨hqkey, hqname⟩ | ⟨hqkey, -⟩⟩ := of_mem_registrations hreg <;>
        rw [hqkey] at hkey
      · rw [hname, hqname, hchain hq hkey]
      · exact absurd hkey (roles_apart _ _)
  · obtain hold | ⟨-, reg, hreg, hkey, hname⟩ := hadds _ _ hclient
    · rw [hfresh] at hold
      cases hold
    · obtain ⟨q, hq, ⟨hqkey, -⟩ | ⟨hqkey, hqname⟩⟩ := of_mem_registrations hreg <;>
        rw [hqkey] at hkey
      · exact absurd hkey.symm (roles_apart _ _)
      · rw [hname, hqname, hchain hq hkey]

theorem tables_flat {r : Resource} (hflat : r.children = []) :
    r.tables = [PlacedTable.ofResource r] := by
  rw [Resource.tables, PlacedTable.walk_eq, PlacedTable.childTables, PlacedTable.ofResource, hflat]
  rfl

/-- A resource without nested tables has two names; whether they are new or not, they are the ones that
are asked for. -/
theorem resolve_flat {r : Resource} {name : String} {t t₁ t₂ : NameTable} (hflat : r.children = [])
    (hname : typeName r.modules = name)
    (hmodel : t.record (Scope.types r.dottedPath) "model:" name = (.ok name, t₁))
    (hclient : t₁.record (Scope.types r.dottedPath) "client:" (name ++ "Client")
      = (.ok (name ++ "Client"), t₂)) :
    resolve r t = (.ok ⟨[("", ⟨name, name ++ "Client"⟩)]⟩, t₂) := by
  have hmodelNamed : modelRegistration r.modules (PlacedTable.ofResource r) = ⟨"model:", name⟩ := by
    rw [modelRegistration, PlacedTable.ofResource, List.append_nil, hname]
    rfl
  have hclientNamed : clientRegistration r.modules (PlacedTable.ofResource r)
      = ⟨"client:", name ++ "Client"⟩ := by
    rw [clientRegistration, PlacedTable.ofResource, List.append_nil, hname]
    rfl
  have hentry : resolveTable (Scope.types r.dottedPath) r.modules (PlacedTable.ofResource r) t
      = (.ok ("", ⟨name, name ++ "Client"⟩), t₂) := by
    rw [resolveTable, hmodelNamed, hclientNamed]
    exact (ok_bind hmodel).trans ((ok_bind hclient).trans rfl)
  rw [resolve, tables_flat hflat]
  have hentries : [PlacedTable.ofResource r].mapM
      (resolveTable (Scope.types r.dottedPath) r.modules) t
        = (.ok [("", ⟨name, name ++ "Client"⟩)], t₂) := by
    rw [List.mapM_cons]
    exact (ok_bind hentry).trans rfl
  exact (ok_bind hentries).trans rfl

/-! ## Runs -/

/-- Every name that was given to a type has the property, together with its key. -/
def TypesAre (Q : String → String → Prop) (t : NameTable) : Prop :=
  ∀ s w c, s.kind = .types → t.codeName? s w = some c → Q w c

section TypesAre

variable {Q : String → String → Prop}

theorem typesAre_empty : TypesAre Q .empty := by
  intro s w c _ h
  rw [NameTable.codeName?_empty] at h
  cases h

theorem TypesAre.resolve {t : NameTable} (ht : TypesAre Q t) {r : Resource}
    (h : ∀ reg ∈ registrations r, Q reg.key reg.name) : TypesAre Q (resolve r t).2 := by
  intro s w c hs hname
  obtain hold | ⟨-, reg, hreg, rfl, rfl⟩ := adds_resolve r t s w c hname
  · exact ht s w c hs hold
  · exact h reg hreg

/-- The names of types come from the registrations of the resources that a run resolves. -/
theorem typesAre_tableFrom {steps : List NamingStep} {t : NameTable} (ht : TypesAre Q t)
    (h : ∀ r, .resolve r ∈ steps → ∀ reg ∈ registrations r, Q reg.key reg.name) :
    TypesAre Q (tableFrom t steps) := by
  induction steps generalizing t with
  | nil => exact ht
  | cons step steps ih =>
    have hrest := fun r hr => h r (List.mem_cons_of_mem _ hr)
    refine ih ?_ hrest
    cases step with
    | read limit doc =>
      intro s w c hs hname
      have hsame := ((program_readResource limit doc).sameTypes t s hs).1 w
      exact ht s w c hs (hsame.trans hname)
    | resolve r => exact ht.resolve (h r List.mem_cons_self)

end TypesAre

theorem typeWord_of_registration {r : Resource}
    (h : ∀ p ∈ r.tables, ∀ name ∈ r.modules ++ p.chain, CodeName name) :
    ∀ reg ∈ registrations r, TypeWord reg.name := by
  intro reg hreg
  obtain ⟨p, hp, ⟨-, hname⟩ | ⟨-, hname⟩⟩ := of_mem_registrations hreg <;> rw [hname]
  · exact typeWord_typeName (h p hp)
  · exact (typeWord_typeName (h p hp)).client

end Naming

namespace Emit

/-! ## Files of a resource -/

theorem checkNames_ok_iff {names : List String} :
    checkNames names = .ok () ↔ ∀ name ∈ names, isIdentifier name = true := by
  induction names with
  | nil => simp [checkNames]
  | cons name names ih =>
    rw [checkNames, List.forall_mem_cons, ← ih]
    by_cases hname : isIdentifier name = true <;> simp [hname]

theorem artifact_ok_iff {r : Resource} {names : TypeNames} {k : ArtifactKind} :
    (∃ a, artifact r names k = .ok a) ↔ ∀ name ∈ namesIn r names k, isIdentifier name = true := by
  rw [← checkNames_ok_iff, artifact, source]
  cases checkNames (namesIn r names k) with
  | error e => simp [bind, Except.bind]
  | ok u => simp [bind, Except.bind, pure, Except.pure]

theorem exists_mapM_ok_iff {ε α β : Type} {f : α → Except ε β} {xs : List α} :
    (∃ ys, xs.mapM f = .ok ys) ↔ ∀ x ∈ xs, ∃ y, f x = .ok y := by
  induction xs with
  | nil => simp [pure, Except.pure]
  | cons x xs ih =>
    rw [List.mapM_cons, List.forall_mem_cons, ← ih]
    simp only [except_bind_ok_iff]
    constructor
    · rintro ⟨_, y, hy, ys, hys, -⟩
      exact ⟨⟨y, hy⟩, ys, hys⟩
    · rintro ⟨⟨y, hy⟩, ys, hys⟩
      exact ⟨_, y, hy, ys, hys, rfl⟩

/-- The type names in the files of a resource are those of its tables. -/
theorem assemble_ok_iff {r : Resource} {names : TypeNames}
    (hroot : names.rootPair
      = ⟨names.model (PlacedTable.ofResource r), names.client (PlacedTable.ofResource r)⟩) :
    (∃ artifacts, assemble r names = .ok artifacts) ↔
      ∀ p ∈ r.tables, ∀ name ∈ [names.model p, names.client p], isIdentifier name = true := by
  have hmodel : (∀ p ∈ r.tables, ∀ name ∈ [names.model p, names.client p],
      isIdentifier name = true) → ∀ p ∈ r.tables, isIdentifier (names.model p) = true :=
    fun h p hp => h p hp _ (by simp)
  have hclient : (∀ p ∈ r.tables, ∀ name ∈ [names.model p, names.client p],
      isIdentifier name = true) → ∀ p ∈ r.tables, isIdentifier (names.client p) = true :=
    fun h p hp => h p hp _ (by simp)
  rw [assemble, exists_mapM_ok_iff]
  constructor
  · intro h p hp name hname
    have hfile := artifact_ok_iff.mp (h .client (by decide))
    refine hfile name (List.mem_flatMap.mpr ⟨p, hp, ?_⟩)
    simpa [or_comm] using hname
  · intro h k _
    refine artifact_ok_iff.mpr fun name hname => ?_
    cases k with
    | model =>
      obtain ⟨p, hp, rfl⟩ := List.mem_map.mp hname
      exact hmodel h p hp
    | client =>
      obtain ⟨p, hp, hname⟩ := List.mem_flatMap.mp hname
      exact h p hp name (by simpa [or_comm] using hname)
    | validators => cases hname
    | tests =>
      refine h _ (ofResource_mem_tables r) name ?_
      simpa [namesIn, TypeNames.rootClient, TypeNames.rootModel, hroot, or_comm] using hname

end Emit

namespace Run

variable {config : Config} {r : Resource} {names : TypeNames} {t t' : NameTable}

theorem generateOne_eq (h : resolve r t = (.ok names, t')) (w : World) :
    generateOne config r t w = match Emit.assemble r names with
      | .error e => (.error (.illegalName e), w)
      | .ok artifacts => ((.ok ((writeResource config r names artifacts w).1, t')),
          (writeResource config r names artifacts w).2) := by
  unfold generateOne
  simp only [h]
  cases Emit.assemble r names with
  | error e => rfl
  | ok artifacts => rfl

theorem generateOne_fails_iff (h : resolve r t = (.ok names, t')) (w : World) :
    (∃ e w', generateOne config r t w = (.error e, w'))
      ↔ ¬ ∃ artifacts, Emit.assemble r names = .ok artifacts := by
  rw [generateOne_eq h]
  cases Emit.assemble r names with
  | error e => exact iff_of_true ⟨_, _, rfl⟩ (by simp)
  | ok artifacts =>
    refine iff_of_false ?_ (by simp)
    rintro ⟨e, w', he⟩
    cases congrArg Prod.fst he

/-! ## Legal type names -/

/-- **The type names of a resource are legal, but for digits in front.** In a run that resolves only
resources that it has read, whatever names a resource gets for its models and clients, such a name is
legal exactly if it begins with no digit; generating the resource dies exactly if one of them begins
with a digit; and in a scope of its own the names of a table do so exactly if the code names that lead
to it begin with a digit behind their underscores. -/
theorem type_names_legal_unless_digit {steps : List NamingStep} {r : Resource} {names : TypeNames}
    {t : NameTable} (hr : r ∈ resourcesRead steps)
    (hresolved : ∀ r', .resolve r' ∈ steps → r' ∈ resourcesRead steps)
    (hnames : resolve r (tableFrom .empty steps) = (.ok names, t)) :
    (∀ p ∈ r.tables, ∀ name ∈ [names.model p, names.client p],
      IsLegalType name ↔ startsWithDigit name = false)
    ∧ (∀ config w, (∃ e w', generateOne config r (tableFrom .empty steps) w = (.error e, w'))
      ↔ ∃ p ∈ r.tables, ∃ name ∈ [names.model p, names.client p], startsWithDigit name = true)
    ∧ ((∀ key, (tableFrom .empty steps).codeName? (Scope.types r.dottedPath) key = none) →
      ∀ p ∈ r.tables, ∀ name ∈ [names.model p, names.client p],
        startsWithDigit name = true ↔ DigitFirst (r.modules ++ p.chain)) := by
  have ht := sound_tableFrom_empty steps
  have hcode : ∀ p ∈ r.tables, ∀ name ∈ r.modules ++ p.chain, CodeName name :=
    fun p hp => codeNames_of_mem_tables hr hp
  have hwords : TypesAre (fun _ c => TypeWord c) t := by
    have hbefore : TypesAre (fun _ c => TypeWord c) (tableFrom .empty steps) :=
      typesAre_tableFrom typesAre_empty fun r' hr' =>
        typeWord_of_registration fun p hp => codeNames_of_mem_tables (hresolved r' hr') hp
    have hafter := hbefore.resolve (typeWord_of_registration hcode)
    rwa [hnames] at hafter
  have hword : ∀ p ∈ r.tables, ∀ name ∈ [names.model p, names.client p], TypeWord name := by
    intro p hp name hname
    obtain ⟨-, hmodel, hclient⟩ := resolve_ok ht hnames hp
    simp only [List.mem_cons, List.not_mem_nil, or_false] at hname
    obtain rfl | rfl := hname
    · exact hwords _ _ _ rfl hmodel
    · exact hwords _ _ _ rfl hclient
  have hroot := rootPair_of_resolve ht hnames
  refine ⟨fun p hp name hname => (hword p hp name hname).isLegalType_iff, fun config w => ?_,
    fun hfresh p hp name hname => ?_⟩
  · rw [generateOne_fails_iff hnames w, Emit.assemble_ok_iff hroot]
    push Not
    refine exists_congr fun p => and_congr_right fun hp => exists_congr fun name =>
      and_congr_right fun hname => ?_
    have hlegal := (hword p hp name hname).isIdentifier_iff
    cases hdigit : startsWithDigit name <;> simp [hlegal, hdigit]
  · obtain ⟨hmodel, hclient⟩ := resolve_fresh ht hcode hfresh hnames hp
    have hdigit := startsWithDigit_typeName (hcode p hp)
    simp only [List.mem_cons, List.not_mem_nil, or_false] at hname
    obtain rfl | rfl := hname
    · rw [hmodel, hdigit]
    · rw [hclient, startsWithDigit_client (typeWord_typeName (hcode p hp)), hdigit]

/-! ## A digit behind an underscore -/

def modemDocument : Json :=
  .object [("category", .string "config"), ("methods", .strings ["GET"]), ("path", .string "_5g")]

def modemResource : Resource := ⟨.config, ["_5g"], ["_5g"], none, none, [], [], [.get]⟩

def modemNames : TypeNames := ⟨[("", ⟨"5g", "5gClient"⟩)]⟩

/-- The table after the document was read. -/
def modemTable : NameTable := NameTable.empty.add (Scope.modules "config") "_5g" "_5g"

theorem modemDocument_read : readResource 4 modemDocument .empty = (.ok modemResource, modemTable) := by
  have hmodules : readModules "config" ["_5g"] .empty = (.ok ["_5g"], modemTable) :=
    readModules_single (by decide) (by simp) (by simp)
  refine (lift_ok_bind rfl).trans ?_
  refine (lift_ok_bind (x := (⟨.config, ["_5g"], [.get]⟩ : Header)) rfl).trans ?_
  exact (ok_bind hmodules).trans rfl

theorem modemResource_read (later : List NamingStep) :
    modemResource ∈ resourcesRead (.read 4 modemDocument :: later) := by
  have hread : (NamingStep.read 4 modemDocument).resource? .empty = some modemResource := by
    rw [NamingStep.resource?, modemDocument_read]
    rfl
  rw [resourcesRead, resourcesFrom, hread]
  exact List.mem_cons_self

theorem modem_dottedPath : modemResource.dottedPath = "config._5g" := by decide

theorem modem_typeName : typeName modemResource.modules = "5g" := by decide

def resolvedTable : NameTable :=
  (modemTable.add (Scope.types "config._5g") "model:" "5g").add (Scope.types "config._5g") "client:"
    "5gClient"

theorem modemTable_resolve : resolve modemResource modemTable = (.ok modemNames, resolvedTable) := by
  refine resolve_flat rfl modem_typeName (NameTable.record_free ?_ ?_)
    (NameTable.record_free ?_ ?_) <;>
    simp [modemTable, Scope.types, Scope.modules, NameTable.codeName?_add, NameTable.wireName?_add]

theorem tableFrom_modem : tableFrom .empty [.read 4 modemDocument] = modemTable := by
  rw [tableFrom, List.foldl_cons, List.foldl_nil, NamingStep.perform, modemDocument_read]

/-- The name of the module begins with an underscore and no digit, the name of the type with the
digit: the resource is read and its names are given, and generating it dies. -/
theorem modem_type_name_illegal :
    modemResource ∈ resourcesRead [.read 4 modemDocument]
      ∧ ∃ names t, resolve modemResource (tableFrom .empty [.read 4 modemDocument]) = (.ok names, t)
        ∧ names.model (PlacedTable.ofResource modemResource) = "5g" ∧ ¬ IsLegalType "5g"
        ∧ ∀ config w, ∃ e w', generateOne config modemResource
            (tableFrom .empty [.read 4 modemDocument]) w = (.error e, w') := by
  have hillegal : isIdentifier "5g" = false := by decide
  rw [tableFrom_modem]
  refine ⟨modemResource_read [], modemNames, _, modemTable_resolve, rfl, ?_, fun config w => ?_⟩
  · intro hlegal
    rw [IsLegalType, hillegal] at hlegal
    cases hlegal.1
  · rw [generateOne_fails_iff modemTable_resolve w]
    rintro ⟨artifacts, hartifacts⟩
    cases hartifacts

/-- So it is for every later resolution of the same resource. -/
theorem type_names_legal_unless_digit_modem :
    modemResource ∈ resourcesRead [.read 4 modemDocument, .resolve modemResource]
      ∧ (∀ r, .resolve r ∈ [NamingStep.read 4 modemDocument, .resolve modemResource] →
        r ∈ resourcesRead [.read 4 modemDocument, .resolve modemResource])
      ∧ ∃ names t, resolve modemResource
          (tableFrom .empty [.read 4 modemDocument, .resolve modemResource]) = (.ok names, t)
        ∧ (∀ p ∈ modemResource.tables, ∀ name ∈ [names.model p, names.client p],
          IsLegalType name ↔ startsWithDigit name = false)
        ∧ ∀ config w, (∃ e w', generateOne config modemResource
            (tableFrom .empty [.read 4 modemDocument, .resolve modemResource]) w = (.error e, w'))
          ↔ ∃ p ∈ modemResource.tables, ∃ name ∈ [names.model p, names.client p],
            startsWithDigit name = true := by
  have htable : tableFrom .empty [.read 4 modemDocument, .resolve modemResource] = resolvedTable := by
    have happend := tableFrom_modem
    rw [tableFrom, List.foldl_cons, List.foldl_nil] at happend
    rw [tableFrom, List.foldl_cons, List.foldl_cons, List.foldl_nil, happend, NamingStep.perform,
      modemTable_resolve]
  have hresolve : resolve modemResource
      (tableFrom .empty [.read 4 modemDocument, .resolve modemResource])
        = (.ok modemNames, resolvedTable) := by
    rw [htable]
    refine resolve_flat rfl modem_typeName (NameTable.record_known _ ?_)
      (NameTable.record_known _ ?_) <;>
      simp [resolvedTable, NameTable.codeName?_add, modem_dottedPath]
  have honly : ∀ r, .resolve r ∈ [NamingStep.read 4 modemDocument, .resolve modemResource] →
      r ∈ resourcesRead [.read 4 modemDocument, .resolve modemResource] := by
    intro r hr
    simp only [List.mem_cons, List.not_mem_nil, reduceCtorEq, NamingStep.resolve.injEq, false_or,
      or_false] at hr
    rw [hr]
    exact modemResource_read _
  obtain ⟨hlegal, hdies, -⟩ := type_names_legal_unless_digit (modemResource_read _) honly hresolve
  exact ⟨modemResource_read _, honly, modemNames, _, hresolve, hlegal, hdies⟩

end Run

end RestForge
