import RestForge.Proofs.References

/-!
# Registering the types of a resource

The type names of a resource are registered one after another, each under the key of its table and its
role. In a scope that was empty before, the first name that is asked for a second time ends this.

* `HoldsJust`: a scope holds certain registrations and nothing else; `register_new`,
  `register_taken`, `register_held`: one more registration.
* `FirstTaken`: the first registration whose name an earlier one has; `registerAll_outcome`: a list of
  registrations either goes through or stops there.
* `resolve_eq`: resolving is registering all names and putting them to their tables.
* `askedNames`, `nodup_keys`: the names that a resource asks for, and their keys, which are different.
* `type_names_outcome`: the outcome for a resource that was read.
-/

set_option autoImplicit false

namespace RestForge.Naming

/-! ## One registration -/

/-- In both look-ups the scope holds these registrations, and nothing else. -/
structure HoldsJust (t : NameTable) (s : Scope) (regs : List Registration) : Prop where
  code : ∀ key name, t.codeName? s key = some name ↔ ⟨key, name⟩ ∈ regs
  wire : ∀ key name, t.wireName? s name = some key ↔ ⟨key, name⟩ ∈ regs

section One

variable {t : NameTable} {s : Scope} {held : List Registration}

theorem holdsJust_nil (h : SameIn s t .empty) : HoldsJust t s [] := by
  constructor
  · intro key name
    simp [h.1 key]
  · intro key name
    simp [h.2 name]

theorem HoldsJust.code_none (h : HoldsJust t s held) {key : String}
    (hkey : key ∉ held.map Registration.key) : t.codeName? s key = none := by
  rw [Option.eq_none_iff_forall_ne_some]
  intro name hname
  exact hkey (List.mem_map.mpr ⟨_, (h.code key name).mp hname, rfl⟩)

theorem HoldsJust.wire_none (h : HoldsJust t s held) {name : String}
    (hname : name ∉ held.map Registration.name) : t.wireName? s name = none := by
  rw [Option.eq_none_iff_forall_ne_some]
  intro key hkey
  exact hname (List.mem_map.mpr ⟨_, (h.wire key name).mp hkey, rfl⟩)

/-- A new name under a new key is given and held. -/
theorem HoldsJust.register_new (h : HoldsJust t s held) {reg : Registration}
    (hkey : reg.key ∉ held.map Registration.key) (hname : reg.name ∉ held.map Registration.name) :
    register s reg t = (.ok reg.name, t.add s reg.key reg.name)
      ∧ HoldsJust (t.add s reg.key reg.name) s (held ++ [reg]) := by
  have hfree : register s reg t = _ := NameTable.record_free (h.code_none hkey) (h.wire_none hname)
  refine ⟨hfree, fun key name => ?_, fun key name => ?_⟩
  · rw [NameTable.codeName?_add, List.mem_append, List.mem_singleton]
    by_cases he : key = reg.key
    · subst he
      have hnot : (⟨reg.key, name⟩ : Registration) ∉ held := fun hmem =>
        hkey (List.mem_map.mpr ⟨_, hmem, rfl⟩)
      rw [if_pos ⟨rfl, rfl⟩]
      constructor
      · rintro ⟨⟩
        exact .inr rfl
      · intro hmem
        exact congrArg (some ∘ Registration.name) (hmem.resolve_left hnot).symm
    · rw [if_neg fun hboth => he hboth.2, h.code]
      exact ⟨.inl, fun hmem => hmem.resolve_right fun hreg => he (congrArg Registration.key hreg)⟩
  · rw [NameTable.wireName?_add, List.mem_append, List.mem_singleton]
    by_cases he : name = reg.name
    · subst he
      have hnot : (⟨key, reg.name⟩ : Registration) ∉ held := fun hmem =>
        hname (List.mem_map.mpr ⟨_, hmem, rfl⟩)
      rw [if_pos ⟨rfl, rfl⟩]
      constructor
      · rintro ⟨⟩
        exact .inr rfl
      · intro hmem
        exact congrArg (some ∘ Registration.key) (hmem.resolve_left hnot).symm
    · rw [if_neg fun hboth => he hboth.2, h.wire]
      exact ⟨.inl, fun hmem => hmem.resolve_right fun hreg => he (congrArg Registration.name hreg)⟩

/-- A name that is held is refused under a new key, and the collision names its key. -/
theorem HoldsJust.register_taken (h : HoldsJust t s held) {reg owner : Registration}
    (hkey : reg.key ∉ held.map Registration.key) (howner : owner ∈ held)
    (hname : owner.name = reg.name) :
    register s reg t = (.error ⟨s, reg.name, owner.key, reg.key⟩, t) := by
  refine NameTable.record_owned (h.code_none hkey) ((h.wire _ _).mpr ?_)
  rw [← hname]
  exact howner

/-- What is held is given again, and nothing new is recorded. -/
theorem HoldsJust.register_held (h : HoldsJust t s held) {reg : Registration} (hreg : reg ∈ held) :
    register s reg t = (.ok reg.name, t) :=
  NameTable.record_known _ ((h.code _ _).mpr hreg)

end One

/-! ## All registrations -/

/-- The collision of the first registration whose name is taken: those before it have names of their
own, and one of them is the owner. -/
def FirstTaken (s : Scope) (regs : List Registration) (c : Collision) : Prop :=
  ∃ before reg after owner, regs = before ++ reg :: after
    ∧ (before.map Registration.name).Nodup ∧ owner ∈ before ∧ owner.name = reg.name
    ∧ c = ⟨s, reg.name, owner.key, reg.key⟩

theorem FirstTaken.not_nodup {s : Scope} {regs : List Registration} {c : Collision}
    (h : FirstTaken s regs c) : ¬(regs.map Registration.name).Nodup := by
  obtain ⟨before, reg, after, owner, rfl, -, howner, hname, -⟩ := h
  rw [List.map_append, List.map_cons]
  intro hnodup
  have hapart := (List.nodup_append.mp hnodup).2.2
  exact hapart _ (List.mem_map_of_mem howner) _ List.mem_cons_self hname

/-- On the registrations that are left, with those that are held in front of them. -/
theorem registerAll_outcome {t : NameTable} {s : Scope} {held regs : List Registration}
    (h : HoldsJust t s held) (hkeys : ((held ++ regs).map Registration.key).Nodup)
    (hnames : (held.map Registration.name).Nodup) :
    (((held ++ regs).map Registration.name).Nodup
      ∧ ∃ t', regs.mapM (register s) t = (.ok (regs.map Registration.name), t')
        ∧ HoldsJust t' s (held ++ regs))
    ∨ ∃ c, FirstTaken s (held ++ regs) c ∧ (regs.mapM (register s) t).1 = .error c := by
  induction regs generalizing t held with
  | nil =>
    rw [List.append_nil]
    exact .inl ⟨hnames, t, rfl, h⟩
  | cons reg regs ih =>
    have hkey : reg.key ∉ held.map Registration.key := by
      intro hmem
      rw [List.map_append, List.map_cons] at hkeys
      exact (List.nodup_append.mp hkeys).2.2 _ hmem _ List.mem_cons_self rfl
    rw [List.mapM_cons]
    by_cases hname : reg.name ∈ held.map Registration.name
    · obtain ⟨owner, howner, he⟩ := List.mem_map.mp hname
      refine .inr ⟨_, ⟨held, reg, regs, owner, rfl, hnames, howner, he, rfl⟩, ?_⟩
      rw [error_bind (h.register_taken hkey howner he)]
    · obtain ⟨hgiven, hheld⟩ := h.register_new hkey hname
      have hnames' : ((held ++ [reg]).map Registration.name).Nodup := by
        rw [List.map_append, List.map_singleton, ← List.concat_eq_append]
        exact (List.nodup_concat _ _).mpr ⟨hname, hnames⟩
      have happend : held ++ reg :: regs = held ++ [reg] ++ regs := by
        rw [List.append_assoc, List.singleton_append]
      rw [happend] at hkeys ⊢
      rw [ok_bind hgiven]
      obtain ⟨hnodup, t', hrest, hheld'⟩ | ⟨c, hfirst, hrest⟩ := ih hheld hkeys hnames'
      · exact .inl ⟨hnodup, t', (ok_bind hrest).trans rfl, hheld'⟩
      · exact .inr ⟨c, hfirst, by rw [error_bind (Prod.ext hrest rfl)]⟩

theorem registerAll_held {t : NameTable} {s : Scope} {held : List Registration}
    (h : HoldsJust t s held) {regs : List Registration} (hregs : regs ⊆ held) :
    regs.mapM (register s) t = (.ok (regs.map Registration.name), t) := by
  induction regs with
  | nil => rfl
  | cons reg regs ih =>
    obtain ⟨hreg, hrest⟩ := List.cons_subset.mp hregs
    rw [List.mapM_cons]
    exact (ok_bind (h.register_held hreg)).trans ((ok_bind (ih hrest)).trans rfl)

/-! ## Names and tables -/

/-- Two names for each table: that of its model and that of its client. -/
def pairNames : List PlacedTable → List String → List (String × TypePair)
  | p :: tables, model :: client :: names => (p.key, ⟨model, client⟩) :: pairNames tables names
  | _, _ => []

theorem resolve_eq (r : Resource) : resolve r = (fun names => ⟨pairNames r.tables names⟩) <$>
    (registrations r).mapM (register (Scope.types r.dottedPath)) := by
  have hall : ∀ tables : List PlacedTable,
      tables.mapM (resolveTable (Scope.types r.dottedPath) r.modules)
        = pairNames tables <$> (tables.flatMap fun p =>
            [modelRegistration r.modules p, clientRegistration r.modules p]).mapM
              (register (Scope.types r.dottedPath)) := by
    intro tables
    induction tables with
    | nil => simp [pairNames]
    | cons p tables ih => simp [resolveTable, ih, pairNames]
  simp [resolve, hall, registrations]

/-! ## What a resource asks for -/

/-- The names that a table asks for. -/
def askedPair (r : Resource) (p : PlacedTable) : TypePair :=
  ⟨typeName (r.modules ++ p.chain), typeName (r.modules ++ p.chain) ++ "Client"⟩

/-- The names of all models, and then each of these with `Client` after it. -/
def askedNames (r : Resource) : List String :=
  let models := r.tables.map fun p => typeName (r.modules ++ p.chain)
  models ++ models.map (· ++ "Client")

theorem pairNames_registrations (r : Resource) :
    pairNames r.tables ((registrations r).map Registration.name)
      = r.tables.map fun p => (p.key, askedPair r p) := by
  rw [registrations]
  induction r.tables with
  | nil => rfl
  | cons p tables ih =>
    simp only [List.flatMap_cons, List.map_cons, List.cons_append, List.nil_append, pairNames, ih]
    simp only [askedPair, modelRegistration, clientRegistration]

/-- Whatever is looked at in the registrations: first those of the models and then those of the
clients are the same but for the order. -/
theorem map_registrations_perm {α : Type} (r : Resource) (f : Registration → α) :
    ((registrations r).map f).Perm (r.tables.map (f ∘ modelRegistration r.modules)
      ++ r.tables.map (f ∘ clientRegistration r.modules)) := by
  have hperm := List.map_append_flatMap_perm r.tables (f ∘ modelRegistration r.modules)
    fun p => [f (clientRegistration r.modules p)]
  rw [← List.map_eq_flatMap] at hperm
  rw [registrations, List.map_flatMap]
  exact hperm.symm

theorem nodup_names_iff (r : Resource) :
    ((registrations r).map Registration.name).Nodup ↔ (askedNames r).Nodup := by
  rw [(map_registrations_perm r Registration.name).nodup_iff, askedNames, List.map_map]
  simp only [Function.comp_def, modelRegistration, clientRegistration]

theorem nodup_keys {r : Resource} (hr : (PlacedTable.ofResource r).IsNamed) :
    ((registrations r).map Registration.key).Nodup := by
  have hrole : ∀ role : String, (r.tables.map fun p => role ++ p.key).Nodup := by
    intro role
    refine List.pairwise_map.mpr ((List.pairwise_map.mp (nodup_tableKeys hr)).imp ?_)
    intro p q hne he
    exact hne ((String.append_right_inj role).mp he)
  rw [(map_registrations_perm r Registration.key).nodup_iff, List.nodup_append]
  refine ⟨hrole "model:", hrole "client:", fun a ha b hb he => ?_⟩
  obtain ⟨p, -, rfl⟩ := List.mem_map.mp ha
  obtain ⟨q, -, rfl⟩ := List.mem_map.mp hb
  exact roles_apart _ _ he

/-! ## The outcome -/

/-- Each table has the names that it asked for under its own key, and no two types have one name. -/
structure GivenAsAsked (r : Resource) (names : TypeNames) : Prop where
  entries : names.byKey = r.tables.map fun p => (p.key, askedPair r p)
  keys : (r.tables.map PlacedTable.key).Nodup
  own : ∀ p ∈ r.tables, names.pair? p = some (askedPair r p)
  models : (r.tables.map names.model).Nodup
  clients : (r.tables.map names.client).Nodup
  apart : ∀ p ∈ r.tables, ∀ q ∈ r.tables, names.model p ≠ names.client q

theorem givenAsAsked {r : Resource} {names : TypeNames}
    (hkeys : (r.tables.map PlacedTable.key).Nodup) (hnames : (askedNames r).Nodup)
    (hgiven : names.byKey = r.tables.map fun p => (p.key, askedPair r p)) : GivenAsAsked r names := by
  have hown : ∀ p ∈ r.tables, names.pair? p = some (askedPair r p) := by
    intro p hp
    rw [TypeNames.pair?, hgiven]
    refine Emit.lookup_of_mem ?_ (List.mem_map_of_mem hp)
    rw [List.map_map]
    exact hkeys
  have hmodel : ∀ p ∈ r.tables, names.model p = typeName (r.modules ++ p.chain) := by
    intro p hp
    rw [TypeNames.model, hown p hp, askedPair]
  have hclient : ∀ p ∈ r.tables, names.client p = typeName (r.modules ++ p.chain) ++ "Client" := by
    intro p hp
    rw [TypeNames.client, hown p hp, askedPair]
  rw [askedNames, List.nodup_append] at hnames
  simp only [List.map_map, Function.comp_def] at hnames
  obtain ⟨hmodels, hclients, hapart⟩ := hnames
  refine ⟨hgiven, hkeys, hown, ?_, ?_, fun p hp q hq he => ?_⟩
  · rw [List.map_congr_left hmodel]
    exact hmodels
  · rw [List.map_congr_left hclient]
    exact hclients
  · rw [hmodel p hp, hclient q hq] at he
    exact hapart _ (List.mem_map.mpr ⟨p, hp, rfl⟩) _ (List.mem_map.mpr ⟨q, hq, rfl⟩) he

/-- What comes of the type names of a resource where no type of it had a name before: they are given
exactly if the model names and these names with `Client` after them are all different; if not, the
first one that is taken is the collision. The table that the resource was read with is sound, as every
table is that giving names from the empty one leads to. -/
theorem type_names_outcome {limit : Nat} {doc : Json} {r : Resource} {u u' t : NameTable}
    (hu : u.Sound) (hread : Schema.readResource limit doc u = (.ok r, u'))
    (hvacant : SameIn (Scope.types r.dottedPath) t .empty) :
    ((∃ names, (resolve r t).1 = .ok names) ↔ (askedNames r).Nodup)
      ∧ (¬(askedNames r).Nodup →
        ∃ c, FirstTaken (Scope.types r.dottedPath) (registrations r) c
          ∧ (resolve r t).1 = .error c)
      ∧ ∀ names t', resolve r t = (.ok names, t') →
        GivenAsAsked r names ∧ resolve r t' = (.ok names, t') := by
  have hnamed : (PlacedTable.ofResource r).IsNamed := (Schema.readResource_ok hu hread).2
  rw [← nodup_names_iff]
  have hkeys : (([] ++ registrations r).map Registration.key).Nodup := nodup_keys hnamed
  obtain ⟨hnodup, t', hgiven, hheld⟩ | ⟨c, hfirst, hfailed⟩ :=
    registerAll_outcome (holdsJust_nil hvacant) hkeys List.nodup_nil
  · have hresolved := ok_map (f := fun names => (⟨pairNames r.tables names⟩ : TypeNames)) hgiven
    rw [← resolve_eq] at hresolved
    refine ⟨iff_of_true ⟨_, congrArg Prod.fst hresolved⟩ hnodup, absurd hnodup, ?_⟩
    intro names t₁ h
    rw [hresolved] at h
    cases h
    refine ⟨givenAsAsked (nodup_tableKeys hnamed) ((nodup_names_iff r).mp hnodup)
      (pairNames_registrations r), ?_⟩
    rw [resolve_eq]
    exact ok_map (registerAll_held hheld (List.Subset.refl _))
  · have hfailed' : (resolve r t).1 = .error c := by
      rw [resolve_eq]
      exact congrArg Prod.fst (error_bind (Prod.ext hfailed rfl))
    have hnot : ¬((registrations r).map Registration.name).Nodup := hfirst.not_nodup
    refine ⟨iff_of_false ?_ hnot, fun _ => ⟨c, hfirst, hfailed'⟩, fun names t' h => ?_⟩
    · rintro ⟨names, h⟩
      rw [hfailed'] at h
      cases h
    · rw [h] at hfailed'
      cases hfailed'

theorem read_of_mem_resourcesRead {limit : Nat} {doc : Json} {r : Resource}
    (h : r ∈ Schema.resourcesRead [.read limit doc]) :
    ∃ u, Schema.readResource limit doc .empty = (.ok r, u) := by
  have hread : r ∈ ((Schema.readResource limit doc .empty).1.toOption).toList ++ [] := h
  rw [List.append_nil, Option.mem_toList] at hread
  rcases he : Schema.readResource limit doc .empty with ⟨e | r', u⟩
  · rw [he] at hread
    cases hread
  · rw [he] at hread
    cases hread
    exact ⟨u, rfl⟩

/-- A resource with nested rows gets the names of its two tables, and gets them again. -/
theorem type_names_outcome_rows :
    (∃ u, Schema.readResource 4 Emit.rowsDocument .empty = (.ok Emit.rowsResource, u))
      ∧ ∃ t, resolve Emit.rowsResource .empty = (.ok Emit.rowsNames, t)
        ∧ GivenAsAsked Emit.rowsResource Emit.rowsNames
        ∧ resolve Emit.rowsResource t = (.ok Emit.rowsNames, t) := by
  obtain ⟨u, hread⟩ := read_of_mem_resourcesRead Emit.rowsResource_read
  obtain ⟨-, -, hgiven⟩ := type_names_outcome NameTable.sound_empty hread (SameIn.refl _ .empty)
  have hresolved : resolve Emit.rowsResource .empty = (.ok Emit.rowsNames, _) :=
    Prod.ext Emit.rowsResource_named rfl
  exact ⟨⟨u, hread⟩, _, hresolved, hgiven _ _ hresolved⟩

end RestForge.Naming
