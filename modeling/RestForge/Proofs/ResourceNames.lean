import RestForge.Proofs.ClosedTree
import RestForge.Proofs.TableReadings

/-!
# The names in one resource

* `PlacedTable.nodup_chains`, `nodup_tableKeys`: the tables of a resource are told apart by their
  chains, and by their keys.
* `nodup_types`: so they are by the names of their models, and by those of their clients.
* `client_ends`: whatever was resolved before, the name of a client ends in `Client`.
* `nodup_methods`: a resource lists no method twice.
-/

set_option autoImplicit false

namespace RestForge

open Naming Schema

/-! ## Chains -/

namespace PlacedTable

theorem IsNamed.child_codeName {p c : PlacedTable} (hp : p.IsNamed) (hc : c ∈ p.childTables) :
    ∃ wire, c.codeName = identifier .fields wire := by
  obtain ⟨t, ht, rfl⟩ := List.mem_map.mp hc
  obtain ⟨f, hf, -, he⟩ := hp.here.field_of_child ht
  refine ⟨f.wireName, ?_⟩
  rw [codeName_child, ← he, hp.here.spelled f hf]

theorem isNamed_of_mem_walk {p : PlacedTable} (hp : p.IsNamed) : ∀ q ∈ p.walk, q.IsNamed := by
  induction p using PlacedTable.induct with
  | step p ih =>
    rw [walk_eq, List.forall_mem_cons]
    refine ⟨hp, fun q hq => ?_⟩
    obtain ⟨c, hc, hq⟩ := List.mem_flatMap.mp hq
    exact ih c hc (hp.child hc) q hq

theorem mem_walk_of_mem_childTables {p q c : PlacedTable} (hq : q ∈ p.walk)
    (hc : c ∈ q.childTables) : c ∈ p.walk := by
  induction p using PlacedTable.induct with
  | step p ih =>
    rw [walk_eq] at hq ⊢
    obtain rfl | hq := List.mem_cons.mp hq
    · have hself : c ∈ c.walk := by
        rw [walk_eq]
        exact List.mem_cons_self
      exact List.mem_cons_of_mem _ (List.mem_flatMap.mpr ⟨c, hc, hself⟩)
    · obtain ⟨d, hd, hq⟩ := List.mem_flatMap.mp hq
      exact List.mem_cons_of_mem _ (List.mem_flatMap.mpr ⟨d, hd, ih d hd hq⟩)

theorem chain_of_mem_walk (p : PlacedTable) : ∀ q ∈ p.walk, p.chain <+: q.chain := by
  induction p using PlacedTable.induct with
  | step p ih =>
    rw [walk_eq, List.forall_mem_cons]
    refine ⟨List.prefix_rfl, fun q hq => ?_⟩
    obtain ⟨c, hc, hq⟩ := List.mem_flatMap.mp hq
    have hbelow := ih c hc q hq
    rw [chain_of_mem_childTables hc] at hbelow
    exact (List.prefix_append _ _).trans hbelow

theorem nodup_chains {p : PlacedTable} (hp : p.IsNamed) : (p.walk.map chain).Nodup := by
  induction p using PlacedTable.induct with
  | step p ih =>
    have hbelow : ∀ c ∈ p.childTables, ∀ names ∈ c.walk.map chain,
        p.chain ++ [c.codeName] <+: names := by
      intro c hc names hnames
      obtain ⟨q, hq, rfl⟩ := List.mem_map.mp hnames
      rw [← chain_of_mem_childTables hc]
      exact c.chain_of_mem_walk q hq
    rw [walk_eq, List.map_cons, List.map_flatMap, List.nodup_cons, List.nodup_flatMap]
    refine ⟨fun hmem => ?_, fun c hc => ih c hc (hp.child hc), ?_⟩
    · obtain ⟨c, hc, hchain⟩ := List.mem_flatMap.mp hmem
      have hlength := (hbelow c hc _ hchain).length_le
      simp at hlength
    · refine (List.pairwise_map.mp hp.child_codes).imp_of_mem fun {c d} hc hd hne names h h' => hne ?_
      -- both prefixes are as long as the chain of the table and one name
      have heq := List.prefix_of_prefix_length_le (hbelow c hc _ h) (hbelow d hd _ h') (by simp)
      simpa using heq.eq_of_length (by simp)

theorem nodup_keys {p : PlacedTable} (hp : p.IsNamed) (hchain : ∀ name ∈ p.chain, CodeName name) :
    (p.walk.map key).Nodup := by
  have hcode := chain_codeNames hp hchain
  have hchains := List.pairwise_map.mp (nodup_chains hp)
  refine List.pairwise_map.mpr (hchains.imp_of_mem fun {q q'} hq hq' hne hkey => hne ?_)
  exact chain_of_key (hcode q hq) (hcode q' hq') hkey

end PlacedTable

theorem nodup_tableKeys {r : Resource} (hr : (PlacedTable.ofResource r).IsNamed) :
    (r.tables.map PlacedTable.key).Nodup :=
  PlacedTable.nodup_keys hr (by simp [PlacedTable.ofResource])

namespace Run

section Types

variable {steps before : List NamingStep} {r : Resource} {names : TypeNames} {t : NameTable}
  (hread : r ∈ resourcesRead steps) (hnames : resolve r (tableFrom .empty before) = (.ok names, t))

include hread hnames

theorem nodup_types : (r.tables.map names.model).Nodup ∧ (r.tables.map names.client).Nodup := by
  have ht := sound_tableFrom_empty before
  have hsound : t.Sound := by
    have hkeeps := (keeps_resolve r _ ht).2
    rwa [hnames] at hkeeps
  -- in the scope of the resource, a name goes with one key, and a key with one table
  have hapart : ∀ (role : String) (name : PlacedTable → String), (∀ p ∈ r.tables,
      t.codeName? (Scope.types r.dottedPath) (role ++ p.key) = some (name p)) →
      (r.tables.map name).Nodup := by
    intro role name hname
    have hkeys := List.pairwise_map.mp (nodup_tableKeys (PlacedTable.isNamed_ofResource hread))
    refine List.pairwise_map.mpr (hkeys.imp_of_mem fun {p q} hp hq hne he => hne ?_)
    have hp' := hname p hp
    rw [he] at hp'
    exact (String.append_right_inj role).mp (hsound.twoWay.wire_unique hp' (hname q hq))
  exact ⟨hapart "model:" names.model fun p hp => (resolve_ok ht hnames hp).2.1,
    hapart "client:" names.client fun p hp => (resolve_ok ht hnames hp).2.2⟩

omit hread in
theorem client_ends {p : PlacedTable} (hp : p ∈ r.tables) :
    "Client".toList <:+ (names.client p).toList := by
  let Q : String → String → Prop := fun key name =>
    "client:".toList <+: key.toList → "Client".toList <:+ name.toList
  have hregistered : ∀ r, ∀ reg ∈ registrations r, Q reg.key reg.name := by
    intro r reg hreg hkey
    obtain ⟨q, -, ⟨he, -⟩ | ⟨-, he⟩⟩ := of_mem_registrations hreg
    · rw [he, String.toList_append] at hkey
      obtain ⟨rest, hrest⟩ := hkey
      cases congrArg List.head? hrest
    · rw [he, String.toList_append]
      exact List.suffix_append _ _
  have hnamed : TypesAre Q t := by
    have hbefore : TypesAre Q (tableFrom .empty before) :=
      typesAre_tableFrom typesAre_empty fun r _ => hregistered r
    have hafter := hbefore.resolve (hregistered r)
    rwa [hnames] at hafter
  obtain ⟨-, -, hclient⟩ := resolve_ok (sound_tableFrom_empty before) hnames hp
  refine hnamed _ _ _ rfl hclient ?_
  rw [String.toList_append]
  exact List.prefix_append _ _

end Types

/-! ## Methods -/

theorem exists_read_of_mem_resourcesFrom {steps : List NamingStep} {t : NameTable} {r : Resource}
    (h : r ∈ resourcesFrom t steps) : ∃ limit doc u u', readResource limit doc u = (.ok r, u') := by
  induction steps generalizing t with
  | nil => cases h
  | cons step steps ih =>
    obtain hread | hlater := List.mem_append.mp h
    · cases step with
      | read limit doc =>
        rw [Option.mem_toList, NamingStep.resource?] at hread
        refine ⟨limit, doc, t, _, Prod.ext ?_ rfl⟩
        cases hr : (readResource limit doc t).1 with
        | error e => rw [hr] at hread; cases hread
        | ok r' => rw [hr] at hread; cases hread; rfl
      | resolve r' => cases hread
    · exact ih hlater

theorem nodup_methods {steps : List NamingStep} {r : Resource} (h : r ∈ resourcesRead steps) :
    r.methods.Nodup := by
  obtain ⟨limit, doc, u, u', hread⟩ := exists_read_of_mem_resourcesFrom h
  obtain ⟨_, _, _, _, _, -, hheader, -, -, hmethods, -⟩ := readResource_ok_iff.mp hread
  obtain ⟨_, listed, -, -, hlisted⟩ := hheader.methods
  rw [hmethods, hlisted]
  exact List.Nodup.filter _ (by decide)

end Run

end RestForge
