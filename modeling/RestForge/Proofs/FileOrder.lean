import Mathlib.Data.List.Forall2
import RestForge.Proofs.Interleaving
import RestForge.Proofs.LayoutOrder
import RestForge.Proofs.NamePrograms

/-!
# Runs and the order of their files

A run reads documents into one table of names, gives type names, generates and lays out. Where it
succeeds, every document could have been read into the final table, and every resource could have been
named alone, so that another order makes the same of each of them.

* `Program.replay`: what was read into a table can be read into any part of it.
* `Product`, `Succeeds`: what a run makes of its documents if nothing fails.
* `Made`: the share of one document; `succeeds_iff`: a run succeeds if each document has its share.
* `succeeds_perm`: the order of the documents changes nothing.
-/

set_option autoImplicit false

namespace RestForge.Schema

open Naming

/-! ## Reading into a part of a table -/

/-- A gift that the whole table agrees with cannot be refused in a part of it: an owner of the code
name would own it in the whole table too. -/
theorem replay_giveName {scope : Scope} (hscope : scope.kind ≠ .types) {wire code : String}
    {t t' u whole : NameTable} (ht : t.Sound) (hu : u.Sound) (hwhole : whole.TwoWay)
    (hact : giveName scope wire t = (.ok code, t')) (hext : t'.Extends whole)
    (hpart : u.Extends whole) :
    ∃ u', giveName scope wire u = (.ok code, u') ∧ u'.Extends whole := by
  have hgiven : whole.codeName? scope wire = some code := hext _ _ _ (giveName_ok hact)
  have hspelled : identifier scope.kind wire = code := by
    obtain ⟨-, ht'⟩ := (keeps_giveName _ _).of_eq ht hact
    exact (ht'.spelled _ _ _ hscope (giveName_ok hact)).symm
  obtain ⟨known, hk, he⟩ | ⟨owner, hw, hc, -⟩ | ⟨-, -, he⟩ := giveName_cases hspelled u
  · have hsame := (hpart _ _ _ hk).symm.trans hgiven
    cases hsame
    exact ⟨u, he, hpart⟩
  · have howner := (hu.twoWay _ _ _).mpr hc
    rw [hwhole.wire_unique (hpart _ _ _ howner) hgiven, hw] at howner
    cases howner
  · exact ⟨_, he, extends_add hpart hgiven⟩

theorem Program.replay {α : Type} {act : Reading α} (h : Program act) {t t' u whole : NameTable}
    (ht : t.Sound) (hu : u.Sound) (hwhole : whole.TwoWay) {x : α} (hact : act t = (.ok x, t'))
    (hext : t'.Extends whole) (hpart : u.Extends whole) :
    ∃ u', act u = (.ok x, u') ∧ u'.Extends whole := by
  induction h generalizing t t' u with
  | lift e _ =>
    have he : (e, t) = (.ok x, t') := hact
    cases he
    exact ⟨u, rfl, hpart⟩
  | give scope wire hscope => exact replay_giveName hscope ht hu hwhole hact hext hpart
  | bind hprog hf ihact ihf =>
    rename_i act f
    obtain ⟨y, t₁, hfirst, hrest⟩ := bind_ok hact
    obtain ⟨-, ht₁⟩ := hprog.keeps.of_eq ht hfirst
    obtain ⟨hlater, -⟩ := (hf y).keeps.of_eq ht₁ hrest
    obtain ⟨u₁, hfirstu, hpart₁⟩ := ihact ht hu hfirst (hlater.trans hext) hpart
    obtain ⟨-, hu₁⟩ := hprog.keeps.of_eq hu hfirstu
    obtain ⟨u', hrestu, hpart'⟩ := ihf y ht₁ hu₁ hrest hext hpart₁
    exact ⟨u', (ok_bind hfirstu).trans hrestu, hpart'⟩

theorem program_mapM {α β : Type} {act : α → Reading β} (h : ∀ x, Program (act x)) (xs : List α) :
    Program (xs.mapM act) := by
  induction xs with
  | nil => exact program_pure []
  | cons x xs ih =>
    rw [List.mapM_cons]
    exact .bind (h x) fun y => .bind ih fun ys => program_pure _

/-- The document can be read as this resource into a part of the table. -/
def ReadInto (limit : Nat) (whole : NameTable) (doc : Json) (r : Resource) : Prop :=
  ∃ t t', t.Sound ∧ readResource limit doc t = (.ok r, t') ∧ t'.Extends whole

theorem ReadInto.placed {limit : Nat} {whole : NameTable} {doc : Json} {r : Resource}
    (h : ReadInto limit whole doc r) : Placed whole r.category.text r.segments r.modules := by
  obtain ⟨t, t', ht, hread, hext⟩ := h
  exact (readResource_ok ht hread).1.extend hext

/-- Documents that were read one after another were read into the table that they left. -/
theorem readInto_of_mapM {limit : Nat} {docs : List Json} {rs : List Resource} {t t' : NameTable}
    (ht : t.Sound) (h : docs.mapM (readResource limit) t = (.ok rs, t')) :
    List.Forall₂ (ReadInto limit t') docs rs := by
  induction docs generalizing t rs with
  | nil =>
    obtain ⟨rfl, -⟩ := pure_ok h
    exact .nil
  | cons doc docs ih =>
    rw [List.mapM_cons] at h
    obtain ⟨r, t₁, hread, h⟩ := bind_ok h
    obtain ⟨rest, t₂, hrest, h⟩ := bind_ok h
    obtain ⟨rfl, rfl⟩ := pure_ok h
    obtain ⟨-, ht₁⟩ := (keeps_readResource limit doc).of_eq ht hread
    obtain ⟨hext, -⟩ := (keeps_mapM (keeps_readResource limit) docs).of_eq ht₁ hrest
    exact .cons ⟨t, t₁, ht, hread, hext⟩ (ih ht₁ hrest)

theorem mapM_of_readInto {limit : Nat} {whole : NameTable} (hwhole : whole.TwoWay)
    {docs : List Json} {rs : List Resource} (h : List.Forall₂ (ReadInto limit whole) docs rs)
    {u : NameTable} (hu : u.Sound) (hpart : u.Extends whole) :
    ∃ u', docs.mapM (readResource limit) u = (.ok rs, u') := by
  induction h generalizing u with
  | nil => exact ⟨u, rfl⟩
  | cons hread _ ih =>
    rename_i doc r docs rs _
    obtain ⟨t, t', ht, hdoc, hext⟩ := hread
    obtain ⟨u₁, hdocu, hpart₁⟩ :=
      (program_readResource limit doc).replay ht hu hwhole hdoc hext hpart
    obtain ⟨-, hu₁⟩ := (keeps_readResource limit doc).of_eq hu hdocu
    obtain ⟨u', hrest⟩ := ih hu₁ hpart₁
    rw [List.mapM_cons]
    exact ⟨u', (ok_bind hdocu).trans ((ok_bind hrest).trans rfl)⟩

end RestForge.Schema

namespace RestForge.Naming

/-! ## Resolving one after another -/

theorem resolve_sameIn {r : Resource} {t u : NameTable}
    (h : SameIn (Scope.types r.dottedPath) t u) : (resolve r t).1 = (resolve r u).1 := by
  rw [← Walk.run_ofResource]
  exact ((Walk.ofResource r).run_sameIn h).1

theorem resolve_elsewhere {s : Scope} {r : Resource} (hne : s ≠ Scope.types r.dottedPath)
    (t : NameTable) : SameIn s t (resolve r t).2 := by
  rw [← Walk.run_ofResource]
  exact (Walk.ofResource r).run_elsewhere hne t

theorem mapM_cons_ok_iff {ε α β : Type} {act : α → Action ε β} {x : α} {xs : List α} {ys : List β}
    {t : NameTable} : ((x :: xs).mapM act t).1 = .ok ys ↔
      ∃ y rest, (act x t).1 = .ok y ∧ (xs.mapM act (act x t).2).1 = .ok rest ∧ ys = y :: rest := by
  rw [List.mapM_cons, bind_apply]
  rcases act x t with ⟨e | y, t₁⟩
  · simp
  · dsimp only
    rw [bind_apply]
    rcases xs.mapM act t₁ with ⟨e | rest, t₂⟩
    · simp
    · constructor
      · intro h
        cases h
        exact ⟨y, rest, rfl, rfl, rfl⟩
      · rintro ⟨_, _, hy, hrest, rfl⟩
        cases hy
        cases hrest
        rfl

/-- Resources of different dotted paths are named as if each were alone. -/
theorem resolveAll_ok_iff {rs : List Resource} {names : List TypeNames}
    (hapart : rs.Pairwise fun r r' => r.dottedPath ≠ r'.dottedPath) {t u : NameTable}
    (hsame : ∀ r ∈ rs, SameIn (Scope.types r.dottedPath) t u) :
    (rs.mapM resolve t).1 = .ok names
      ↔ List.Forall₂ (fun r n => (resolve r u).1 = .ok n) rs names := by
  induction rs generalizing t names with
  | nil =>
    rw [List.forall₂_nil_left_iff]
    constructor
    · intro h
      cases h
      rfl
    · rintro rfl
      rfl
  | cons r rs ih =>
    obtain ⟨hhead, htail⟩ := List.pairwise_cons.mp hapart
    have hfirst := resolve_sameIn (hsame r (by simp))
    -- naming the first resource leaves the scopes of the others as they were
    have hrest : ∀ r' ∈ rs, SameIn (Scope.types r'.dottedPath) (resolve r t).2 u := by
      intro r' hr'
      have hne : Scope.types r'.dottedPath ≠ Scope.types r.dottedPath :=
        fun he => hhead r' hr' (congrArg Scope.path he).symm
      exact (resolve_elsewhere hne t).symm.trans (hsame r' (by simp [hr']))
    rw [mapM_cons_ok_iff, List.forall₂_cons_left_iff]
    simp only [hfirst, ih htail hrest]

end RestForge.Naming

namespace RestForge.Run

open Naming Schema Emit Crate Source

/-! ## Runs that succeed -/

/-- What a run makes of one document. -/
structure Product where
  resource : Resource
  names : TypeNames
  files : List File

def Product.entry (p : Product) : ResourceEntry := .ofResource p.resource p.names

/-- Documents are read one after another into a fresh table, their resources named one after another,
all files generated and all resources laid out, without a failure. -/
structure Succeeds (limit : Nat) (docs : List Json) (products : List Product)
    (laid : List ModuleFile) : Prop where
  named : ∃ t, docs.mapM (readResource limit) .empty = (.ok (products.map Product.resource), t)
    ∧ ((products.map Product.resource).mapM resolve t).1 = .ok (products.map Product.names)
  generated : ∀ p ∈ products, ArtifactKind.all.mapM (source p.resource p.names) = .ok p.files
  laidOut : layOut (products.map Product.entry) = .ok laid

/-- The share of one document: it can be read into a part of the table, its resource can be named
alone, and its files generated. -/
structure Made (limit : Nat) (whole : NameTable) (doc : Json) (p : Product) : Prop where
  read : ReadInto limit whole doc p.resource
  named : (resolve p.resource .empty).1 = .ok p.names
  generated : ArtifactKind.all.mapM (source p.resource p.names) = .ok p.files

theorem forall₂_made_iff {limit : Nat} {whole : NameTable} {docs : List Json}
    {products : List Product} : List.Forall₂ (Made limit whole) docs products ↔
      List.Forall₂ (ReadInto limit whole) docs (products.map Product.resource)
      ∧ List.Forall₂ (fun r n => (resolve r .empty).1 = .ok n) (products.map Product.resource)
        (products.map Product.names)
      ∧ ∀ p ∈ products, ArtifactKind.all.mapM (source p.resource p.names) = .ok p.files := by
  rw [List.forall₂_map_right_iff, List.forall₂_map_left_iff, List.forall₂_map_right_iff,
    List.forall₂_same]
  constructor
  · intro h
    have hmade : ∀ p ∈ products, ∃ doc, Made limit whole doc p := by
      induction h with
      | nil => simp
      | cons hp _ ih => exact List.forall_mem_cons.mpr ⟨⟨_, hp⟩, ih⟩
    refine ⟨h.imp fun _ _ hp => hp.read, fun p hp => ?_, fun p hp => ?_⟩ <;>
      obtain ⟨doc, h⟩ := hmade p hp
    · exact h.named
    · exact h.generated
  · rintro ⟨hread, hnamed, hgenerated⟩
    induction hread with
    | nil => exact .nil
    | cons hp _ ih =>
      obtain ⟨hname, hnames⟩ := List.forall_mem_cons.mp hnamed
      obtain ⟨hfile, hfiles⟩ := List.forall_mem_cons.mp hgenerated
      exact .cons ⟨hp, hname, hfile⟩ (ih hnames hfiles)

/-- Whether a run succeeds is settled by each document alone, but for the layout. -/
theorem succeeds_iff {limit : Nat} {docs : List Json} {products : List Product}
    {laid : List ModuleFile}
    (hapart : products.Pairwise fun p q => p.resource.dottedPath ≠ q.resource.dottedPath) :
    Succeeds limit docs products laid ↔
      (∃ whole, whole.TwoWay ∧ List.Forall₂ (Made limit whole) docs products)
        ∧ layOut (products.map Product.entry) = .ok laid := by
  have hpaths : (products.map Product.resource).Pairwise fun r r' => r.dottedPath ≠ r'.dottedPath :=
    List.pairwise_map.mpr hapart
  -- reading gives no type a name, so that naming starts as on an empty table
  have hfresh : ∀ {rs t}, docs.mapM (readResource limit) .empty = (.ok rs, t) →
      ∀ r ∈ products.map Product.resource, SameIn (Scope.types r.dottedPath) t .empty := by
    intro rs t hread r _
    have htypes := (program_mapM (program_readResource limit) docs).sameTypes .empty
    rw [hread] at htypes
    exact htypes.symm _ rfl
  constructor
  · rintro ⟨⟨t, hread, hnamed⟩, hgenerated, hlaid⟩
    obtain ⟨-, ht⟩ := (keeps_mapM (keeps_readResource limit) docs).of_eq NameTable.sound_empty hread
    refine ⟨⟨t, ht.twoWay, forall₂_made_iff.mpr ⟨?_, ?_, hgenerated⟩⟩, hlaid⟩
    · exact readInto_of_mapM NameTable.sound_empty hread
    · exact (resolveAll_ok_iff hpaths (hfresh hread)).mp hnamed
  · rintro ⟨⟨whole, hwhole, hmade⟩, hlaid⟩
    obtain ⟨hinto, halone, hgenerated⟩ := forall₂_made_iff.mp hmade
    have hpart : NameTable.empty.Extends whole := fun s w c h => by simp at h
    obtain ⟨t, hread⟩ := mapM_of_readInto hwhole hinto NameTable.sound_empty hpart
    exact ⟨⟨t, hread, (resolveAll_ok_iff hpaths (hfresh hread)).mpr halone⟩, hgenerated, hlaid⟩

/-- A list that goes with a permuted one can be permuted along with it. -/
theorem exists_zip_perm {α β : Type} {xs xs' : List α} (h : xs.Perm xs') {ys : List β}
    (hlength : xs.length = ys.length) :
    ∃ ys', xs'.length = ys'.length ∧ ys.Perm ys' ∧ (xs.zip ys).Perm (xs'.zip ys') := by
  induction h generalizing ys with
  | nil => exact ⟨ys, hlength, .refl _, .refl _⟩
  | cons x _ ih =>
    cases ys with
    | nil => cases hlength
    | cons y ys =>
      obtain ⟨ys', hlength', hys, hzip⟩ := ih (Nat.succ.inj hlength)
      exact ⟨y :: ys', congrArg Nat.succ hlength', hys.cons y, hzip.cons (x, y)⟩
  | swap x x' xs =>
    obtain _ | ⟨y', _ | ⟨y, ys⟩⟩ := ys
    · cases hlength
    · cases hlength
    · exact ⟨y :: y' :: ys, hlength, .swap y y' ys, .swap _ _ _⟩
  | trans _ _ ih ih' =>
    obtain ⟨ys₁, hlength₁, hys, hzip⟩ := ih hlength
    obtain ⟨ys₂, hlength₂, hys', hzip'⟩ := ih' hlength₁
    exact ⟨ys₂, hlength₂, hys.trans hys', hzip.trans hzip'⟩

/-- Resources that were read into one table and have different dotted paths are laid out apart. -/
theorem isApart_of_made {limit : Nat} {whole : NameTable} (hwhole : whole.TwoWay)
    {docs : List Json} {products : List Product}
    (hmade : List.Forall₂ (Made limit whole) docs products)
    (hapart : products.Pairwise fun p q => p.resource.dottedPath ≠ q.resource.dottedPath) :
    (products.map Product.entry).Pairwise ResourceEntry.IsApart := by
  have hplaced : ∀ p ∈ products,
      Placed whole p.resource.category.text p.resource.segments p.resource.modules := by
    clear hapart
    induction hmade with
    | nil => simp
    | cons hp _ ih => exact List.forall_mem_cons.mpr ⟨hp.read.placed, ih⟩
  refine List.pairwise_map.mpr (hapart.imp_of_mem fun {p q} hp hq hne => ?_)
  exact isApart_of_placed hwhole (hplaced p hp) (hplaced q hq) hne p.names q.names

/-- **Files may come in any order.** If a run over some documents succeeds and no two of their resources
have one dotted path, then a run over the same documents in any other order succeeds, makes the same of
each document, and lays out the same module files. -/
theorem succeeds_perm {limit : Nat} {docs docs' : List Json} {products : List Product}
    {laid : List ModuleFile} (h : Succeeds limit docs products laid)
    (hapart : products.Pairwise fun p q => p.resource.dottedPath ≠ q.resource.dottedPath)
    (hperm : docs.Perm docs') :
    ∃ products', Succeeds limit docs' products' laid
      ∧ (docs.zip products).Perm (docs'.zip products') := by
  obtain ⟨⟨whole, hwhole, hmade⟩, hlaid⟩ := (succeeds_iff hapart).mp h
  obtain ⟨hlength, hpairs⟩ := List.forall₂_iff_zip.mp hmade
  obtain ⟨products', hlength', hproducts, hzip⟩ := exists_zip_perm hperm hlength
  have hmade' : List.Forall₂ (Made limit whole) docs' products' :=
    List.forall₂_iff_zip.mpr ⟨hlength', fun hpair => hpairs (hzip.mem_iff.mpr hpair)⟩
  have hapart' : products'.Pairwise fun p q => p.resource.dottedPath ≠ q.resource.dottedPath :=
    hproducts.pairwise hapart fun hne => hne.symm
  have hlaid' := layOut_perm (hproducts.map Product.entry) (isApart_of_made hwhole hmade hapart) hlaid
  exact ⟨products', (succeeds_iff hapart').mpr ⟨⟨whole, hwhole, hmade'⟩, hlaid'⟩, hzip⟩

/-! ## A resource and its parent -/

def netDocument : Json :=
  .object [("category", .string "config"), ("methods", .strings ["GET"]), ("path", .string "net")]

/-- The last segment has the name of an artifact. -/
def netModelDocument : Json :=
  .object [("category", .string "config"), ("methods", .strings ["GET"]),
    ("path", .string "net/model")]

def netResource : Resource := ⟨.config, ["net"], ["net"], none, none, [], [], [.get]⟩

def netModelResource : Resource :=
  ⟨.config, ["net", "model"], ["net", "model_"], none, none, [], [], [.get]⟩

/-- What is made of a resource without nested tables whose types have this name. -/
def flatProduct (r : Resource) (name : String) : Product :=
  let names : TypeNames := ⟨[("", ⟨name, name ++ "Client"⟩)]⟩
  ⟨r, names, ArtifactKind.all.map (tree r names)⟩

def netTable : NameTable :=
  (NameTable.empty.add (Scope.modules "config") "net" "net").add (Scope.modules "config.net") "model"
    "model_"

theorem netModelDocument_read :
    readResource 4 netModelDocument .empty = (.ok netModelResource, netTable) := by
  have hnet : giveName (Scope.modules "config") "net" .empty
      = (.ok "net", NameTable.empty.add (Scope.modules "config") "net" "net") :=
    giveName_free (by decide) (by simp) (by simp)
  have hmodel : giveName (Scope.modules "config.net") "model"
      (NameTable.empty.add (Scope.modules "config") "net" "net") = (.ok "model_", netTable) :=
    giveName_free (by decide) (by simp [NameTable.codeName?_add]) (by simp [NameTable.wireName?_add])
  have hmodules : readModules "config" ["net", "model"] .empty = (.ok ["net", "model_"], netTable) :=
    (ok_bind hnet).trans ((ok_bind ((ok_bind hmodel).trans rfl)).trans rfl)
  refine (lift_ok_bind rfl).trans ?_
  refine (lift_ok_bind (x := (⟨.config, ["net", "model"], [.get]⟩ : Header)) rfl).trans ?_
  exact (ok_bind hmodules).trans rfl

theorem netDocument_read : readResource 4 netDocument netTable = (.ok netResource, netTable) := by
  have hnet : giveName (Scope.modules "config") "net" netTable = (.ok "net", netTable) :=
    giveName_known (by simp [netTable, NameTable.codeName?_add, Scope.modules])
  have hmodules : readModules "config" ["net"] netTable = (.ok ["net"], netTable) :=
    (ok_bind hnet).trans rfl
  refine (lift_ok_bind rfl).trans ?_
  refine (lift_ok_bind (x := (⟨.config, ["net"], [.get]⟩ : Header)) rfl).trans ?_
  exact (ok_bind hmodules).trans rfl

theorem flatProduct_named {r : Resource} {name : String} (hflat : r.children = [])
    (hname : typeName r.modules = name) :
    (resolve r .empty).1 = .ok (flatProduct r name).names := by
  have hclient : name ++ "Client" ≠ name := by
    intro he
    have hlength := congrArg String.length he
    simp at hlength
  rw [resolve_flat hflat hname (NameTable.record_free (by simp) (by simp))
    (NameTable.record_free (by simp [NameTable.codeName?_add])
      (by simp [NameTable.wireName?_add, hclient]))]
  rfl

theorem net_apart : netModelResource.dottedPath ≠ netResource.dottedPath := by decide

/-- The directory of one resource lies on the way to the other one, whichever comes first. -/
theorem succeeds_perm_net : ∃ products laid,
    Succeeds 4 [netModelDocument, netDocument] products laid
      ∧ (products.Pairwise fun p q => p.resource.dottedPath ≠ q.resource.dottedPath)
      ∧ [netModelDocument, netDocument].Perm [netDocument, netModelDocument]
      ∧ ∃ products', Succeeds 4 [netDocument, netModelDocument] products' laid
        ∧ ([netModelDocument, netDocument].zip products).Perm
          ([netDocument, netModelDocument].zip products') := by
  let products := [flatProduct netModelResource "NetModel", flatProduct netResource "Net"]
  have hapart : products.Pairwise fun p q => p.resource.dottedPath ≠ q.resource.dottedPath :=
    .cons (List.forall_mem_singleton.mpr net_apart) (List.pairwise_singleton _ _)
  obtain ⟨-, hsound⟩ := (keeps_readResource 4 netModelDocument).of_eq NameTable.sound_empty
    netModelDocument_read
  have hmodel : Made 4 netTable netModelDocument (flatProduct netModelResource "NetModel") :=
    ⟨⟨_, _, NameTable.sound_empty, netModelDocument_read, .refl _⟩,
      flatProduct_named rfl (by decide), rfl⟩
  have hnet : Made 4 netTable netDocument (flatProduct netResource "Net") :=
    ⟨⟨_, _, hsound, netDocument_read, .refl _⟩, flatProduct_named rfl (by decide), rfl⟩
  have hsucceeds : Succeeds 4 [netModelDocument, netDocument] products
      (moduleFiles (products.map Product.entry)) :=
    (succeeds_iff hapart).mpr ⟨⟨netTable, hsound.twoWay, .cons hmodel (.cons hnet .nil)⟩, rfl⟩
  have hperm : [netModelDocument, netDocument].Perm [netDocument, netModelDocument] := .swap _ _ _
  exact ⟨_, _, hsucceeds, hapart, hperm, succeeds_perm hsucceeds hapart hperm⟩

end RestForge.Run
