import RestForge.Proofs.ModuleTree

/-!
# What the directories of a crate hold

A directory is looked at along the names of the directories in it.

* `get?_alter_self`, `mem_iff_get?`: look-up in sorted pairs.
* `ModuleNode.at?`: the directory at the end of a way; `IsDir`, `resourceAt?`.
* `isDir_graft`, `resourceAt?_graft`: what adding a resource does to them.
* `DirOf`: the ways that begin the way of a resource; `categoryNode?_spec`: these are the directories.
* `Describes`: the module file of a directory; `describes_of_mem_moduleFiles`, `exists_describes`: the
  module files of a crate are the top file and one for each directory.
-/

set_option autoImplicit false

namespace RestForge.KeyedList

variable {κ α : Type} [DecidableEq κ] {l : List (κ × α)} {key : κ}

theorem get?_isSome_iff : (get? l key).isSome ↔ key ∈ l.map Prod.fst := by
  induction l with
  | nil => simp
  | cons p l ih =>
    obtain ⟨k, v⟩ := p
    rw [get?_cons, List.map_cons, List.mem_cons, ← ih]
    by_cases h : key = k <;> simp [h]

variable [LT κ] [DecidableLT κ] [IsStrictTotalOrder κ (· < ·)]

omit [DecidableEq κ] [DecidableLT κ] in
theorem nodup_keys (h : Sorted l) : (l.map Prod.fst).Nodup :=
  List.pairwise_map.mpr (h.imp fun hlt => ne_of_irrefl (r := (· < ·)) hlt)

omit [DecidableLT κ] in
theorem mem_iff_get? (h : Sorted l) {v : α} : (key, v) ∈ l ↔ get? l key = some v := by
  induction l with
  | nil => simp
  | cons p l ih =>
    obtain ⟨k, w⟩ := p
    obtain ⟨hhead, htail⟩ := List.pairwise_cons.mp h
    rw [get?_cons, List.mem_cons, Prod.mk.injEq]
    by_cases hk : key = k
    · have hnot : (k, v) ∉ l := fun hmem => irrefl_of (· < ·) k (hhead _ hmem)
      simp [hk, hnot, eq_comm]
    · simp [hk, ih htail]

/-- A key that is smaller than the first one is not there. -/
theorem get?_alter_self (h : Sorted l) (f : Option α → α) :
    get? (alter key f l) key = some (f (get? l key)) := by
  induction l with
  | nil => simp [alter, get?_cons]
  | cons p l ih =>
    obtain ⟨k, v⟩ := p
    obtain ⟨hhead, htail⟩ := List.pairwise_cons.mp h
    rw [alter, get?_cons]
    by_cases hk : key = k
    · simp [hk, get?_cons]
    · rw [if_neg hk, if_neg hk]
      by_cases hlt : key < k
      · have hnone : get? l key = none := by
          rw [← Option.not_isSome_iff_eq_none, get?_isSome_iff]
          intro hmem
          obtain ⟨q, hq, he⟩ := List.mem_map.mp hmem
          exact asymm_of (· < ·) (hhead q hq) (he ▸ hlt)
        rw [if_pos hlt, get?_cons, if_pos rfl, hnone]
      · rw [if_neg hlt, get?_cons, if_neg hk, ih htail]

end RestForge.KeyedList

namespace RestForge.Crate

open Naming KeyedList

namespace ModuleNode

/-! ## Ways through directories -/

def resource? : ModuleNode → Option ResourceEntry
  | node _ resource _ => resource

/-- The names of the directories in a directory. -/
def names : ModuleNode → List String
  | node _ _ children => children.map Prod.fst

/-- The directory that a way leads to. -/
def at? : ModuleNode → List String → Option ModuleNode
  | n, [] => some n
  | node _ _ children, m :: ms => (get? children m).bind fun c => c.at? ms

def IsDir (n : ModuleNode) (mods : List String) : Prop := (n.at? mods).isSome

def resourceAt? (n : ModuleNode) (mods : List String) : Option ResourceEntry :=
  (n.at? mods).bind resource?

theorem at?_append (n : ModuleNode) (mods mods' : List String) :
    n.at? (mods ++ mods') = (n.at? mods).bind fun d => d.at? mods' := by
  induction mods generalizing n with
  | nil => rfl
  | cons m mods ih =>
    obtain ⟨dotted, resource, children⟩ := n
    rw [List.cons_append, at?, at?, Option.bind_assoc]
    simp only [ih]

theorem isDir_fresh (dotted : String) (mods : List String) :
    (fresh dotted).IsDir mods ↔ mods = [] := by
  cases mods with
  | nil => simp [IsDir, at?]
  | cons m mods => simp [IsDir, fresh, at?]

theorem resourceAt?_fresh (dotted : String) (mods : List String) :
    (fresh dotted).resourceAt? mods = none := by
  cases mods with
  | nil => rfl
  | cons m mods => simp [resourceAt?, fresh, at?]

/-- The names below a directory are one step further. -/
theorem mem_names_iff {n d : ModuleNode} {mods : List String} (h : n.at? mods = some d) {x : String} :
    x ∈ d.names ↔ n.IsDir (mods ++ [x]) := by
  rw [IsDir, at?_append, h, Option.bind_some]
  obtain ⟨dotted, resource, children⟩ := d
  rw [names, ← get?_isSome_iff, at?]
  cases get? children x <;> rfl

theorem Neat.at? {n d : ModuleNode} (h : n.Neat) {mods : List String} (hd : n.at? mods = some d) :
    d.Neat := by
  induction mods generalizing n with
  | nil =>
    cases hd
    exact h
  | cons m mods ih =>
    cases h with
    | node dotted resource children sorted spelled below =>
      obtain ⟨c, hc, hd⟩ := Option.bind_eq_some_iff.mp hd
      exact ih (below _ ((mem_iff_get? sorted).mpr hc)) hd

theorem Neat.nodup_names {n : ModuleNode} (h : n.Neat) : n.names.Nodup := by
  cases h with
  | node dotted resource children sorted spelled below => exact nodup_keys sorted

/-! ## Adding a resource -/

theorem at?_graft_cons (e : ResourceEntry) (s : Segment) (ss : List Segment) (dotted : String)
    (resource : Option ResourceEntry) {children : List (String × ModuleNode)}
    (hsorted : Sorted children) (m : String) (ms : List String) :
    (graft e (s :: ss) (node dotted resource children)).at? (m :: ms) =
      if m = s.module then
        (graft e ss ((get? children m).getD (fresh (dotted ++ "." ++ s.wire)))).at? ms
      else (node dotted resource children).at? (m :: ms) := by
  rw [graft, at?]
  by_cases hm : m = s.module
  · rw [if_pos hm, hm, get?_alter_self hsorted]
    rfl
  · rw [if_neg hm, get?_alter_of_ne _ _ _ _ hm]
    rfl

section Graft

variable {e : ResourceEntry} {ss : List Segment} {n : ModuleNode}

theorem isDir_graft (hs : ∀ s ∈ ss, CodeName s.module) (h : n.Neat) (mods : List String) :
    (graft e ss n).IsDir mods ↔ n.IsDir mods ∨ mods <+: ss.map Segment.module := by
  induction ss generalizing n mods with
  | nil =>
    obtain ⟨dotted, resource, children⟩ := n
    cases mods <;> simp [IsDir, graft, at?]
  | cons s ss ih =>
    have hrest : ∀ s ∈ ss, CodeName s.module := fun s' hs' => hs s' (by simp [hs'])
    cases h with
    | node dotted resource children sorted spelled below =>
      cases mods with
      | nil => simp [IsDir, at?]
      | cons m ms =>
        have hat := at?_graft_cons e s ss dotted resource sorted m ms
        by_cases hm : m = s.module
        · rw [if_pos hm] at hat
          rw [IsDir, hat, List.map_cons, List.cons_prefix_cons, IsDir, at?]
          cases hc : get? children m with
          | none =>
            -- a new directory holds the rest of the way and nothing else
            have hdir := ih hrest (neat_fresh (dotted ++ "." ++ s.wire)) ms
            rw [isDir_fresh] at hdir
            have hnil : ms = [] → ms <+: ss.map Segment.module := by
              rintro rfl
              exact List.nil_prefix
            rw [or_iff_right_of_imp hnil] at hdir
            simpa [hm, IsDir] using hdir
          | some c =>
            have hdir := ih hrest (below _ ((mem_iff_get? sorted).mpr hc)) ms
            simpa [hm, IsDir] using hdir
        · rw [if_neg hm] at hat
          simp [IsDir, hat, hm]

theorem resourceAt?_graft (hs : ∀ s ∈ ss, CodeName s.module) (h : n.Neat) (mods : List String) :
    (graft e ss n).resourceAt? mods
      = if mods = ss.map Segment.module then some e else n.resourceAt? mods := by
  induction ss generalizing n mods with
  | nil =>
    obtain ⟨dotted, resource, children⟩ := n
    cases mods <;> simp [resourceAt?, graft, at?, resource?]
  | cons s ss ih =>
    have hrest : ∀ s ∈ ss, CodeName s.module := fun s' hs' => hs s' (by simp [hs'])
    cases h with
    | node dotted resource children sorted spelled below =>
      cases mods with
      | nil => simp [resourceAt?, graft, at?, resource?]
      | cons m ms =>
        have hat := at?_graft_cons e s ss dotted resource sorted m ms
        have hold : (node dotted resource children).resourceAt? (m :: ms)
            = (get? children m).bind fun c => c.resourceAt? ms := Option.bind_assoc _ _ _
        by_cases hm : m = s.module
        · rw [if_pos hm] at hat
          rw [resourceAt?, hat, hold]
          cases hc : get? children m with
          | none =>
            have hres := ih hrest (neat_fresh (dotted ++ "." ++ s.wire)) ms
            rw [resourceAt?_fresh, resourceAt?] at hres
            simpa [hm] using hres
          | some c =>
            have hres := ih hrest (below _ ((mem_iff_get? sorted).mpr hc)) ms
            rw [resourceAt?] at hres
            simpa [hm] using hres
        · rw [if_neg hm] at hat
          simp [resourceAt?, hat, hm]

end Graft

/-! ## Adding resources one after another -/

end ModuleNode

namespace ResourceEntry

/-- The names of the modules that lead to a resource. -/
def modules (e : ResourceEntry) : List String := e.segments.map Segment.module

end ResourceEntry

namespace ModuleNode

theorem isDir_grafts {mine : List ResourceEntry} (hmine : ∀ e ∈ mine, e.IsSpelled) {n : ModuleNode}
    (h : n.Neat) (mods : List String) :
    (mine.foldl (fun n e => n.graft e e.segments) n).IsDir mods
      ↔ n.IsDir mods ∨ ∃ e ∈ mine, mods <+: e.modules := by
  induction mine generalizing n with
  | nil => simp
  | cons e mine ih =>
    obtain ⟨he, hrest⟩ := List.forall_mem_cons.mp hmine
    rw [List.foldl_cons, ih hrest (neat_graft e he h), isDir_graft he h, or_assoc]
    simp [ResourceEntry.modules]

/-- The last resource that ends in a directory is there; if none does, nothing changes. -/
theorem resourceAt?_grafts {mine : List ResourceEntry} (hmine : ∀ e ∈ mine, e.IsSpelled)
    {n : ModuleNode} (h : n.Neat) (mods : List String) :
    (∃ e ∈ mine, e.modules = mods
      ∧ (mine.foldl (fun n e => n.graft e e.segments) n).resourceAt? mods = some e)
    ∨ ((∀ e ∈ mine, e.modules ≠ mods)
      ∧ (mine.foldl (fun n e => n.graft e e.segments) n).resourceAt? mods = n.resourceAt? mods) := by
  induction mine generalizing n with
  | nil => exact .inr ⟨by simp, rfl⟩
  | cons e mine ih =>
    obtain ⟨he, hrest⟩ := List.forall_mem_cons.mp hmine
    rw [List.foldl_cons]
    obtain ⟨e', hmem, hmods, hlast⟩ | ⟨hnone, hsame⟩ := ih hrest (neat_graft e he h)
    · exact .inl ⟨e', List.mem_cons_of_mem _ hmem, hmods, hlast⟩
    · rw [resourceAt?_graft he h] at hsame
      by_cases hmods : mods = e.modules
      · exact .inl ⟨e, List.mem_cons_self, hmods.symm, by rw [hsame]; exact if_pos hmods⟩
      · refine .inr ⟨List.forall_mem_cons.mpr ⟨Ne.symm hmods, hnone⟩, ?_⟩
        rw [hsame]
        exact if_neg hmods

/-! ## The files below a directory -/

/-- The module file of a directory itself. -/
def file (path : List String) : ModuleNode → ModuleFile
  | node dotted resource children =>
    ⟨path ++ ["mod.rs"], directoryFile dotted resource (children.map Prod.fst)⟩

theorem mem_files_iff {n : ModuleNode} (h : n.Neat) {path : List String} {f : ModuleFile} :
    f ∈ n.files path ↔ ∃ mods d, n.at? mods = some d ∧ f = d.file (path ++ mods) := by
  induction h generalizing path with
  | node dotted resource children sorted spelled below ih =>
    rw [files, filesAll_eq, List.mem_cons, List.mem_flatMap]
    constructor
    · rintro (rfl | ⟨⟨m, c⟩, hc, hf⟩)
      · exact ⟨[], _, rfl, by rw [List.append_nil]; rfl⟩
      · obtain ⟨mods, d, hd, rfl⟩ := (ih _ hc).mp hf
        refine ⟨m :: mods, d, ?_, by rw [List.append_assoc]; rfl⟩
        rw [at?, (mem_iff_get? sorted).mp hc]
        exact hd
    · rintro ⟨_ | ⟨m, mods⟩, d, hd, rfl⟩
      · cases hd
        exact .inl (by rw [List.append_nil]; rfl)
      · obtain ⟨c, hc, hd⟩ := Option.bind_eq_some_iff.mp hd
        have hmem := (mem_iff_get? sorted).mpr hc
        refine .inr ⟨(m, c), hmem, (ih _ hmem).mpr ⟨mods, d, hd, ?_⟩⟩
        rw [List.append_assoc]
        rfl

end ModuleNode

/-! ## The files of a crate -/

/-- A way below the directory of a category that begins the way of one of its resources. -/
def DirOf (entries : List ResourceEntry) (c : Category) (mods : List String) : Prop :=
  ∃ e ∈ entries, e.category = c ∧ mods <+: e.modules

section Spelled

variable {entries : List ResourceEntry} (h : ∀ e ∈ entries, e.IsSpelled)

include h

/-- The node of a category holds the ways of its resources, and each resource at the end of its way. -/
theorem categoryNode?_spec {c : Category} {n : ModuleNode} (hn : categoryNode? entries c = some n) :
    (∀ mods, n.IsDir mods ↔ DirOf entries c mods)
      ∧ ∀ mods, (∃ e ∈ entries, e.category = c ∧ e.modules = mods ∧ n.resourceAt? mods = some e)
        ∨ (∀ e ∈ entries, e.category = c → e.modules ≠ mods) ∧ n.resourceAt? mods = none := by
  have hcategory : ∀ e, e ∈ entries.filter (fun e => e.category == c) ↔ e ∈ entries ∧ e.category = c :=
    fun e => by simp
  have hmine : ∀ e ∈ entries.filter (fun e => e.category == c), e.IsSpelled :=
    fun e he => h e ((hcategory e).mp he).1
  unfold categoryNode? at hn
  split at hn
  · cases hn
  · rename_i hne
    cases hn
    have hfresh := ModuleNode.neat_fresh c.text
    constructor
    · intro mods
      rw [ModuleNode.isDir_grafts hmine hfresh, ModuleNode.isDir_fresh]
      constructor
      · rintro (rfl | ⟨e, he, hmods⟩)
        · obtain ⟨e, he⟩ := List.exists_mem_of_ne_nil _ hne
          exact ⟨e, ((hcategory e).mp he).1, ((hcategory e).mp he).2, List.nil_prefix⟩
        · exact ⟨e, ((hcategory e).mp he).1, ((hcategory e).mp he).2, hmods⟩
      · rintro ⟨e, he, hc, hmods⟩
        exact .inr ⟨e, (hcategory e).mpr ⟨he, hc⟩, hmods⟩
    · intro mods
      obtain ⟨e, he, hmods, hlast⟩ | ⟨hnone, hsame⟩ := ModuleNode.resourceAt?_grafts hmine hfresh mods
      · exact .inl ⟨e, ((hcategory e).mp he).1, ((hcategory e).mp he).2, hmods, hlast⟩
      · refine .inr ⟨fun e he hc => hnone e ((hcategory e).mpr ⟨he, hc⟩), ?_⟩
        rw [hsame, ModuleNode.resourceAt?_fresh]

omit h in
theorem exists_categoryNode? {c : Category} :
    (∃ n, categoryNode? entries c = some n) ↔ ∃ e ∈ entries, e.category = c := by
  have hfilter : (∃ e ∈ entries, e.category = c)
      ↔ entries.filter (fun e => e.category == c) ≠ [] := by
    simp
  rw [hfilter, categoryNode?]
  cases entries.filter (fun e => e.category == c) <;> simp

/-- The module file of a directory: what it declares and re-exports of a resource that ends there, and
then the directories in it. -/
structure Describes (entries : List ResourceEntry) (c : Category) (mods : List String)
    (f : ModuleFile) : Prop where
  path : f.path = "src" :: c.text :: mods ++ ["mod.rs"]
  items : ∃ (resource : Option ResourceEntry) (names : List String),
    f.source.items = resource.toList.flatMap resourceItems ++ names.map publicModule
    ∧ names.Nodup ∧ (∀ x, x ∈ names ↔ DirOf entries c (mods ++ [x]))
    ∧ (∀ e, resource = some e → e ∈ entries ∧ e.category = c ∧ e.modules = mods)
    ∧ (resource = none → ∀ e ∈ entries, e.category = c → e.modules ≠ mods)

theorem describes_file {c : Category} {n d : ModuleNode} (hn : categoryNode? entries c = some n)
    {mods : List String} (hd : n.at? mods = some d) :
    Describes entries c mods (d.file ("src" :: c.text :: mods)) := by
  have hneat := neat_categoryNode h hn
  obtain ⟨hdirs, hresources⟩ := categoryNode?_spec h hn
  have hresource : n.resourceAt? mods = d.resource? := by
    rw [ModuleNode.resourceAt?, hd]
    rfl
  have hnames := (hneat.at? hd).nodup_names
  have hbelow : ∀ x, x ∈ d.names ↔ DirOf entries c (mods ++ [x]) := fun x => by
    rw [ModuleNode.mem_names_iff hd, hdirs]
  have hat := hresources mods
  rw [hresource] at hat
  obtain ⟨dotted, resource, children⟩ := d
  refine ⟨rfl, resource, children.map Prod.fst, rfl, hnames, hbelow, fun e he => ?_, fun he => ?_⟩
  · obtain ⟨e', hmem, hc, hmods, hsome⟩ | ⟨-, hnone⟩ := hat
    · have hsame := hsome.symm.trans he
      cases hsame
      exact ⟨hmem, hc, hmods⟩
    · have hsame := hnone.symm.trans he
      cases hsame
  · obtain ⟨e', -, -, -, hsome⟩ | ⟨hnone, -⟩ := hat
    · have hsame := hsome.symm.trans he
      cases hsame
    · exact hnone

/-- The file at the top, which declares the categories that have resources. -/
def topFile (entries : List ResourceEntry) : ModuleFile :=
  ⟨["src", "lib.rs"], crateFile ((categoryNodes entries).map Prod.fst)⟩

omit h in
theorem mem_moduleFiles_iff {f : ModuleFile} : f ∈ moduleFiles entries ↔ f = topFile entries
    ∨ ∃ c n, categoryNode? entries c = some n ∧ f ∈ n.files ["src", c.text] := by
  rw [moduleFiles, List.mem_mergeSort, List.mem_cons, List.mem_flatMap]
  refine or_congr Iff.rfl ⟨?_, ?_⟩
  · rintro ⟨⟨c, n⟩, hc, hf⟩
    exact ⟨c, n, mem_categoryNodes hc, hf⟩
  · rintro ⟨c, n, hn, hf⟩
    refine ⟨(c, n), List.mem_filterMap.mpr ⟨c, ?_, by rw [hn]; rfl⟩, hf⟩
    cases c <;> decide

/-- Every module file but the one at the top describes a directory. -/
theorem describes_of_mem_moduleFiles {f : ModuleFile} (hf : f ∈ moduleFiles entries) :
    f = topFile entries ∨ ∃ c mods, DirOf entries c mods ∧ Describes entries c mods f := by
  obtain htop | ⟨c, n, hn, hf⟩ := mem_moduleFiles_iff.mp hf
  · exact .inl htop
  · obtain ⟨mods, d, hd, rfl⟩ := (ModuleNode.mem_files_iff (neat_categoryNode h hn)).mp hf
    refine .inr ⟨c, mods, ((categoryNode?_spec h hn).1 mods).mp ?_, describes_file h hn hd⟩
    rw [ModuleNode.IsDir, hd]
    rfl

/-- Every directory is described by a module file. -/
theorem exists_describes {c : Category} {mods : List String} (hdir : DirOf entries c mods) :
    ∃ f ∈ moduleFiles entries, Describes entries c mods f := by
  obtain ⟨e, he, hc, hmods⟩ := hdir
  obtain ⟨n, hn⟩ := exists_categoryNode?.mpr ⟨e, he, hc⟩
  have hsome := ((categoryNode?_spec h hn).1 mods).mpr ⟨e, he, hc, hmods⟩
  obtain ⟨d, hd⟩ := Option.isSome_iff_exists.mp hsome
  refine ⟨d.file ("src" :: c.text :: mods), mem_moduleFiles_iff.mpr (.inr ⟨c, n, hn, ?_⟩),
    describes_file h hn hd⟩
  exact (ModuleNode.mem_files_iff (neat_categoryNode h hn)).mpr ⟨mods, d, hd, rfl⟩

end Spelled

end RestForge.Crate
