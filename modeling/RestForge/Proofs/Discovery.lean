import Mathlib.Algebra.Order.BigOperators.Group.List
import RestForge.Proofs.ByteOrder
import RestForge.Proofs.MadeDirectories
import RestForge.Proofs.Pieces
import RestForge.Schema.Document

/-!
# Which schema files are discovered

* `extension?_eq_some_iff`, `isSchemaName_iff`, `isAside_iff`: what the name of a file tells.
* `IsWalk`: a depth-first walk that takes the entries of a directory in the order of their bytes and
  follows no link; `isWalk_iff`: there is one, and it comes across what `FileTree.below` lists.
* `Discovered`: the schema files below a directory, each once and in order; `discover_exact`:
  discovery lists them, for every root that leads to a directory.
-/

set_option autoImplicit false

namespace RestForge

/-! ## Names -/

namespace FileTree.Path

open Text (split split_append split_of_notMem split_injective split_intercalate intercalate_split
  notMem_of_mem_split)

/-- What follows the last dot, unless nothing stands before that dot. -/
theorem extension?_eq_some_iff {name extension : String} : extension? name = some extension
    ↔ ∃ stem, stem ≠ "" ∧ '.' ∉ extension.toList ∧ name = stem ++ "." ++ extension := by
  have hdot : String.singleton '.' = "." := rfl
  constructor
  · intro h
    unfold extension? cutExtension at h
    rcases hpieces : (split '.' name).reverse with _ | ⟨last, before⟩ <;> rw [hpieces] at h
    · cases h
    · dsimp only at h
      split_ifs at h with hempty
      obtain rfl := Option.some.inj h
      have hsplit : split '.' name = before.reverse ++ [last] := by
        rw [← List.reverse_reverse (split '.' name), hpieces, List.reverse_cons]
      have hfree : ∀ piece ∈ before.reverse ++ [last], '.' ∉ piece.toList := fun piece hpiece =>
        notMem_of_mem_split (hsplit ▸ hpiece)
      have hlast : '.' ∉ last.toList := hfree last (by simp)
      have hbefore : before.reverse ≠ [] := by
        rintro hnil
        simp [hnil] at hempty
      refine ⟨String.intercalate "." before.reverse, by simpa using hempty, hlast,
        split_injective '.' ?_⟩
      have hstem := split_intercalate (fun piece hpiece => hfree piece (by simp [hpiece])) hbefore
      rw [← hdot, split_append, hstem, split_of_notMem hlast, hsplit]
  · rintro ⟨stem, hstem, hfree, rfl⟩
    have hreverse : (split '.' (stem ++ "." ++ extension)).reverse
        = extension :: (split '.' stem).reverse := by
      rw [← hdot, split_append, split_of_notMem hfree, List.reverse_append]
      rfl
    rw [extension?, cutExtension, hreverse]
    dsimp only
    rw [List.reverse_reverse, ← hdot, intercalate_split, if_neg (by simpa using hstem)]

end FileTree.Path

namespace Schema

theorem isSchemaName_iff {name : String} :
    isSchemaName name = true ↔ ∃ stem, stem ≠ "" ∧ name = stem ++ ".json" := by
  have hdot : ∀ stem : String, stem ++ ".json" = stem ++ "." ++ "json" := fun stem => by
    rw [String.append_assoc]
    rfl
  rw [isSchemaName, beq_iff_eq, FileTree.Path.extension?_eq_some_iff]
  simp only [hdot]
  exact exists_congr fun stem => and_congr_right fun _ => and_iff_right (by decide)

theorem head?_eq_some_iff {name : String} {c : Char} :
    name.toList.head? = some c ↔ ∃ rest, name = String.singleton c ++ rest := by
  rw [List.head?_eq_some_iff]
  constructor
  · rintro ⟨rest, hrest⟩
    exact ⟨String.ofList rest, String.toList_injective (by simp [hrest])⟩
  · rintro ⟨rest, rfl⟩
    exact ⟨rest.toList, by simp⟩

theorem isAside_iff {name : String} : isAside name = true ↔ (∃ rest, name = "_" ++ rest)
    ∨ (∃ rest, name = "." ++ rest) ∨ name = "index.json" ∨ name = "manifest.json" := by
  simp only [isAside, Bool.or_eq_true, beq_iff_eq, head?_eq_some_iff, or_assoc]
  rfl

end Schema

namespace FileTree

open Text (utf8 utf8_lt_iff)

section Order

/-- The first names that differ decide. -/
theorem append_cons_lt {dir rest rest' : List String} {name name' : String} (h : name < name') :
    dir ++ name :: rest < dir ++ name' :: rest' :=
  List.append_left_lt (List.cons_lt_cons_iff.mpr (.inl h))

theorem lt_append {dir rest : List String} (hne : rest ≠ []) : dir < dir ++ rest := by
  obtain ⟨name, rest, rfl⟩ := List.exists_cons_of_ne_nil hne
  have h : dir ++ [] < dir ++ name :: rest := List.append_left_lt (List.nil_lt_cons name rest)
  rwa [List.append_nil] at h

theorem lt_of_append_lt {dir p q : List String} (h : dir ++ p < dir ++ q) : p < q := by
  induction dir with
  | nil => exact h
  | cons name dir ih =>
    obtain hlt | ⟨-, hrest⟩ := List.cons_lt_cons_iff.mp h
    · exact absurd hlt (lt_irrefl name)
    · exact ih hrest

end Order

/-! ## What lies below a directory -/

section Below

variable {t : FileTree} {here p : Place} {entry : Entry}

theorem mem_below_iff (h : t.Ordered) :
    (p, entry) ∈ t.below here ↔ p ≠ [] ∧ t.get? (here ++ p) = some entry := by
  rw [below, List.mem_filterMap]
  constructor
  · rintro ⟨e, he, hpath⟩
    obtain ⟨path, hrelative, hpair⟩ := Option.map_eq_some_iff.mp hpath
    obtain ⟨rfl, rfl⟩ := Prod.mk.inj hpair
    obtain ⟨hplace, hne⟩ := relative?_eq_some_iff.mp hrelative
    rw [← hplace]
    exact ⟨hne, (h.get?_iff (h.rooted e he)).mpr he⟩
  · rintro ⟨hne, hget⟩
    refine ⟨_, (h.get?_iff (by simp [hne])).mp hget, ?_⟩
    rw [relative?_eq_some_iff.mpr ⟨rfl, hne⟩]
    rfl

theorem sorted_below (h : t.Ordered) (here : Place) : KeyedList.Sorted (t.below here) := by
  refine List.pairwise_filterMap.mpr (h.sorted.imp fun {e e'} hlt => ?_)
  intro b hb b' hb'
  obtain ⟨path, hpath, rfl⟩ := Option.map_eq_some_iff.mp hb
  obtain ⟨path', hpath', rfl⟩ := Option.map_eq_some_iff.mp hb'
  rw [(relative?_eq_some_iff.mp hpath).1, (relative?_eq_some_iff.mp hpath').1] at hlt
  exact lt_of_append_lt hlt

end Below

/-! ## Walks -/

/-- The names in a directory, in the order of their bytes. -/
structure IsListing (t : FileTree) (place : Place) (names : List String) : Prop where
  sorted : names.Pairwise fun a b => utf8 a < utf8 b
  complete : ∀ name, name ∈ names ↔ t.get? (place ++ [name]) ≠ none

/-- What a walk through names of the directory `dir` below `here` comes across: each name, and
behind the name of a directory all that lies below it. Links are not followed. -/
inductive Visits (t : FileTree) (here : Place) :
    Place → List String → List (Place × Entry) → Prop where
  | done (dir : Place) : Visits t here dir [] []
  | entry {dir : Place} {name : String} {rest : List String} {entry : Entry}
      {visited : List (Place × Entry)}
      (hget : t.get? (here ++ (dir ++ [name])) = some entry) (hentry : entry ≠ .directory)
      (later : Visits t here dir rest visited) :
      Visits t here dir (name :: rest) ((dir ++ [name], entry) :: visited)
  | directory {dir : Place} {name : String} {rest names : List String}
      {inner visited : List (Place × Entry)}
      (hget : t.get? (here ++ (dir ++ [name])) = some .directory)
      (hnames : IsListing t (here ++ (dir ++ [name])) names)
      (inside : Visits t here (dir ++ [name]) names inner)
      (later : Visits t here dir rest visited) :
      Visits t here dir (name :: rest) ((dir ++ [name], .directory) :: (inner ++ visited))

/-- A walk through everything below a directory. -/
def IsWalk (t : FileTree) (here : Place) (visited : List (Place × Entry)) : Prop :=
  ∃ names, IsListing t here names ∧ Visits t here [] names visited

section Walk

variable {t : FileTree} {here dir p : Place} {name : String} {names : List String}
  {entry found : Entry} {visited : List (Place × Entry)}

theorem ClosedBelow.free_below (hclosed : ClosedBelow t here) (hne : dir ≠ [])
    (hfree : t.get? (here ++ dir) = none) (more : Place) :
    t.get? (here ++ (dir ++ more)) = none := by
  by_cases hmore : more = []
  · rwa [hmore, List.append_nil]
  · rw [← List.append_assoc]
    exact hclosed.free hne (by simp [hfree]) hmore

/-- Nothing lies below what is no directory. -/
theorem below_entry (hclosed : ClosedBelow t here)
    (hget : t.get? (here ++ (dir ++ [name])) = some found) (hentry : found ≠ .directory) :
    (∃ more, p = dir ++ name :: more ∧ t.get? (here ++ p) = some entry)
      ↔ p = dir ++ [name] ∧ entry = found := by
  constructor
  · rintro ⟨more, rfl, hthere⟩
    obtain rfl : more = [] := by
      by_contra hmore
      have hfree := hclosed.free (q := dir ++ [name]) (by simp) (by simp [hget, hentry]) hmore
      rw [List.append_assoc here, ← List.append_cons, hthere] at hfree
      cases hfree
    rw [hget] at hthere
    exact ⟨rfl, (Option.some.inj hthere).symm⟩
  · rintro ⟨rfl, rfl⟩
    exact ⟨[], rfl, hget⟩

/-- What lies below a directory begins with a name that is listed there. -/
theorem below_directory (hclosed : ClosedBelow t here)
    (hget : t.get? (here ++ (dir ++ [name])) = some .directory)
    (hnames : IsListing t (here ++ (dir ++ [name])) names) :
    (∃ more, p = dir ++ name :: more ∧ t.get? (here ++ p) = some entry)
      ↔ (p = dir ++ [name] ∧ entry = .directory)
        ∨ ∃ n ∈ names, ∃ more,
          p = dir ++ [name] ++ n :: more ∧ t.get? (here ++ p) = some entry := by
  constructor
  · rintro ⟨more, rfl, hthere⟩
    obtain _ | ⟨n, more⟩ := more
    · rw [hget] at hthere
      exact .inl ⟨rfl, (Option.some.inj hthere).symm⟩
    · refine .inr ⟨n, (hnames.complete n).mpr fun hfree => ?_, more, List.append_cons .., hthere⟩
      rw [List.append_assoc here] at hfree
      have hbelow := hclosed.free_below (by simp) hfree more
      rw [← List.append_cons, ← List.append_cons, hthere] at hbelow
      cases hbelow
  · rintro (⟨rfl, rfl⟩ | ⟨n, -, more, rfl, hthere⟩)
    · exact ⟨[], rfl, hget⟩
    · exact ⟨n :: more, (List.append_cons ..).symm, hthere⟩

/-- A walk comes across everything that begins with one of its names, and nothing else. -/
theorem Visits.mem_iff (h : Visits t here dir names visited) (hclosed : ClosedBelow t here) :
    (p, entry) ∈ visited
      ↔ ∃ n ∈ names, ∃ more, p = dir ++ n :: more ∧ t.get? (here ++ p) = some entry := by
  induction h with
  | done dir => simp
  | entry hget hentry later ih =>
    rw [List.mem_cons, List.exists_mem_cons_iff, below_entry hclosed hget hentry, Prod.mk.injEq, ih]
  | directory hget hnames inside later ihInside ihLater =>
    rw [List.mem_cons, List.mem_append, List.exists_mem_cons_iff,
      below_directory hclosed hget hnames, Prod.mk.injEq, ihInside, ihLater, or_assoc]

/-- A walk comes across places in increasing order. -/
theorem Visits.sorted (h : Visits t here dir names visited) (hclosed : ClosedBelow t here)
    (hnames : names.Pairwise (· < ·)) : KeyedList.Sorted visited := by
  induction h with
  | done dir => exact .nil
  | @entry dir name rest found visited hget hentry later ih =>
    obtain ⟨hfirst, hrest⟩ := List.pairwise_cons.mp hnames
    refine .cons (fun e he => ?_) (ih hrest)
    obtain ⟨n, hn, more, hplace, -⟩ := (later.mem_iff hclosed).mp he
    rw [hplace]
    exact append_cons_lt (hfirst n hn)
  | @directory dir name rest names inner visited hget hlisting inside later ihInside ihLater =>
    obtain ⟨hfirst, hrest⟩ := List.pairwise_cons.mp hnames
    have hlater : ∀ e ∈ visited, ∃ n more, name < n ∧ e.1 = dir ++ n :: more := fun e he => by
      obtain ⟨n, hn, more, hplace, -⟩ := (later.mem_iff hclosed).mp he
      exact ⟨n, more, hfirst n hn, hplace⟩
    have hinner : ∀ e ∈ inner, ∃ n more, e.1 = dir ++ [name] ++ n :: more := fun e he => by
      obtain ⟨n, -, more, hplace, -⟩ := (inside.mem_iff hclosed).mp he
      exact ⟨n, more, hplace⟩
    refine .cons (fun e he => ?_) (List.pairwise_append.mpr
      ⟨ihInside (hlisting.sorted.imp utf8_lt_iff.mp), ihLater hrest, fun e he e' he' => ?_⟩)
    · obtain he | he := List.mem_append.mp he
      · obtain ⟨n, more, hplace⟩ := hinner e he
        rw [hplace]
        exact lt_append (List.cons_ne_nil n more)
      · obtain ⟨n, more, hn, hplace⟩ := hlater e he
        rw [hplace]
        exact append_cons_lt hn
    · obtain ⟨n, more, hplace⟩ := hinner e he
      obtain ⟨n', more', hn, hplace'⟩ := hlater e' he'
      rw [hplace, hplace', ← List.append_cons]
      exact append_cons_lt hn

theorem IsWalk.eq_below (hwalk : t.IsWalk here visited) (h : t.WellFormed) :
    visited = t.below here := by
  obtain ⟨names, hlisting, hvisits⟩ := hwalk
  have hclosed := h.closedBelow here
  refine KeyedList.sorted_ext_mem (sorted_below h.toOrdered here)
    (hvisits.sorted hclosed (hlisting.sorted.imp utf8_lt_iff.mp)) fun ⟨p, entry⟩ => ?_
  rw [hvisits.mem_iff hclosed, mem_below_iff h.toOrdered]
  constructor
  · rintro ⟨n, -, more, rfl, hget⟩
    exact ⟨by simp, hget⟩
  · rintro ⟨hne, hget⟩
    obtain ⟨n, more, rfl⟩ := List.exists_cons_of_ne_nil hne
    refine ⟨n, (hlisting.complete n).mpr fun hfree => ?_, more, rfl, hget⟩
    have hbelow : t.get? (here ++ ([n] ++ more)) = none :=
      hclosed.free_below (List.cons_ne_nil n []) hfree more
    rw [List.singleton_append, hget] at hbelow
    cases hbelow

/-! ## There is a walk -/

/-- The name of an entry that stands in the directory itself. -/
def ownName? (e : Place × Entry) : Option String :=
  match e.1 with
  | [name] => some name
  | _ => none

theorem ownName?_eq_some_iff {e : Place × Entry} : ownName? e = some name ↔ e.1 = [name] := by
  obtain ⟨path, entry⟩ := e
  unfold ownName?
  split <;> simp_all

theorem exists_listing (h : t.Ordered) (place : Place) : ∃ names, IsListing t place names := by
  refine ⟨(t.below place).filterMap ownName?, ?_, fun name => ?_⟩
  · refine List.pairwise_filterMap.mpr ((sorted_below h place).imp fun {e e'} hlt => ?_)
    intro name hname name' hname'
    rw [ownName?_eq_some_iff.mp hname, ownName?_eq_some_iff.mp hname'] at hlt
    obtain hless | ⟨-, hnil⟩ := List.cons_lt_cons_iff.mp hlt
    · exact utf8_lt_iff.mpr hless
    · exact absurd hnil (List.lt_irrefl [])
  · rw [List.mem_filterMap, Option.ne_none_iff_exists']
    constructor
    · rintro ⟨⟨path, entry⟩, hmem, hname⟩
      obtain rfl : path = [name] := ownName?_eq_some_iff.mp hname
      exact ⟨entry, ((mem_below_iff h).mp hmem).2⟩
    · rintro ⟨entry, hget⟩
      exact ⟨([name], entry), (mem_below_iff h).mpr ⟨by simp, hget⟩, rfl⟩

/-- By induction on how many names a place can have below the directory. -/
theorem exists_visits (h : t.Ordered) (here : Place) (room : Nat) (dir : Place)
    (hroom : ∀ e ∈ t.entries, e.1.length ≤ (here ++ dir).length + room) (names : List String)
    (hnames : ∀ name ∈ names, t.get? (here ++ (dir ++ [name])) ≠ none) :
    ∃ visited, Visits t here dir names visited := by
  induction room generalizing dir names with
  | zero =>
    obtain _ | ⟨name, names⟩ := names
    · exact ⟨[], .done dir⟩
    · obtain ⟨entry, hget⟩ := Option.ne_none_iff_exists'.mp (hnames name List.mem_cons_self)
      have hlong := hroom _ ((h.get?_iff (by simp)).mp hget)
      simp only [List.length_append, List.length_singleton] at hlong
      omega
  | succ room ih =>
    induction names with
    | nil => exact ⟨[], .done dir⟩
    | cons name names ihNames =>
      obtain ⟨hname, hrest⟩ := List.forall_mem_cons.mp hnames
      obtain ⟨visited, later⟩ := ihNames hrest
      obtain ⟨entry, hget⟩ := Option.ne_none_iff_exists'.mp hname
      by_cases hentry : entry = .directory
      · subst hentry
        obtain ⟨inside, hinside⟩ := exists_listing h (here ++ (dir ++ [name]))
        have hdeep : ∀ e ∈ t.entries, e.1.length ≤ (here ++ (dir ++ [name])).length + room :=
          fun e he => by
            have hlong := hroom e he
            simp only [List.length_append, List.length_singleton] at hlong ⊢
            omega
        obtain ⟨inner, hinner⟩ := ih (dir ++ [name]) hdeep inside fun n hn => by
          rw [← List.append_assoc]
          exact (hinside.complete n).mp hn
        exact ⟨_, .directory hget hinside hinner later⟩
      · exact ⟨_, .entry hget hentry later⟩

theorem isWalk_iff (h : t.WellFormed) : t.IsWalk here visited ↔ visited = t.below here := by
  refine ⟨fun hwalk => hwalk.eq_below h, ?_⟩
  rintro rfl
  obtain ⟨names, hlisting⟩ := exists_listing h.toOrdered here
  have hroom : ∀ e ∈ t.entries,
      e.1.length ≤ (here ++ []).length + (t.entries.map fun e => e.1.length).sum := by
    intro e he
    have hsum : e.1.length ≤ (t.entries.map fun e => e.1.length).sum :=
      List.le_sum_of_mem (List.mem_map.mpr ⟨e, he, rfl⟩)
    omega
  obtain ⟨visited, hvisits⟩ := exists_visits h.toOrdered here _ [] hroom names fun name hname =>
    (hlisting.complete name).mp hname
  have hwalk : t.IsWalk here visited := ⟨names, hlisting, hvisits⟩
  rwa [hwalk.eq_below h] at hwalk

end Walk

end FileTree

/-! ## Discovery -/

namespace Schema

open FileTree (Place Entry IsWalk)
open FileTree.Path (join)
open Text (utf8)

/-- The schema file that an entry below the root is. -/
def schemaFile? (root : String) (e : Place × Entry) : Option SchemaFile :=
  match e.2 with
  | .file _ => if isSchemaName (e.1.getLastD "") then some ⟨join root e.1, e.1⟩ else none
  | _ => none

/-- The schema files below the directory `here` that `root` leads to. -/
structure Discovered (t : FileTree) (root : String) (here : Place) (files : List SchemaFile) :
    Prop where
  /-- A walk comes across the files in this order. -/
  walked : ∃ visited, IsWalk t here visited ∧ visited.filterMap (schemaFile? root) = files
  /-- So does every walk. -/
  anyWalk : ∀ visited, IsWalk t here visited → visited.filterMap (schemaFile? root) = files
  /-- They are the plain files at any depth that have the extension. -/
  found : ∀ f, f ∈ files ↔ ∃ dir name bytes, f = ⟨join root (dir ++ [name]), dir ++ [name]⟩
    ∧ t.get? (here ++ (dir ++ [name])) = some (.file bytes)
    ∧ ∃ stem, stem ≠ "" ∧ name = stem ++ ".json"
  once : (files.map SchemaFile.names).Nodup
  /-- The name of a file alone decides whether it is read. -/
  skipped : ∀ f ∈ files, ∀ dir name, f.names = dir ++ [name] →
    (f.isSkipped = true ↔ (∃ rest, name = "_" ++ rest) ∨ (∃ rest, name = "." ++ rest)
      ∨ name = "index.json" ∨ name = "manifest.json")
  /-- Paths from the root are compared name by name, and names by their bytes. -/
  ordered : files.Pairwise fun f g => f.names.map utf8 < g.names.map utf8

theorem discover_eq (t : FileTree) (root : String) : discover t root
    = (t.directoryAt? root).map fun here => (t.below here).filterMap (schemaFile? root) := by
  unfold discover FileTree.filesBelow
  congr 1
  funext here
  rw [List.filter_filterMap, List.map_filterMap]
  refine List.filterMap_congr fun e _ => ?_
  obtain ⟨names, bytes | target | _⟩ := e <;> unfold schemaFile? <;>
    simp only [Option.filter_some, Option.filter_none, Option.map_none]
  split_ifs <;> rfl

theorem schemaFile?_eq_some_iff {root : String} {e : Place × Entry} {f : SchemaFile} :
    schemaFile? root e = some f ↔ ∃ bytes, e.2 = .file bytes
      ∧ isSchemaName (e.1.getLastD "") = true ∧ f = ⟨join root e.1, e.1⟩ := by
  obtain ⟨names, entry⟩ := e
  cases entry with
  | file bytes =>
    simp only [schemaFile?, Option.ite_none_right_eq_some, Option.some.injEq,
      FileTree.Entry.file.injEq, exists_eq_left', @eq_comm _ _ f]
  | link target => simp [schemaFile?]
  | directory => simp [schemaFile?]

section Files

variable {t : FileTree} {root : String} {here : Place}

theorem mem_discovered_iff (h : t.Ordered) {f : SchemaFile} :
    f ∈ (t.below here).filterMap (schemaFile? root)
      ↔ ∃ dir name bytes, f = ⟨join root (dir ++ [name]), dir ++ [name]⟩
        ∧ t.get? (here ++ (dir ++ [name])) = some (.file bytes)
        ∧ ∃ stem, stem ≠ "" ∧ name = stem ++ ".json" := by
  rw [List.mem_filterMap]
  constructor
  · rintro ⟨⟨names, entry⟩, hmem, hfile⟩
    obtain ⟨hne, hget⟩ := (FileTree.mem_below_iff h).mp hmem
    obtain ⟨bytes, rfl, hname, rfl⟩ := schemaFile?_eq_some_iff.mp hfile
    obtain ⟨dir, name, rfl⟩ : ∃ dir name, names = dir ++ [name] :=
      ⟨_, _, (List.dropLast_append_getLast hne).symm⟩
    rw [List.getLastD_concat] at hname
    exact ⟨dir, name, bytes, rfl, hget, isSchemaName_iff.mp hname⟩
  · rintro ⟨dir, name, bytes, rfl, hget, hname⟩
    refine ⟨(dir ++ [name], .file bytes), (FileTree.mem_below_iff h).mpr ⟨by simp, hget⟩,
      schemaFile?_eq_some_iff.mpr ⟨bytes, rfl, ?_, rfl⟩⟩
    rw [List.getLastD_concat]
    exact isSchemaName_iff.mpr hname

theorem sorted_discovered (h : t.Ordered) (root : String) (here : Place) :
    ((t.below here).filterMap (schemaFile? root)).Pairwise fun f g => f.names < g.names := by
  refine List.pairwise_filterMap.mpr ((FileTree.sorted_below h here).imp fun {e e'} hlt => ?_)
  intro f hf g hg
  obtain ⟨_, -, -, rfl⟩ := schemaFile?_eq_some_iff.mp hf
  obtain ⟨_, -, -, rfl⟩ := schemaFile?_eq_some_iff.mp hg
  exact hlt

/-- Discovery lists the schema files below every root that leads to a directory. -/
theorem discover_exact (h : t.WellFormed) (hroot : t.directoryAt? root = some here) :
    ∃ files, discover t root = some files ∧ Discovered t root here files := by
  have hsorted := sorted_discovered h.toOrdered root here
  refine ⟨_, by rw [discover_eq, hroot, Option.map_some], ?_⟩
  constructor
  case walked => exact ⟨_, (FileTree.isWalk_iff h).mpr rfl, rfl⟩
  case anyWalk =>
    intro visited hwalk
    rw [(FileTree.isWalk_iff h).mp hwalk]
  case found => exact fun f => mem_discovered_iff h.toOrdered
  case once => exact List.pairwise_map.mpr (hsorted.imp fun hlt => ne_of_lt hlt)
  case skipped =>
    intro f _ dir name hnames
    rw [SchemaFile.isSkipped, SchemaFile.name, hnames, List.getLastD_concat]
    exact isAside_iff
  case ordered => exact hsorted.imp Text.map_utf8_lt

/-- The schema root is a link, and links and directories stand among the files below it. -/
def storedTree : FileTree :=
  ⟨["w"], [(["w"], .directory), (["w", "schemas"], .link "store/all"), (["w", "store"], .directory),
    (["w", "store", "all"], .directory), (["w", "store", "all", ".json"], .file #[]),
    (["w", "store", "all", "_a.json"], .file #[]), (["w", "store", "all", "a"], .directory),
    (["w", "store", "all", "a", "z.json"], .file #[]), (["w", "store", "all", "a.json"], .file #[]),
    (["w", "store", "all", "b.json"], .link "a.json"),
    (["w", "store", "all", "c.json"], .directory), (["w", "store", "all", "d.txt"], .file #[])], []⟩

def storedFiles : List SchemaFile :=
  [⟨"schemas/_a.json", ["_a.json"]⟩, ⟨"schemas/a/z.json", ["a", "z.json"]⟩,
    ⟨"schemas/a.json", ["a.json"]⟩]

theorem storedTree_root : storedTree.directoryAt? "schemas" = some ["w", "store", "all"] := by
  refine FileTree.directoryAt?_passes.mpr ⟨by decide, 39, ?_⟩
  have hpieces : FileTree.Path.pieces "schemas" = ["schemas"]
      ∧ FileTree.Path.pieces "store/all" = ["store", "all"] := by decide
  rw [hpieces.1]
  have htarget : FileTree.Passes storedTree 39 ["w"] (FileTree.Path.pieces "store/all" ++ []) 39
      ["w", "store", "all"] := by
    rw [hpieces.2]
    exact .into (by decide) rfl (.into (by decide) rfl (.here _ _))
  exact .through (by decide) rfl htarget

theorem discover_exact_stored : storedTree.WellFormed
    ∧ storedTree.directoryAt? "schemas" = some ["w", "store", "all"]
    ∧ discover storedTree "schemas" = some storedFiles
    ∧ Discovered storedTree "schemas" ["w", "store", "all"] storedFiles := by
  have hwell : storedTree.WellFormed := by decide
  obtain ⟨files, hfiles, hdiscovered⟩ := discover_exact hwell storedTree_root
  have hlisted : discover storedTree "schemas" = some storedFiles := by
    rw [discover, storedTree_root]
    rfl
  obtain rfl := Option.some.inj (hfiles.symm.trans hlisted)
  exact ⟨hwell, storedTree_root, hlisted, hdiscovered⟩

end Files

end Schema

end RestForge
