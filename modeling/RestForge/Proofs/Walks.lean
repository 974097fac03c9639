import RestForge.Proofs.Directories
import RestForge.Proofs.WrittenFiles

/-!
# Where paths lead through links

* `Ordered`: entries in order; `Ordered.ext`: the entries of such trees are told apart by look-up alone.
* `WellFormed`: a tree that a disk can hold.
* `Passes`: pieces lead from one directory to another, through links; `passes_iff`: so the search
  finds it.
* `Passes.walk`, `walk_stuck`: the search behind pieces that lead to a directory, or to none.
* `Passes.mono`: what leads to a directory still does where directories and links have stayed.
* `walk_plain`: names alone lead the same way whatever the search does with links.
-/

set_option autoImplicit false

namespace RestForge

/-! ## Keys in order -/

namespace KeyedList

variable {κ α : Type} [DecidableEq κ] [LT κ] [DecidableLT κ] [IsStrictTotalOrder κ (· < ·)]
  {l l' : List (κ × α)}

omit [DecidableEq κ] [DecidableLT κ] in
theorem sorted_ext_mem (h : Sorted l) (h' : Sorted l') (hmem : ∀ p, p ∈ l' ↔ p ∈ l) : l' = l := by
  have hperm : l'.Perm l := (List.perm_ext_iff_of_nodup (List.Nodup.of_map _ (nodup_keys h'))
    (List.Nodup.of_map _ (nodup_keys h))).mpr hmem
  exact hperm.eq_of_pairwise (fun p q _ _ hlt hgt => absurd hgt (asymm_of (· < ·) hlt)) h' h

omit [DecidableLT κ] in
theorem sorted_ext (h : Sorted l) (h' : Sorted l') (he : ∀ key, get? l' key = get? l key) :
    l' = l :=
  sorted_ext_mem h h' fun ⟨key, v⟩ => by rw [mem_iff_get? h', mem_iff_get? h, he]

instance (l : List (κ × α)) : Decidable (Sorted l) :=
  inferInstanceAs (Decidable (l.Pairwise fun a b => a.1 < b.1))

end KeyedList

namespace FileTree

/-! ## Trees -/

/-- Entries are in order, and the root has none. -/
structure Ordered (t : FileTree) : Prop where
  sorted : KeyedList.Sorted t.entries
  rooted : ∀ e ∈ t.entries, e.1 ≠ []

/-- Whatever has something in it is a directory, among the places below one. -/
def ClosedBelow (t : FileTree) (here : Place) : Prop :=
  ∀ q name, q ≠ [] → t.get? (here ++ q ++ [name]) ≠ none → t.get? (here ++ q) = some .directory

/-- A tree that a disk can hold: names are names, and what has something in it is a directory. -/
structure WellFormed (t : FileTree) : Prop extends Ordered t where
  named : ∀ e ∈ t.entries, ∀ n ∈ e.1, IsName n ∧ '/' ∉ n.toList
  closed : ClosedBelow t []

section Trees

variable {t t' : FileTree} {p : Place} {entry : Entry}

theorem Ordered.get?_iff (h : t.Ordered) (hne : p ≠ []) :
    t.get? p = some entry ↔ (p, entry) ∈ t.entries := by
  obtain ⟨name, rest, rfl⟩ := List.exists_cons_of_ne_nil hne
  exact (KeyedList.mem_iff_get? h.sorted).symm

theorem Ordered.ext (h : t.Ordered) (h' : t'.Ordered)
    (hdirectory : t'.workingDirectory = t.workingDirectory) (hmishaps : t'.mishaps = t.mishaps)
    (he : ∀ p, t'.get? p = t.get? p) : t' = t := by
  have hkey : ∀ {t : FileTree}, t.Ordered → KeyedList.get? t.entries [] = none := by
    intro t h
    rw [← Option.not_isSome_iff_eq_none, KeyedList.get?_isSome_iff]
    intro hmem
    obtain ⟨e, he, hnil⟩ := List.mem_map.mp hmem
    exact h.rooted e he hnil
  have hentries : t'.entries = t.entries := by
    refine KeyedList.sorted_ext h.sorted h'.sorted fun key => ?_
    cases key with
    | nil => rw [hkey h, hkey h']
    | cons name rest => exact he (name :: rest)
  obtain ⟨directory, entries, mishaps⟩ := t
  obtain ⟨directory', entries', mishaps'⟩ := t'
  cases hdirectory
  cases hentries
  cases hmishaps
  rfl

theorem Ordered.insert (h : t.Ordered) (hne : p ≠ []) (entry : Entry) :
    (t.insert p entry).Ordered := by
  refine ⟨KeyedList.sorted_alter h.sorted _ _, fun e he => ?_⟩
  obtain hold | rfl | ⟨v, -, rfl⟩ := KeyedList.mem_alter he
  · exact h.rooted e hold
  · exact hne
  · exact hne

theorem Ordered.erase (h : t.Ordered) (p : Place) : (t.erase p).Ordered :=
  ⟨h.sorted.filter _, fun e he => h.rooted e (List.mem_filter.mp he).1⟩

theorem Ordered.eraseBelow (h : t.Ordered) (p : Place) : (t.eraseBelow p).Ordered :=
  ⟨h.sorted.filter _, fun e he => h.rooted e (List.mem_filter.mp he).1⟩

theorem WellFormed.closedBelow (h : t.WellFormed) (here : Place) : ClosedBelow t here :=
  fun q name hq hsome => h.closed (here ++ q) name (by simp [hq]) hsome

/-- Nothing is found below what is no directory. -/
theorem ClosedBelow.free {here q : Place} (h : ClosedBelow t here) (hq : q ≠ [])
    (hnot : t.get? (here ++ q) ≠ some .directory) {r : Place} (hr : r ≠ []) :
    t.get? (here ++ q ++ r) = none := by
  induction r using List.reverseRecOn with
  | nil => exact absurd rfl hr
  | append_singleton r name ih =>
    by_contra hsome
    rw [List.append_assoc here, ← List.append_assoc q, ← List.append_assoc here] at hsome
    have habove := h (q ++ r) name (by simp [hq]) hsome
    rw [← List.append_assoc] at habove
    by_cases hnil : r = []
    · rw [hnil, List.append_nil] at habove
      exact hnot habove
    · rw [ih hnil] at habove
      cases habove

theorem wellFormed_iff : t.WellFormed ↔ KeyedList.Sorted t.entries
    ∧ ∀ e ∈ t.entries, e.1 ≠ [] ∧ (∀ n ∈ e.1, IsName n ∧ '/' ∉ n.toList)
      ∧ t.get? e.1.dropLast = some .directory := by
  constructor
  · intro h
    refine ⟨h.sorted, fun e he => ⟨h.rooted e he, h.named e he, ?_⟩⟩
    have hget := (h.get?_iff (h.rooted e he)).mpr he
    rw [← List.dropLast_append_getLast (h.rooted e he)] at hget
    by_cases hnil : e.1.dropLast = []
    · rw [hnil]
      rfl
    · exact h.closed _ _ hnil (by rw [List.nil_append, hget]; simp)
  · rintro ⟨hsorted, hall⟩
    refine ⟨⟨hsorted, fun e he => (hall e he).1⟩, fun e he => (hall e he).2.1,
      fun q name hq hsome => ?_⟩
    rw [List.nil_append] at hsome ⊢
    obtain ⟨entry, hentry⟩ := Option.ne_none_iff_exists'.mp hsome
    have habove := (hall _ (mem_of_get? (by simp) hentry)).2.2
    rwa [List.dropLast_concat] at habove

instance (t : FileTree) : Decidable t.WellFormed := decidable_of_iff' _ wellFormed_iff

end Trees

/-! ## Pieces that lead to a directory -/

/-- Pieces lead from a directory to another, with so many links left. -/
inductive Passes (t : FileTree) : Nat → Place → List String → Nat → Place → Prop where
  | here (links : Nat) (here : Place) : Passes t links here [] links here
  | idle {links left : Nat} {here goal : Place} {piece : String} {rest : List String}
      (hidle : Path.isIdle piece = true) (later : Passes t links here rest left goal) :
      Passes t links here (piece :: rest) left goal
  | up {links left : Nat} {here goal : Place} {rest : List String}
      (later : Passes t links here.dropLast rest left goal) :
      Passes t links here (".." :: rest) left goal
  | into {links left : Nat} {here goal : Place} {piece : String} {rest : List String}
      (hname : IsName piece) (hget : t.get? (here ++ [piece]) = some .directory)
      (later : Passes t links (here ++ [piece]) rest left goal) :
      Passes t links here (piece :: rest) left goal
  | through {links left : Nat} {here goal : Place} {piece target : String} {rest : List String}
      (hname : IsName piece) (hget : t.get? (here ++ [piece]) = some (.link target))
      (later : Passes t links (if Path.isAbsolute target then [] else here)
        (Path.pieces target ++ rest) left goal) :
      Passes t (links + 1) here (piece :: rest) left goal

section Passes

variable {t t' : FileTree} {links left : Nat} {here goal : Place} {ps qs todo : List String}

theorem isName_of_not {piece : String} (hidle : ¬Path.isIdle piece = true) (hup : ¬piece = "..")
    (hshort : ¬nameLimit < piece.utf8ByteSize) : IsName piece :=
  ⟨by simpa using hidle, hup, by omega⟩

theorem passes_of_walk (h : t.walk true links here ps = .ok (.found goal .directory)) :
    ∃ left, Passes t links here ps left goal := by
  fun_induction walk t true links here ps with
  | case1 links here =>
    cases h
    exact ⟨links, .here _ _⟩
  | case2 links here piece rest hidle ih => exact (ih h).imp fun _ later => .idle hidle later
  | case3 links here rest hidle ih => exact (ih h).imp fun _ later => .up later
  | case4 | case6 | case9 | case11 => cases h
  | case5 | case8 => simp at h
  | case7 links here piece rest hidle hup hshort place hget ih =>
    exact (ih h).imp fun _ later => .into (isName_of_not hidle hup hshort) hget later
  | case10 links here piece rest hidle hup hshort place target hget hlast => simp at hlast
  | case12 here piece rest hidle hup hshort place target hget hlast links ih =>
    exact (ih h).imp fun _ later => .through (isName_of_not hidle hup hshort) hget later

/-- Where the first name of a path is free, nothing else of it is found. -/
theorem locate_missing {path name : String} {rest : List String} (hpath : IsRelative path)
    (hpieces : Path.pieces path = name :: rest) (hname : IsName name)
    (hfree : t.get? (t.workingDirectory ++ [name]) = none) (follow : Bool) :
    t.locate follow path
      = if rest.all String.isEmpty then .ok (.free (t.workingDirectory ++ [name]) !rest.isEmpty)
        else .error .notFound := by
  rw [locate_relative hpath, hpieces, walk_name hname, hfree]

theorem walk_up {follow : Bool} {rest : List String} :
    t.walk follow links here (".." :: rest) = t.walk follow links here.dropLast rest := by
  rw [walk, if_neg (by decide), if_pos rfl]

/-- The search goes on from where the pieces lead. -/
theorem Passes.walk (h : Passes t links here ps left goal) {follow : Bool}
    (hmore : todo ≠ [] ∨ follow = true) :
    t.walk follow links here (ps ++ todo) = t.walk follow left goal todo := by
  induction h with
  | here => rfl
  | idle hidle later ih => rw [List.cons_append, FileTree.walk, if_pos hidle, ih]
  | up later ih => rw [List.cons_append, walk_up, ih]
  | into hname hget later ih =>
    rw [List.cons_append, walk_name hname, hget]
    exact ih
  | through hname hget later ih =>
    rw [List.cons_append, walk_name hname, hget]
    dsimp only
    rw [if_neg (by obtain h | h := hmore <;> simp [h]), ← List.append_assoc, ih]

theorem passes_iff : t.walk true links here ps = .ok (.found goal .directory)
    ↔ ∃ left, Passes t links here ps left goal := by
  refine ⟨passes_of_walk, fun ⟨left, h⟩ => ?_⟩
  have hwalk : t.walk true links here (ps ++ []) = t.walk true left goal [] := h.walk (.inr rfl)
  rw [List.append_nil] at hwalk
  rw [hwalk, FileTree.walk]

theorem Passes.append {left' : Nat} {goal' : Place} (h : Passes t links here ps left goal)
    (h' : Passes t left goal qs left' goal') : Passes t links here (ps ++ qs) left' goal' := by
  induction h with
  | here => exact h'
  | idle hidle later ih => exact .idle hidle (ih h')
  | up later ih => exact .up (ih h')
  | into hname hget later ih => exact .into hname hget (ih h')
  | through hname hget later ih =>
    have hrest := ih h'
    rw [List.append_assoc] at hrest
    exact .through hname hget hrest

/-- The last piece may be a link that leads there. -/
theorem Passes.found (h : Passes t links here ps left goal) :
    ∃ p entry, t.walk false links here ps = .ok (.found p entry) := by
  induction h with
  | here links here => exact ⟨here, .directory, by rw [FileTree.walk]⟩
  | idle hidle later ih => rwa [FileTree.walk, if_pos hidle]
  | up later ih => rwa [walk_up]
  | into hname hget later ih =>
    rw [walk_name hname, hget]
    exact ih
  | @through links left here goal piece target rest hname hget later ih =>
    rw [walk_name hname, hget]
    dsimp only
    split
    · exact ⟨_, _, rfl⟩
    · exact ih

/-- What comes first on the way to a directory leads to a directory. -/
theorem Passes.split (h : Passes t links here (ps ++ qs) left goal) :
    ∃ left' goal', Passes t links here ps left' goal' ∧ Passes t left' goal' qs left goal := by
  generalize hall : ps ++ qs = all at h
  induction h generalizing ps with
  | here links here =>
    obtain ⟨rfl, rfl⟩ := List.append_eq_nil_iff.mp hall
    exact ⟨links, here, .here links here, .here links here⟩
  | @idle links left here goal piece rest hidle later ih =>
    cases ps with
    | nil =>
      obtain rfl : qs = _ := hall
      exact ⟨links, here, .here _ _, .idle hidle later⟩
    | cons first ps =>
      obtain ⟨rfl, hrest⟩ := List.cons.inj hall
      obtain ⟨left', goal', h, h'⟩ := ih hrest
      exact ⟨left', goal', .idle hidle h, h'⟩
  | @up links left here goal rest later ih =>
    cases ps with
    | nil =>
      obtain rfl : qs = _ := hall
      exact ⟨links, here, .here _ _, .up later⟩
    | cons first ps =>
      obtain ⟨rfl, hrest⟩ := List.cons.inj hall
      obtain ⟨left', goal', h, h'⟩ := ih hrest
      exact ⟨left', goal', .up h, h'⟩
  | @into links left here goal piece rest hname hget later ih =>
    cases ps with
    | nil =>
      obtain rfl : qs = _ := hall
      exact ⟨links, here, .here _ _, .into hname hget later⟩
    | cons first ps =>
      obtain ⟨rfl, hrest⟩ := List.cons.inj hall
      obtain ⟨left', goal', h, h'⟩ := ih hrest
      exact ⟨left', goal', .into hname hget h, h'⟩
  | @through links left here goal piece target rest hname hget later ih =>
    cases ps with
    | nil =>
      obtain rfl : qs = _ := hall
      exact ⟨links + 1, here, .here _ _, .through hname hget later⟩
    | cons first ps =>
      obtain ⟨rfl, hrest⟩ := List.cons.inj hall
      have htarget : Path.pieces target ++ ps ++ qs = Path.pieces target ++ rest :=
        (List.append_assoc _ _ _).trans (congrArg (Path.pieces target ++ ·) hrest)
      obtain ⟨left', goal', h, h'⟩ := ih htarget
      exact ⟨left', goal', .through hname hget h, h'⟩

/-- Directories and links that stay are enough. -/
theorem Passes.mono (h : Passes t links here ps left goal)
    (hdirs : ∀ p, t.get? p = some .directory → t'.get? p = some .directory)
    (hlinks : ∀ p target, t.get? p = some (.link target) → t'.get? p = some (.link target)) :
    Passes t' links here ps left goal := by
  induction h with
  | here => exact .here _ _
  | idle hidle later ih => exact .idle hidle ih
  | up later ih => exact .up ih
  | into hname hget later ih => exact .into hname (hdirs _ hget) ih
  | through hname hget later ih => exact .through hname (hlinks _ _ hget) ih

theorem Passes.unique {left' : Nat} {goal' : Place} (h : Passes t links here ps left goal)
    (h' : Passes t links here ps left' goal') : goal' = goal := by
  have hfound := (passes_iff.mpr ⟨_, h⟩).symm.trans (passes_iff.mpr ⟨_, h'⟩)
  simpa using hfound.symm

theorem passes_idle (h : ∀ p ∈ ps, Path.isIdle p = true) (links : Nat) (here : Place) :
    Passes t links here ps links here := by
  induction ps with
  | nil => exact .here links here
  | cons p ps ih =>
    exact .idle (h p List.mem_cons_self) (ih fun q hq => h q (List.mem_cons_of_mem _ hq))

/-- Behind pieces that lead to no directory every piece is a fault. -/
theorem walk_stuck (h : ∀ left goal, ¬Passes t links here ps left goal)
    (htodo : todo.all String.isEmpty = false) (follow : Bool) :
    ∃ e, t.walk follow links here (ps ++ todo) = .error e := by
  have hne : todo ≠ [] := by
    rintro rfl
    cases htodo
  fun_induction FileTree.walk t true links here ps with
  | case1 links here => exact absurd (.here links here) (h links here)
  | case2 links here piece rest hidle ih =>
    rw [List.cons_append, FileTree.walk, if_pos hidle]
    exact ih fun left goal later => h left goal (.idle hidle later)
  | case3 links here rest hidle ih =>
    rw [List.cons_append, walk_up]
    exact ih fun left goal later => h left goal (.up later)
  | case4 links here piece rest hidle hup hlong =>
    rw [List.cons_append, FileTree.walk, if_neg hidle, if_neg hup, if_pos hlong]
    exact ⟨_, rfl⟩
  | case5 links here piece rest hidle hup hshort place hget
  | case6 links here piece rest hidle hup hshort place hget =>
    rw [List.cons_append, walk_name (isName_of_not hidle hup hshort), hget]
    dsimp only
    rw [if_neg (by simp [List.all_append, htodo])]
    exact ⟨_, rfl⟩
  | case7 links here piece rest hidle hup hshort place hget ih =>
    rw [List.cons_append, walk_name (isName_of_not hidle hup hshort), hget]
    exact ih fun left goal later => h left goal (.into (isName_of_not hidle hup hshort) hget later)
  | case8 links here piece rest hidle hup hshort place bytes hget
  | case9 links here piece rest hidle hup hshort place bytes hget =>
    rw [List.cons_append, walk_name (isName_of_not hidle hup hshort), hget]
    dsimp only
    rw [if_neg (by simp [hne])]
    exact ⟨_, rfl⟩
  | case10 links here piece rest hidle hup hshort place target hget hlast => simp at hlast
  | case11 here piece rest hidle hup hshort place target hget hlast =>
    rw [List.cons_append, walk_name (isName_of_not hidle hup hshort), hget]
    dsimp only
    rw [if_neg (by simp [hne])]
    exact ⟨_, rfl⟩
  | case12 here piece rest hidle hup hshort place target hget hlast links ih =>
    rw [List.cons_append, walk_name (isName_of_not hidle hup hshort), hget]
    dsimp only
    rw [if_neg (by simp [hne]), ← List.append_assoc]
    exact ih fun left goal later =>
      h left goal (.through (isName_of_not hidle hup hshort) hget later)

end Passes

end FileTree

end RestForge
