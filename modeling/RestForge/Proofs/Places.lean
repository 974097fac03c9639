import RestForge.Proofs.PathText
import RestForge.Proofs.RemovedFile

/-!
# Where paths lead without links

Where there are no links, the text of a path alone says which place it means and which places lead
there. This file says so of the search for files, and what each change of a tree can reach.

* `goes`, `placeOf`: where pieces and paths lead; `OnWay`: the places that a path runs through.
* `onWay_parent`, `onWay_ancestor`: the directories above a path are on its way.
* `ClearWay`: no link lies on the way of a path; `locate_at`: then the search finds its place.
* `Changed`: a tree has changed at some places at most, and has got no link.
* `Calm`: no write comes to grief; `store_cases`: what becomes of a write.
* `makeDirectories_within`, `writeFile_cases`, `rename_cases`: what the changes of a tree do.
-/

set_option autoImplicit false

namespace RestForge.FileTree

/-! ## Pieces -/

def goOn (here : Place) (piece : String) : Place :=
  if Path.isIdle piece then here else if piece = ".." then here.dropLast else here ++ [piece]

/-- Where pieces lead from a directory. -/
def goes (here : Place) (pieces : List String) : Place := pieces.foldl goOn here

theorem goes_append (here : Place) (ps qs : List String) :
    goes here (ps ++ qs) = goes (goes here ps) qs := List.foldl_append

theorem goOn_idle {piece : String} (h : Path.isIdle piece = true) (here : Place) :
    goOn here piece = here := if_pos h

theorem goOn_name {piece : String} (hidle : ¬Path.isIdle piece = true) (hup : piece ≠ "..")
    (here : Place) : goOn here piece = here ++ [piece] := by
  rw [goOn, if_neg hidle, if_neg hup]

theorem goes_idle {ps : List String} (h : ∀ p ∈ ps, Path.isIdle p = true) (here : Place) :
    goes here ps = here := by
  induction ps with
  | nil => rfl
  | cons p ps ih =>
    rw [goes, List.foldl_cons, goOn_idle (h p List.mem_cons_self)]
    exact ih fun q hq => h q (List.mem_cons_of_mem _ hq)

theorem goes_names {names : List String} (h : ∀ n ∈ names, Path.IsName n) (here : Place) :
    goes here names = here ++ names := by
  induction names generalizing here with
  | nil => exact (List.append_nil here).symm
  | cons n names ih =>
    have hn := h n List.mem_cons_self
    rw [goes, List.foldl_cons, goOn_name (by simp [hn.not_idle]) hn.notUp, ← goes,
      ih fun m hm => h m (List.mem_cons_of_mem _ hm), List.append_assoc, List.singleton_append]

/-! ## Paths -/

/-- Where a path starts, given the working directory. -/
def startOf (directory : Place) (path : String) : Place :=
  if Path.isAbsolute path then [] else directory

def placeOf (directory : Place) (path : String) : Place :=
  goes (startOf directory path) (Path.pieces path)

/-- The places that a path runs through, from its start to where it leads. -/
def OnWay (directory : Place) (path : String) (place : Place) : Prop :=
  ∃ before, before <+: Path.pieces path ∧ place = goes (startOf directory path) before

theorem onWay_placeOf (directory : Place) (path : String) :
    OnWay directory path (placeOf directory path) := ⟨_, List.prefix_rfl, rfl⟩

namespace Path

theorem notMem_of_mem_pieces {path piece : String} (h : piece ∈ pieces path) :
    '/' ∉ piece.toList :=
  Text.notMem_of_mem_split h

theorem pieces_ofPieces {ps : List String} (hne : ps ≠ []) (h : ∀ p ∈ ps, '/' ∉ p.toList) :
    pieces (ofPieces ps) = ps :=
  Text.split_intercalate h hne

theorem isAbsolute_iff {path : String} :
    isAbsolute path = true ↔ ∃ p ps, pieces path = "" :: p :: ps := by
  rw [isAbsolute, pieces, Text.split_eq]
  cases hcs : path.toList with
  | nil => simp
  | cons c cs =>
    obtain ⟨piece, more, hmore⟩ := List.exists_cons_of_ne_nil (List.splitOn_ne_nil '/' cs)
    rw [List.splitOn_cons_eq_if_modifyHead, hmore]
    by_cases hc : c = '/'
    · simp [hc]
    · simp [hc]

theorem dropIdleEnd_prefix (ps : List String) : dropIdleEnd ps <+: ps := by
  cases ps with
  | nil => exact List.prefix_rfl
  | cons first rest =>
    have hrest : (rest.reverse.dropWhile isIdle).reverse <+: rest := by
      have hsuffix := List.reverse_prefix.mpr (List.dropWhile_suffix isIdle (l := rest.reverse))
      rwa [List.reverse_reverse] at hsuffix
    exact (List.cons_prefix_cons).mpr ⟨rfl, hrest⟩

theorem dropIdleEnd_cons (first : String) (rest : List String) :
    ∃ more, dropIdleEnd (first :: rest) = first :: more := ⟨_, rfl⟩

/-- The pieces of a parent are the first pieces of the path, and the last one is not among them; the
root alone is written with a piece of its own. -/
theorem parent?_pieces {path parent : String} (h : parent? path = some parent)
    (hne : parent ≠ "") : isAbsolute parent = isAbsolute path
      ∧ (pieces parent <+: (pieces path).dropLast ∨ isAbsolute path = true ∧ parent = "/") := by
  unfold parent? at h
  split at h
  · cases h
  · split at h <;> cases h
    exact absurd rfl hne
  · rename_i first rest hrest hpieces
    have hwhole : first :: rest <+: pieces path := hpieces ▸ dropIdleEnd_prefix (pieces path)
    obtain ⟨more, hmore⟩ := dropIdleEnd_cons first rest.dropLast
    have hcut : first :: more <+: first :: rest.dropLast := hmore ▸ dropIdleEnd_prefix _
    have habove : first :: more <+: pieces path :=
      hcut.trans (((List.cons_prefix_cons).mpr ⟨rfl, List.dropLast_prefix rest⟩).trans hwhole)
    have hlong : (first :: more).length + 1 ≤ (pieces path).length := by
      have hcut' := hcut.length_le
      have hwhole' := hwhole.length_le
      have hpos : 0 < rest.length := List.length_pos_iff.mpr hrest
      simp only [List.length_cons, List.length_dropLast] at hcut' hwhole' ⊢
      omega
    obtain ⟨second, others, hsecond⟩ : ∃ second others, pieces path = first :: second :: others := by
      obtain ⟨tail, htail⟩ := habove
      cases hl : more ++ tail with
      | nil =>
        rw [List.cons_append, hl] at htail
        simp [← htail] at hlong
      | cons second others => exact ⟨second, others, by rw [← htail, List.cons_append, hl]⟩
    rw [hmore] at h
    split at h
    · rename_i heq
      cases h
      obtain ⟨rfl, -⟩ := List.cons.inj heq
      have habsolute : isAbsolute path = true := isAbsolute_iff.mpr ⟨second, others, hsecond⟩
      exact ⟨habsolute.symm, .inr ⟨habsolute, rfl⟩⟩
    · rename_i hroot
      cases h
      have hparent : pieces (ofPieces (first :: more)) = first :: more :=
        pieces_ofPieces (List.cons_ne_nil _ _) fun p hp => notMem_of_mem_pieces (habove.subset hp)
      refine ⟨?_, .inl ?_⟩
      · rw [Bool.eq_iff_iff, isAbsolute_iff, isAbsolute_iff, hparent, hsecond]
        cases more with
        | nil =>
          have hfirst : first ≠ "" := fun he => hroot (by rw [he])
          simp [hfirst]
        | cons p ps => simp
      · rw [hparent]
        refine List.prefix_of_prefix_length_le habove (List.dropLast_prefix _) ?_
        rw [List.length_dropLast]
        omega

end Path

section Ways

variable {directory place : Place} {path above : String}

theorem onWay_parent (h : Path.parent? path = some above) (hne : above ≠ "")
    (hway : OnWay directory above place) :
    ∃ before, before <+: (Path.pieces path).dropLast
      ∧ place = goes (startOf directory path) before := by
  obtain ⟨before, hbefore, rfl⟩ := hway
  obtain ⟨habsolute, hpieces | ⟨hroot, rfl⟩⟩ := Path.parent?_pieces h hne
  · exact ⟨before, hbefore.trans hpieces, by rw [startOf, startOf, habsolute]⟩
  · have hidle : ∀ p ∈ before, Path.isIdle p = true := by
      intro p hp
      have hslash : Path.pieces "/" = ["", ""] := by decide
      have hmem := hbefore.subset hp
      rw [hslash] at hmem
      obtain rfl : p = "" := by simpa using hmem
      rfl
    have hstart : ∀ path, Path.isAbsolute path = true → startOf directory path = [] :=
      fun _ hp => if_pos hp
    exact ⟨[], List.nil_prefix, by rw [goes_idle hidle, hstart _ hroot, hstart "/" (by decide)]; rfl⟩

theorem onWay_of_parent (h : Path.parent? path = some above) (hne : above ≠ "")
    (hway : OnWay directory above place) : OnWay directory path place := by
  obtain ⟨before, hbefore, hplace⟩ := onWay_parent h hne hway
  exact ⟨before, hbefore.trans (List.dropLast_prefix _), hplace⟩

/-- The way of a directory above a path is part of the way of the path. -/
theorem onWay_ancestor (habove : above ∈ Path.ancestors path) (hway : OnWay directory above place) :
    OnWay directory path place := by
  have hwithin : ∀ (fuel : Nat) (path : String), above ∈ Path.ancestorsWithin fuel path →
      OnWay directory path place := by
    intro fuel
    induction fuel with
    | zero => exact fun path h => (List.not_mem_nil h).elim
    | succ fuel ih =>
      intro path h
      rw [Path.ancestorsWithin] at h
      split at h
      · cases h
      · obtain rfl | h := List.mem_cons.mp h
        · exact hway
        · split at h
          · rename_i parent hparent
            have hne : parent ≠ "" := by
              rintro rfl
              cases fuel <;> exact (List.not_mem_nil h).elim
            exact onWay_of_parent hparent hne (ih parent h)
          · cases h
  exact hwithin _ path habove

end Ways

/-! ## The search for files -/

/-- What the search finds where it leads to a place. It does not look a directory up that it starts
from or comes back to. -/
def Spot.At (t : FileTree) (place : Place) : Spot → Prop
  | .found p entry => p = place
      ∧ (entry = .directory ∨ ∃ bytes, entry = .file bytes ∧ t.get? place = some entry)
  | .free p _ => p = place ∧ t.get? place = none

/-- No link lies where pieces lead to. -/
def ClearFrom (t : FileTree) (here : Place) (todo : List String) : Prop :=
  ∀ before, before <+: todo → ∀ target, t.get? (goes here before) ≠ some (.link target)

theorem ClearFrom.tail {t : FileTree} {here : Place} {piece : String} {rest : List String}
    (h : ClearFrom t here (piece :: rest)) : ClearFrom t (goOn here piece) rest :=
  fun before hbefore => h (piece :: before) ((List.cons_prefix_cons).mpr ⟨rfl, hbefore⟩)

theorem walk_at {t : FileTree} {follow : Bool} {links : Nat} {here : Place} {todo : List String}
    {spot : Spot} (hclear : ClearFrom t here todo) (h : t.walk follow links here todo = .ok spot) :
    spot.At t (goes here todo) := by
  have hlink : ∀ {here piece rest target}, ClearFrom t here (piece :: rest) →
      ¬Path.isIdle piece = true → piece ≠ ".." → t.get? (here ++ [piece]) ≠ some (.link target) := by
    intro here piece rest target hclear hidle hup
    have hplace := hclear [piece] ((List.cons_prefix_cons).mpr ⟨rfl, List.nil_prefix⟩) target
    rwa [goes, List.foldl_cons, List.foldl_nil, goOn_name hidle hup] at hplace
  fun_induction walk t follow links here todo with
  | case1 links here =>
    cases h
    exact ⟨rfl, .inl rfl⟩
  | case2 links here piece rest hidle ih =>
    have hhere := goOn_idle hidle here
    rw [goes, List.foldl_cons, hhere]
    exact ih (hhere ▸ hclear.tail) h
  | case3 links here rest hidle ih =>
    have hhere : goOn here ".." = here.dropLast := by rw [goOn, if_neg hidle, if_pos rfl]
    rw [goes, List.foldl_cons, hhere]
    exact ih (hhere ▸ hclear.tail) h
  | case4 | case6 | case9 | case11 => cases h
  | case5 links here piece rest hidle hup hshort place hget hidles =>
    cases h
    have hrest : ∀ p ∈ rest, Path.isIdle p = true := by
      intro p hp
      have hp' := List.all_eq_true.mp hidles p hp
      simp [Path.isIdle, hp']
    have hplace : goes here (piece :: rest) = here ++ [piece] := by
      rw [goes, List.foldl_cons, goOn_name hidle hup, ← goes, goes_idle hrest]
    exact ⟨hplace.symm, hplace ▸ hget⟩
  | case7 links here piece rest hidle hup hshort place hget ih =>
    have hhere := goOn_name hidle hup here
    have hrest : ClearFrom t (here ++ [piece]) rest := hhere ▸ hclear.tail
    rw [goes, List.foldl_cons, hhere]
    exact ih hrest h
  | case8 links here piece rest hidle hup hshort place bytes hget hlast =>
    cases h
    obtain rfl := List.isEmpty_iff.mp hlast
    have hplace : goes here [piece] = here ++ [piece] := by
      rw [goes, List.foldl_cons, goOn_name hidle hup]
      rfl
    exact ⟨hplace.symm, .inr ⟨bytes, rfl, hplace ▸ hget⟩⟩
  | case10 links here piece rest hidle hup hshort place target hget hlast =>
    exact absurd hget (hlink hclear hidle hup)
  | case12 here piece rest hidle hup hshort place target hget hlast links ih =>
    exact absurd hget (hlink hclear hidle hup)

/-- No link lies on the way of a path. -/
def ClearWay (t : FileTree) (path : String) : Prop :=
  ∀ place, OnWay t.workingDirectory path place → ∀ target, t.get? place ≠ some (.link target)

theorem locate_at {t : FileTree} {follow : Bool} {path : String} {spot : Spot}
    (hclear : ClearWay t path) (h : t.locate follow path = .ok spot) :
    spot.At t (placeOf t.workingDirectory path) := by
  unfold locate at h
  split at h
  · cases h
  split at h
  · cases h
  split at h
  · cases h
  exact walk_at (fun before hbefore => hclear _ ⟨before, hbefore, rfl⟩) h

/-- The directories along names from the working directory are there. -/
def HasDirectories (t : FileTree) (names : List String) : Prop :=
  ∀ n < names.length, t.get? (t.workingDirectory ++ names.take (n + 1)) = some .directory

instance (t : FileTree) (names : List String) : Decidable (t.HasDirectories names) :=
  inferInstanceAs (Decidable (∀ n < names.length, _))

theorem walk_directories {t : FileTree} {follow : Bool} {links : Nat} {here : Place}
    {names todo : List String} (hnames : ∀ n ∈ names, IsName n)
    (hdirs : ∀ n < names.length, t.get? (here ++ names.take (n + 1)) = some .directory) :
    t.walk follow links here (names ++ todo) = t.walk follow links (here ++ names) todo := by
  induction names generalizing here with
  | nil => rw [List.nil_append, List.append_nil]
  | cons name names ih =>
    have hfirst : t.get? (here ++ [name]) = some .directory := hdirs 0 (by simp)
    rw [List.cons_append, walk_name (hnames name List.mem_cons_self), hfirst]
    dsimp only
    rw [ih (fun n hn => hnames n (List.mem_cons_of_mem _ hn)), List.append_assoc,
      List.singleton_append]
    intro n hn
    rw [List.append_assoc]
    exact hdirs (n + 1) (by simpa using hn)

/-- A path from the working directory along directories to a name in the last of them. -/
structure LeadsTo (path : String) (names : List String) (name : String) : Prop where
  relative : IsRelative path
  pieces : Path.pieces path = names ++ [name]
  along : ∀ n ∈ names, IsName n
  last : IsName name

theorem leadsTo_iff {path : String} {names : List String} {name : String} :
    LeadsTo path names name ↔ IsRelative path ∧ Path.pieces path = names ++ [name]
      ∧ (∀ n ∈ names, IsName n) ∧ IsName name :=
  ⟨fun h => ⟨h.relative, h.pieces, h.along, h.last⟩, fun h => ⟨h.1, h.2.1, h.2.2.1, h.2.2.2⟩⟩

instance (path : String) (names : List String) (name : String) :
    Decidable (LeadsTo path names name) := decidable_of_iff' _ leadsTo_iff

section Present

variable {t : FileTree} {path name : String} {names : List String} {follow : Bool}
  (h : LeadsTo path names name) (hdirs : t.HasDirectories names)

include h hdirs

theorem locate_last : t.locate follow path
    = t.walk follow linkLimit (t.workingDirectory ++ names) [name] := by
  rw [locate_relative h.relative, h.pieces, walk_directories h.along hdirs]

theorem locate_free (hget : t.get? (t.workingDirectory ++ names ++ [name]) = none) :
    t.locate follow path = .ok (.free (t.workingDirectory ++ names ++ [name]) false) := by
  rw [locate_last h hdirs, walk_name h.last, hget]
  rfl

theorem locate_file {bytes : Array UInt8}
    (hget : t.get? (t.workingDirectory ++ names ++ [name]) = some (.file bytes)) :
    t.locate follow path
      = .ok (.found (t.workingDirectory ++ names ++ [name]) (.file bytes)) := by
  rw [locate_last h hdirs, walk_name h.last, hget]
  rfl

theorem locate_directory
    (hget : t.get? (t.workingDirectory ++ names ++ [name]) = some .directory) :
    t.locate follow path = .ok (.found (t.workingDirectory ++ names ++ [name]) .directory) := by
  rw [locate_last h hdirs, walk_name h.last, hget]
  dsimp only
  rw [walk]

end Present

/-! ## Changes of a tree -/

/-- A tree has changed at some places at most, and has got no link. -/
structure Changed (places : Place → Prop) (t t' : FileTree) : Prop where
  directory : t'.workingDirectory = t.workingDirectory
  elsewhere : ∀ p, ¬places p → t'.get? p = t.get? p
  links : ∀ p target, t'.get? p = some (.link target) → t.get? p = some (.link target)

namespace Changed

variable {places places' : Place → Prop} {t t' t'' : FileTree}

theorem refl (t : FileTree) : Changed places t t := ⟨rfl, fun _ _ => rfl, fun _ _ h => h⟩

theorem trans (h : Changed places t t') (h' : Changed places t' t'') : Changed places t t'' :=
  ⟨h'.directory.trans h.directory,
    fun p hp => (h'.elsewhere p hp).trans (h.elsewhere p hp),
    fun p target hlink => h.links p target (h'.links p target hlink)⟩

theorem mono (h : Changed places t t') (hle : ∀ p, places p → places' p) : Changed places' t t' :=
  ⟨h.directory, fun p hp => h.elsewhere p fun hp' => hp (hle p hp'), h.links⟩

theorem clearWay (h : Changed places t t') {path : String} (hclear : ClearWay t path) :
    ClearWay t' path := fun p hway target hlink =>
  hclear p (h.directory ▸ hway) target (h.links p target hlink)

end Changed

section Places

variable {t : FileTree} {place : Place} {entry : Entry}

theorem get?_insert (hne : place ≠ []) (other : Place) :
    (t.insert place entry).get? other = if other = place then some entry else t.get? other := by
  cases other with
  | nil => rw [if_neg (Ne.symm hne)]; rfl
  | cons name rest => exact KeyedList.get?_insert t.entries place (name :: rest) entry

theorem get?_erase_self (hne : place ≠ []) : (t.erase place).get? place = none := by
  obtain ⟨name, rest, rfl⟩ := List.exists_cons_of_ne_nil hne
  unfold get? erase
  dsimp only
  induction t.entries with
  | nil => rfl
  | cons e entries ih =>
    obtain ⟨p, other⟩ := e
    by_cases hp : p = name :: rest
    · rw [List.filter_cons_of_neg (by simpa using hp), ih]
    · rw [List.filter_cons_of_pos (by simpa using hp), KeyedList.get?_cons, if_neg (Ne.symm hp), ih]

/-- Whatever is found but the root is an entry. -/
theorem mem_of_get? (hne : place ≠ []) (h : t.get? place = some entry) :
    (place, entry) ∈ t.entries := by
  obtain ⟨name, rest, rfl⟩ := List.exists_cons_of_ne_nil hne
  have hmem : ∀ l : List (Place × Entry), KeyedList.get? l (name :: rest) = some entry →
      (name :: rest, entry) ∈ l := by
    intro l
    induction l with
    | nil => simp
    | cons e l ih =>
      obtain ⟨p, other⟩ := e
      intro hl
      rw [KeyedList.get?_cons] at hl
      by_cases hp : name :: rest = p
      · rw [if_pos hp] at hl
        rw [hp, Option.some.inj hl]
        exact List.mem_cons_self
      · rw [if_neg hp] at hl
        exact List.mem_cons_of_mem _ (ih hl)
  exact hmem t.entries h

theorem noLink_of_entries (h : ∀ e ∈ t.entries, ∀ target, e.2 ≠ .link target) (place : Place)
    (target : String) : t.get? place ≠ some (.link target) := by
  intro hget
  by_cases hne : place = []
  · rw [hne] at hget
    cases hget
  · exact h _ (mem_of_get? hne hget) target rfl

theorem ne_nil_of_free (h : t.get? place = none) : place ≠ [] := by
  rintro rfl
  cases h

theorem ne_nil_of_file {bytes : Array UInt8} (h : t.get? place = some (.file bytes)) :
    place ≠ [] := by
  rintro rfl
  cases h

theorem changed_insert (hne : place ≠ []) (hentry : ∀ target, entry ≠ .link target) :
    Changed (· = place) t (t.insert place entry) := by
  refine ⟨rfl, fun p hp => by rw [get?_insert hne, if_neg hp], fun p target hlink => ?_⟩
  rw [get?_insert hne] at hlink
  split at hlink
  · exact absurd (Option.some.inj hlink) (hentry target)
  · exact hlink

theorem changed_erase (hne : place ≠ []) : Changed (· = place) t (t.erase place) := by
  refine ⟨rfl, fun p hp => get?_erase_of_ne hp, fun p target hlink => ?_⟩
  by_cases hp : p = place
  · subst hp
    rw [get?_erase_self hne] at hlink
    cases hlink
  · rwa [get?_erase_of_ne hp] at hlink

end Places

/-! ## Actions -/

theorem bind_apply {ε σ α β : Type} (act : ExceptT ε (StateM σ) α) (f : α → ExceptT ε (StateM σ) β)
    (s : σ) : (act >>= f) s = match act s with
      | (.ok x, s') => f x s'
      | (.error e, s') => (.error e, s') := by
  have h : (act >>= f) s = (ExceptT.bindCont f (act s).1 : StateM σ _) (act s).2 := rfl
  rw [h]
  rcases act s with ⟨_ | _, s'⟩ <;> rfl

namespace Access

variable {α β : Type}

theorem tryCatch_apply (act : Access α) (handler : Fault → Access α) (t : FileTree) :
    (tryCatch act handler : Access α) t = match act t with
      | (.ok x, t') => (.ok x, t')
      | (.error e, t') => handler e t' := by
  have h : (tryCatch act handler : Access α) t
      = (ExceptT.tryCatch act handler : Access α) t := rfl
  rw [h]
  simp only [ExceptT.tryCatch, ExceptT.mk, bind, StateT.bind]
  rcases act t with ⟨_ | _, t'⟩ <;> rfl

/-- The action keeps to some places and leaves a tree in which it, or another such action, can be
done again. -/
def Within (safe : FileTree → Prop) (places : Place → Prop) (act : Access α) : Prop :=
  ∀ t, safe t → Changed places t (act t).2 ∧ safe (act t).2

variable {safe : FileTree → Prop} {places : Place → Prop}

theorem within_bind {act : Access α} {f : α → Access β} (hact : Within safe places act)
    (hf : ∀ x, Within safe places (f x)) : Within safe places (act >>= f) := by
  intro t ht
  obtain ⟨hchanged, hsafe⟩ := hact t ht
  rw [bind_apply]
  rcases hrun : act t with ⟨e | x, t'⟩ <;> rw [hrun] at hchanged hsafe
  · exact ⟨hchanged, hsafe⟩
  · obtain ⟨hchanged', hsafe'⟩ := hf x t' hsafe
    exact ⟨hchanged.trans hchanged', hsafe'⟩

theorem within_tryCatch {act : Access α} {handler : Fault → Access α}
    (hact : Within safe places act) (hhandler : ∀ e, Within safe places (handler e)) :
    Within safe places (tryCatch act handler) := by
  intro t ht
  obtain ⟨hchanged, hsafe⟩ := hact t ht
  rw [tryCatch_apply]
  rcases hrun : act t with ⟨e | x, t'⟩ <;> rw [hrun] at hchanged hsafe
  · obtain ⟨hchanged', hsafe'⟩ := hhandler e t' hsafe
    exact ⟨hchanged.trans hchanged', hsafe'⟩
  · exact ⟨hchanged, hsafe⟩

theorem within_unchanged {act : Access α} (h : ∀ t, (act t).2 = t) : Within safe places act := by
  intro t ht
  rw [h t]
  exact ⟨.refl t, ht⟩

end Access

open Access

theorem makeDirectory_apply (path : String) (t : FileTree) :
    makeDirectory path t = match t.locate false path with
      | .error e => (.error e, t)
      | .ok (.found _ _) => (.error .exists, t)
      | .ok (.free place _) => (.ok (), t.insert place .directory) := by
  have hlook : look false path t = (t.locate false path, t) := rfl
  rw [makeDirectory, bind_apply, hlook]
  rcases t.locate false path with e | (_ | _) <;> rfl

theorem unlessDirectory_snd (path : String) (e : Fault) (t : FileTree) :
    (unlessDirectory path e t).2 = t := by
  have hget : (get : Access FileTree) t = (.ok t, t) := rfl
  rw [unlessDirectory, bind_apply, hget]
  dsimp only
  split <;> rfl

/-- A directory that is there need not be made. -/
theorem makeDirectories_there {t : FileTree} {path : String} {place : Place} (hne : path ≠ "")
    (h : ∀ follow, t.locate follow path = .ok (.found place .directory)) :
    makeDirectories path t = (.ok (), t) := by
  have hmake : makeDirectory path t = (.error .exists, t) := by
    rw [makeDirectory_apply, h]
  have hthere : t.isDirectory path = true := by
    rw [isDirectory, directoryAt?, entryAt?, h]
    rfl
  have hget : (get : Access FileTree) t = (.ok t, t) := rfl
  have hancestors : ∃ outer, Path.ancestors path = path :: outer := by
    rw [Path.ancestors, Path.ancestorsWithin, if_neg (by simpa using hne)]
    exact ⟨_, rfl⟩
  obtain ⟨outer, houter⟩ := hancestors
  rw [makeDirectories, houter, makeDirectoryIn, tryCatch_apply, hmake]
  dsimp only
  rw [unlessDirectory, bind_apply, hget]
  simp only [hthere]
  rfl

section Directories

variable {directory : Place} {path : String}

/-- Trees in which no link lies on the way of a path. -/
def Passable (directory : Place) (path : String) (t : FileTree) : Prop :=
  t.workingDirectory = directory ∧ ClearWay t path

theorem makeDirectory_within {above : String}
    (habove : ∀ p, OnWay directory above p → OnWay directory path p) :
    Within (Passable directory path) (OnWay directory path) (makeDirectory above) := by
  rintro t ⟨rfl, hclear⟩
  have hway : OnWay t.workingDirectory path (placeOf t.workingDirectory above) :=
    habove _ (onWay_placeOf _ _)
  rw [makeDirectory_apply]
  rcases hlocate : t.locate false above with e | (⟨p, entry⟩ | ⟨p, asDirectory⟩)
  · exact ⟨.refl t, rfl, hclear⟩
  · exact ⟨.refl t, rfl, hclear⟩
  · obtain ⟨rfl, hfree⟩ := locate_at (fun p hp => hclear p (habove p hp)) hlocate
    have hchanged : Changed (· = _) t (t.insert _ .directory) :=
      changed_insert (ne_nil_of_free hfree) (by simp)
    exact ⟨hchanged.mono fun p hp => hp ▸ hway, rfl, hchanged.clearWay hclear⟩

theorem makeDirectoryIn_within {paths : List String}
    (hpaths : ∀ above ∈ paths, ∀ p, OnWay directory above p → OnWay directory path p) :
    Within (Passable directory path) (OnWay directory path) (makeDirectoryIn paths) := by
  induction paths with
  | nil => exact within_unchanged fun _ => rfl
  | cons above outer ih =>
    have hmake : Within (Passable directory path) (OnWay directory path) (makeDirectory above) :=
      makeDirectory_within (hpaths above List.mem_cons_self)
    have hunless : ∀ e, Within (Passable directory path) (OnWay directory path)
        (unlessDirectory above e) := fun e => within_unchanged (unlessDirectory_snd above e)
    rw [makeDirectoryIn]
    refine within_tryCatch hmake fun e => ?_
    split
    · exact within_bind (ih fun a ha => hpaths a (List.mem_cons_of_mem _ ha)) fun _ =>
        within_tryCatch hmake hunless
    · exact hunless _

/-- Making the directories of a path touches nothing but places on its way. -/
theorem makeDirectories_within :
    Within (Passable directory path) (OnWay directory path) (makeDirectories path) :=
  makeDirectoryIn_within fun _ habove _ hway => onWay_ancestor habove hway

end Directories

/-! ## Storing bytes -/

/-- Nothing befalls any write. -/
def Calm (t : FileTree) : Prop := t.mishaps = []

/-- Some of the first bytes of a text, and not all of it. -/
def Torn (text : String) (bytes : Array UInt8) : Prop :=
  ∃ size < text.toUTF8.data.size, bytes = text.toUTF8.data.take size

section Store

variable {t : FileTree} (place : Place) (bytes : Array UInt8)

@[simp] theorem get?_afterWrite (t : FileTree) (p : Place) : t.afterWrite.get? p = t.get? p := by
  cases p <;> rfl

@[simp] theorem workingDirectory_afterWrite (t : FileTree) :
    t.afterWrite.workingDirectory = t.workingDirectory := rfl

theorem Calm.afterWrite (h : t.Calm) : t.afterWrite = t := by
  have hnone : t.mishaps = [] := h
  rw [FileTree.afterWrite, hnone, List.tail_nil, ← hnone]

theorem Calm.mishap? (h : t.Calm) : t.mishap? = none := by
  have hnone : t.mishaps = [] := h
  rw [FileTree.mishap?, hnone]
  rfl

theorem store_calm (h : t.Calm) : store place bytes t = (.ok (), t.insert place (.file bytes)) := by
  rw [store, h.mishap?, h.afterWrite]

/-- All of the bytes are stored, or none, or some of them. -/
theorem store_cases (t : FileTree) :
    store place bytes t = (.ok (), t.afterWrite.insert place (.file bytes))
    ∨ (∃ e, store place bytes t = (.error e, t.afterWrite))
    ∨ ∃ e, ∃ size < bytes.size,
      store place bytes t = (.error e, t.afterWrite.insert place (.file (bytes.take size))) := by
  rw [store]
  rcases t.mishap? with _ | (e | ⟨size, e⟩)
  · exact .inl rfl
  · exact .inr (.inl ⟨e, rfl⟩)
  · dsimp only
    by_cases hsize : bytes.size ≤ size
    · rw [if_pos hsize]
      exact .inl rfl
    · rw [if_neg hsize]
      exact .inr (.inr ⟨e, size, Nat.lt_of_not_le hsize, rfl⟩)

end Store

/-! ## Writing and moving files -/

section Files

variable {t : FileTree} {path target : String} {bytes : Array UInt8}

theorem writeFile_apply (path : String) (bytes : Array UInt8) (t : FileTree) :
    writeFile path bytes t = match t.locate true path with
      | .error e => (.error e, t)
      | .ok (.found _ .directory) => (.error .isDirectory, t)
      | .ok (.found place _) => store place bytes t
      | .ok (.free place asDirectory) =>
        if asDirectory then (.error .isDirectory, t) else store place bytes t := by
  have hlook : look true path t = (t.locate true path, t) := rfl
  rw [writeFile, bind_apply, hlook]
  rcases t.locate true path with e | (⟨p, _ | _ | _⟩ | ⟨p, _ | _⟩) <;> rfl

/-- The file that a path leads to is written, or nothing is changed. -/
theorem writeFile_cases (bytes : Array UInt8) (hclear : ClearWay t path) :
    (∃ e, writeFile path bytes t = (.error e, t))
    ∨ placeOf t.workingDirectory path ≠ []
      ∧ writeFile path bytes t = store (placeOf t.workingDirectory path) bytes t := by
  rw [writeFile_apply]
  rcases hlocate : t.locate true path with e | (⟨p, entry⟩ | ⟨p, asDirectory⟩)
  · exact .inl ⟨e, rfl⟩
  · obtain ⟨rfl, rfl | ⟨bytes', rfl, hfile⟩⟩ := locate_at hclear hlocate
    · exact .inl ⟨_, rfl⟩
    · exact .inr ⟨ne_nil_of_file hfile, rfl⟩
  · obtain ⟨rfl, hfree⟩ := locate_at hclear hlocate
    cases asDirectory with
    | false => exact .inr ⟨ne_nil_of_free hfree, rfl⟩
    | true => exact .inl ⟨_, rfl⟩

theorem rename_found {place : Place} {entry : Entry}
    (h : t.locate false path = .ok (.found place entry)) (hplain : entry ≠ .directory) :
    rename path target t = match t.locate false (dropSlashes target) with
      | .error e => (.error e, t)
      | .ok (.found _ .directory) => (.error (occupied target), t)
      | .ok (.found goal _) => rename.moveTo place entry goal target t
      | .ok (.free goal _) => rename.moveTo place entry goal target t := by
  have hlook : ∀ path, look false path t = (t.locate false path, t) := fun _ => rfl
  rw [rename, bind_apply, hlook, h]
  cases entry with
  | directory => exact absurd rfl hplain
  | file _ | link _ =>
    dsimp only
    rw [bind_apply, hlook]
    rcases t.locate false (dropSlashes target) with e | (⟨q, _ | _ | _⟩ | ⟨q, _⟩) <;> rfl

theorem moveTo_apply (place : Place) (entry : Entry) (goal : Place)
    (htarget : dropSlashes target = target) (t : FileTree) :
    rename.moveTo place entry goal target t = (.ok (), (t.erase place).insert goal entry) := by
  rw [rename.moveTo, if_pos htarget]
  rfl

/-- A file is moved to where the new path leads, or nothing is changed. -/
theorem rename_cases (hclear : ClearWay t path) (hclear' : ClearWay t target)
    (htarget : dropSlashes target = target)
    (hfile : t.get? (placeOf t.workingDirectory path) = some (.file bytes)) :
    (∃ e, rename path target t = (.error e, t))
    ∨ placeOf t.workingDirectory target ≠ []
      ∧ rename path target t = (.ok (), (t.erase (placeOf t.workingDirectory path)).insert
        (placeOf t.workingDirectory target) (.file bytes)) := by
  have hlook : look false path t = (t.locate false path, t) := rfl
  rcases hlocate : t.locate false path with e | (⟨p, entry⟩ | ⟨p, asDirectory⟩)
  · exact .inl ⟨e, by rw [rename, bind_apply, hlook, hlocate]⟩
  · obtain ⟨rfl, rfl | ⟨bytes', rfl, hfile'⟩⟩ := locate_at hclear hlocate
    · exact .inl ⟨.isDirectory, by rw [rename, bind_apply, hlook, hlocate]; rfl⟩
    · cases hfile.symm.trans hfile'
      rw [rename_found hlocate (by simp), htarget]
      rcases hgoal : t.locate false target with e | (⟨q, entry⟩ | ⟨q, asDirectory⟩)
      · exact .inl ⟨e, rfl⟩
      · obtain ⟨rfl, rfl | ⟨bytes', rfl, hthere⟩⟩ := locate_at hclear' hgoal
        · exact .inl ⟨_, rfl⟩
        · exact .inr ⟨ne_nil_of_file hthere, moveTo_apply _ _ _ htarget t⟩
      · obtain ⟨rfl, hfree⟩ := locate_at hclear' hgoal
        exact .inr ⟨ne_nil_of_free hfree, moveTo_apply _ _ _ htarget t⟩
  · exact .inl ⟨.notFound, by rw [rename, bind_apply, hlook, hlocate]; rfl⟩

end Files

end RestForge.FileTree
