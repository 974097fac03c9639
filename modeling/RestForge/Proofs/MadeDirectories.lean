import Mathlib.Data.List.TakeWhile
import RestForge.Proofs.Along

/-!
# Making directories

* `textFault?`: what is wrong with the text of a path; `locate_eq`: all else is the search.
* `Points`, `Leads`: a path leads to a directory and from there along names; `Points.parent`: so does
  its parent.
* `Grown`: directories were added along names.
* `makeDirectories_grown`: the directories of a path are made as far as it goes, and what is found
  there in the end tells the result.
* `makeDirectories_settled`: where nothing is left to be made, nothing changes.
* `makeDirectories_unfree`: where no directory can be made, nothing changes.
-/

set_option autoImplicit false

namespace RestForge.FileTree

/-! ## The text of a path -/

/-- What is wrong with a path whatever tree it is looked up in. -/
def textFault? (path : String) : Option Fault :=
  if path.toList.contains '\x00' then some .invalidName
  else if path.isEmpty then some .notFound
  else if pathLimit ≤ path.utf8ByteSize then some .nameTooLong
  else none

theorem locate_eq (t : FileTree) (follow : Bool) (path : String) :
    t.locate follow path = match textFault? path with
      | some e => .error e
      | none => t.walk follow linkLimit (startOf t.workingDirectory path) (Path.pieces path) := by
  unfold locate textFault?
  split
  · rfl
  split
  · rfl
  split
  · rfl
  · rfl

theorem textFault?_eq_none {path : String} : textFault? path = none
    ↔ '\x00' ∉ path.toList ∧ path ≠ "" ∧ path.utf8ByteSize < pathLimit := by
  unfold textFault?
  split
  · simp_all
  split
  · simp_all
  split
  · simp_all
  · simp_all

/-- The first part of a path has no fault that the path has not. -/
theorem textFault?_append {path more : String} (hne : path ≠ "")
    (h : textFault? (path ++ more) = none) : textFault? path = none := by
  obtain ⟨hchar, -, hshort⟩ := textFault?_eq_none.mp h
  rw [String.toList_append, List.mem_append, not_or] at hchar
  rw [String.utf8ByteSize_append] at hshort
  exact textFault?_eq_none.mpr ⟨hchar.1, hne, by omega⟩

/-! ## Directories -/

section Found

variable {t t' : FileTree} {path : String} {place : Place}

theorem directoryAt?_eq_some : t.directoryAt? path = some place
    ↔ t.locate true path = .ok (.found place .directory) := by
  unfold directoryAt? entryAt?
  rcases t.locate true path with e | (⟨p, _ | _ | _⟩ | ⟨p, b⟩) <;> simp

theorem directoryAt?_passes : t.directoryAt? path = some place ↔ textFault? path = none
    ∧ ∃ left, Passes t linkLimit (startOf t.workingDirectory path) (Path.pieces path) left place := by
  rw [directoryAt?_eq_some, locate_eq]
  cases textFault? path with
  | some e => simp
  | none =>
    rw [← passes_iff]
    simp

theorem isDirectory_passes : t.isDirectory path = true ↔ textFault? path = none
    ∧ ∃ left place, Passes t linkLimit (startOf t.workingDirectory path) (Path.pieces path) left
      place := by
  rw [isDirectory, Option.isSome_iff_exists]
  simp only [directoryAt?_passes]
  constructor
  · rintro ⟨place, htext, left, h⟩
    exact ⟨htext, left, place, h⟩
  · rintro ⟨htext, left, place, h⟩
    exact ⟨place, htext, left, h⟩

theorem directoryAt?_mono (hdirectory : t'.workingDirectory = t.workingDirectory)
    (hdirs : ∀ p, t.get? p = some .directory → t'.get? p = some .directory)
    (hlinks : ∀ p target, t.get? p = some (.link target) → t'.get? p = some (.link target))
    (h : t.directoryAt? path = some place) : t'.directoryAt? path = some place := by
  obtain ⟨htext, left, hpasses⟩ := directoryAt?_passes.mp h
  refine directoryAt?_passes.mpr ⟨htext, left, ?_⟩
  rw [hdirectory]
  exact hpasses.mono hdirs hlinks

end Found

/-! ## Parents -/

namespace Path

theorem dropIdleEnd_append_idle (ps : List String) :
    ∃ tail, ps = dropIdleEnd ps ++ tail ∧ ∀ p ∈ tail, isIdle p = true := by
  cases ps with
  | nil => exact ⟨[], rfl, by simp⟩
  | cons first rest =>
    refine ⟨(rest.reverse.takeWhile isIdle).reverse, ?_, fun p hp => ?_⟩
    · have hsplit := List.takeWhile_append_dropWhile (p := isIdle) (l := rest.reverse)
      have hrest := congrArg List.reverse hsplit
      rw [List.reverse_append, List.reverse_reverse] at hrest
      rw [dropIdleEnd, List.cons_append, hrest]
    · exact List.mem_takeWhile_imp (List.mem_reverse.mp hp)

/-- Pieces of which the last leads somewhere, or a single piece. -/
def Trimmed (ps : List String) : Prop :=
  ∀ last, ps.getLast? = some last → isIdle last = true → ps = [last]

theorem trimmed_dropIdleEnd (ps : List String) : Trimmed (dropIdleEnd ps) := by
  cases ps with
  | nil => intro last hlast; cases hlast
  | cons first rest =>
    intro last hlast hidle
    rw [dropIdleEnd] at hlast ⊢
    rcases hdrop : rest.reverse.dropWhile isIdle with _ | ⟨x, xs⟩
    · rw [hdrop] at hlast
      cases hlast
      rfl
    · rw [hdrop, List.reverse_cons, ← List.cons_append, List.getLast?_concat] at hlast
      cases hlast
      have hhead := List.head?_dropWhile_not isIdle rest.reverse
      rw [hdrop] at hhead
      simp [hidle] at hhead

/-- What is left of pieces with a name among the later ones. -/
theorem dropIdleEnd_append_named (before : List String) {rest : List String}
    (h : namesOf rest ≠ []) :
    ∃ kept, dropIdleEnd (before ++ rest) = before ++ kept ∧ namesOf kept = namesOf rest
      ∧ EndsNamed (before ++ kept) ∧ kept <+: rest := by
  obtain ⟨tail, hsplit, htail⟩ := dropIdleEnd_append_idle (before ++ rest)
  obtain ⟨kept, hkept, rfl⟩ | ⟨more, -, htail'⟩ := List.append_eq_append_iff.mp hsplit
  · have hnames : namesOf (kept ++ tail) = namesOf kept := by
      rw [namesOf_append, namesOf_idle htail, List.append_nil]
    refine ⟨kept, hkept, hnames.symm, fun last hlast => ?_, List.prefix_append _ _⟩
    by_contra hidle
    have hone := hkept ▸ trimmed_dropIdleEnd (before ++ (kept ++ tail)) last
    have hsingle := hone hlast (by simpa using hidle)
    have hall : ∀ p ∈ kept, isIdle p = true := by
      intro p hp
      have hmem : p ∈ before ++ kept := List.mem_append_right _ hp
      rw [hsingle, List.mem_singleton] at hmem
      rw [hmem]
      simpa using hidle
    exact h (hnames.trans (namesOf_idle hall))
  · refine absurd (namesOf_idle fun p hp => htail p ?_) h
    rw [htail']
    exact List.mem_append_right _ hp

theorem parent?_concat {path name : String} {ps : List String} (hpieces : pieces path = ps ++ [name])
    (hname : isIdle name = false) (hne : ps ≠ []) :
    parent? path = some (if dropIdleEnd ps = [""] then "/" else ofPieces (dropIdleEnd ps)) := by
  obtain ⟨first, rest, rfl⟩ := List.exists_cons_of_ne_nil hne
  have hdrop : dropIdleEnd (pieces path) = first :: (rest ++ [name]) := by
    rw [hpieces, dropIdleEnd_append hname, List.cons_append]
  unfold parent?
  rw [hdrop]
  split
  · rename_i he
    cases he
  · rename_i only he
    simp at he
  · rename_i first' rest' _ he
    obtain ⟨rfl, rfl⟩ := List.cons.inj he
    rw [List.dropLast_concat]
    split
    · rename_i hroot
      rw [if_pos hroot]
    · rename_i hroot
      rw [if_neg hroot]

theorem ofPieces_append {ps qs : List String} (hps : ps ≠ []) (hqs : qs ≠ []) :
    ofPieces (ps ++ qs) = ofPieces ps ++ "/" ++ ofPieces qs :=
  String.intercalate_append_of_ne_nil hps hqs

/-- The parent of a path with a name behind other pieces, one of which leads somewhere. -/
theorem parent?_named {path name : String} {before rest : List String}
    (hpieces : pieces path = before ++ rest ++ [name]) (hname : isIdle name = false)
    (hrest : namesOf rest ≠ []) :
    ∃ above kept more, parent? path = some above ∧ pieces above = before ++ kept
      ∧ namesOf kept = namesOf rest ∧ EndsNamed (before ++ kept) ∧ kept <+: rest
      ∧ path = above ++ more ∧ above ≠ "" := by
  obtain ⟨kept, hkept, hnames, hlast, hsub⟩ := dropIdleEnd_append_named before hrest
  have hne : before ++ rest ≠ [] := by
    intro he
    rw [(List.append_eq_nil_iff.mp he).2] at hrest
    exact hrest rfl
  have hnil : before ++ kept ≠ [] := by
    intro he
    rw [(List.append_eq_nil_iff.mp he).2] at hnames
    exact hrest hnames.symm
  have hroot : before ++ kept ≠ [""] := by
    intro he
    have hidle := hlast "" (by rw [he]; rfl)
    cases hidle
  have hparent := parent?_concat hpieces hname hne
  rw [hkept, if_neg hroot] at hparent
  have habove : pieces (ofPieces (before ++ kept)) = before ++ kept := by
    have hmem : ∀ p ∈ before ++ kept, p ∈ pieces path := by
      intro p hp
      rw [hpieces]
      obtain hp | hp := List.mem_append.mp hp
      · simp [hp]
      · simp [hsub.subset hp]
    exact pieces_ofPieces hnil fun p hp => notMem_of_mem_pieces (hmem p hp)
  obtain ⟨tail, htail, -⟩ := dropIdleEnd_append_idle (before ++ rest)
  have hwhole : path = ofPieces (before ++ kept) ++ "/" ++ ofPieces (tail ++ [name]) := by
    rw [← ofPieces_append hnil (by simp), ← hkept, ← List.append_assoc, ← htail, ← hpieces,
      ofPieces_pieces]
  refine ⟨_, kept, _, hparent, habove, hnames, hlast, hsub, hwhole.trans (String.append_assoc ..), ?_⟩
  intro he
  rw [he] at habove
  exact hroot (habove.symm.trans (by decide))

end Path

/-! ## Paths that lead along names -/

/-- The pieces of a path lead to a directory, by way of links perhaps, and from there along names. -/
structure Points (t : FileTree) (path : String) (here : Place) (names : List String) : Prop where
  pieces : ∃ before rest left, Path.pieces path = before ++ rest
    ∧ Passes t linkLimit (startOf t.workingDirectory path) before left here
    ∧ ".." ∉ rest ∧ namesOf rest = names
  last : EndsNamed (Path.pieces path)

/-- So they do, and the path can be looked up. -/
structure Leads (t : FileTree) (path : String) (here : Place) (names : List String) : Prop
    extends Points t path here names where
  text : textFault? path = none

section Leads

variable {t t' : FileTree} {path : String} {here : Place} {names : List String}

theorem Points.named (h : Points t path here names) : Named names := by
  obtain ⟨before, rest, left, -, -, hup, rfl⟩ := h.pieces
  exact named_namesOf hup

theorem endsNamed_of_append {ps qs : List String} (h : EndsNamed (ps ++ qs)) : EndsNamed qs := by
  intro last hlast
  refine h last ?_
  rw [List.getLast?_append, hlast]
  rfl

theorem Leads.locate (h : Leads t path here names) (hne : names ≠ []) (hlinks : NoLinks t here names)
    (follow : Bool) : t.locate follow path = t.along here names := by
  obtain ⟨before, rest, left, hpieces, hpasses, hup, rfl⟩ := h.pieces
  have hsome : rest ≠ [] := by
    rintro rfl
    exact hne rfl
  have hlast : EndsNamed rest := endsNamed_of_append (hpieces ▸ h.last)
  rw [locate_eq, h.text, hpieces]
  dsimp only
  rw [hpasses.walk (.inl hsome), walk_plain hup hlast hlinks follow left, along]

theorem Leads.mono (h : Leads t path here names)
    (hdirectory : t'.workingDirectory = t.workingDirectory)
    (hdirs : ∀ p, t.get? p = some .directory → t'.get? p = some .directory)
    (hlinks : ∀ p target, t.get? p = some (.link target) → t'.get? p = some (.link target)) :
    Leads t' path here names := by
  obtain ⟨before, rest, left, hpieces, hpasses, hup, hnames⟩ := h.pieces
  refine ⟨⟨⟨before, rest, left, hpieces, ?_, hup, hnames⟩, h.last⟩, h.text⟩
  rw [hdirectory]
  exact hpasses.mono hdirs hlinks

theorem Leads.nonempty (h : Leads t path here names) : path ≠ "" :=
  (textFault?_eq_none.mp h.text).2.1

theorem Points.parent {front : List String} {name : String}
    (h : Points t path here (front ++ [name])) (hfront : front ≠ []) :
    ∃ above more, Path.parent? path = some above ∧ Points t above here front
      ∧ path = above ++ more ∧ above ≠ "" := by
  obtain ⟨before, rest, left, hpieces, hpasses, hup, hnames⟩ := h.pieces
  have hlast : EndsNamed rest := endsNamed_of_append (hpieces ▸ h.last)
  rcases List.eq_nil_or_concat rest with rfl | ⟨mid, last, rfl⟩
  · exact absurd hnames.symm (by simp [namesOf])
  · rw [List.concat_eq_append] at hpieces hup hnames hlast
    have hidle := endsNamed_concat.mp hlast
    rw [namesOf_concat mid hidle] at hnames
    obtain ⟨hmid, -⟩ := List.append_inj' hnames rfl
    rw [← List.append_assoc] at hpieces
    obtain ⟨above, kept, more, hparent, hkept, hsame, hends, hsub, hwhole, hne⟩ :=
      Path.parent?_named hpieces hidle (by rwa [hmid])
    have hup' : ".." ∉ kept := fun hmem => hup (List.mem_append_left _ (hsub.subset hmem))
    have hstart : startOf t.workingDirectory above = startOf t.workingDirectory path := by
      rw [startOf, startOf, (Path.parent?_pieces hparent hne).1]
    exact ⟨above, more, hparent,
      ⟨⟨before, kept, left, hkept, hstart ▸ hpasses, hup', hsame.trans hmid⟩, hkept ▸ hends⟩,
      hwhole, hne⟩

theorem Leads.parent {front : List String} {name : String} (h : Leads t path here (front ++ [name]))
    (hfront : front ≠ []) :
    ∃ above, Path.parent? path = some above ∧ Leads t above here front := by
  obtain ⟨above, more, hparent, hpoints, hwhole, hne⟩ := h.toPoints.parent hfront
  exact ⟨above, hparent, hpoints, textFault?_append hne (hwhole ▸ h.text)⟩

end Leads

/-! ## Making what is missing -/

/-- How the making of a directory ends, given what is found in its place. -/
def made : Except Fault Spot → Except Fault Unit
  | .ok (.found _ .directory) => .ok ()
  | .ok _ => .error .exists
  | .error e => .error e

/-- Directories were added along names from a place. -/
structure Grown (t t' : FileTree) (here : Place) (names : List String) : Prop where
  directory : t'.workingDirectory = t.workingDirectory
  mishaps : t'.mishaps = t.mishaps
  places : ∀ p, t'.get? p = t.get? p ∨ t.get? p = none ∧ t'.get? p = some .directory
    ∧ ∃ q, q ≠ [] ∧ q <+: names ∧ p = here ++ q
  ordered : t.Ordered → t'.Ordered
  closed : ClosedBelow t here → ClosedBelow t' here

section Grown

variable {t t' t'' : FileTree} {here : Place} {names more : List String}

theorem Grown.refl (t : FileTree) : Grown t t here names :=
  ⟨rfl, rfl, fun _ => .inl rfl, id, id⟩

theorem Grown.trans (h : Grown t t' here names) (h' : Grown t' t'' here names) :
    Grown t t'' here names := by
  refine ⟨h'.directory.trans h.directory, h'.mishaps.trans h.mishaps, fun p => ?_,
    h'.ordered ∘ h.ordered, h'.closed ∘ h.closed⟩
  obtain he | ⟨hfree, hnew, hq⟩ := h.places p <;> obtain he' | ⟨hfree', hnew', hq'⟩ := h'.places p
  · exact .inl (he'.trans he)
  · exact .inr ⟨he.symm.trans hfree', hnew', hq'⟩
  · exact .inr ⟨hfree, he'.trans hnew, hq⟩
  · exact .inr ⟨hfree, hnew', hq⟩

theorem Grown.mono (h : Grown t t' here names) (hpart : names <+: more) : Grown t t' here more :=
  ⟨h.directory, h.mishaps, fun p => (h.places p).imp_right fun ⟨hfree, hnew, q, hq, hqs, he⟩ =>
    ⟨hfree, hnew, q, hq, hqs.trans hpart, he⟩, h.ordered, h.closed⟩

theorem Grown.get? (h : Grown t t' here names) {p : Place} {entry : Entry}
    (hget : t.get? p = some entry) : t'.get? p = some entry := by
  obtain he | ⟨hfree, -⟩ := h.places p
  · rw [he, hget]
  · rw [hget] at hfree
    cases hfree

theorem Grown.get_link (h : Grown t t' here names) {p : Place} {target : String}
    (hget : t'.get? p = some (.link target)) : t.get? p = some (.link target) := by
  obtain hsame | ⟨-, hnew, -⟩ := h.places p
  · rw [← hsame, hget]
  · cases hget.symm.trans hnew

theorem Grown.calm (h : Grown t t' here names) (hcalm : t.Calm) : t'.Calm := h.mishaps.trans hcalm

theorem Grown.noLinks (h : Grown t t' here names) (hlinks : NoLinks t here more) :
    NoLinks t' here more := by
  intro q hq hpart target hget
  obtain he | ⟨-, hnew, -⟩ := h.places (here ++ q)
  · exact hlinks q hq hpart target (he ▸ hget)
  · rw [hnew] at hget
    cases hget

theorem Grown.leads (h : Grown t t' here names) {path : String} {place : Place}
    (hleads : Leads t path place more) : Leads t' path place more :=
  hleads.mono h.directory (fun _ hp => h.get? hp) fun _ _ hp => h.get? hp

theorem grown_insert {name : String} (hfree : t.get? (here ++ (names ++ [name])) = none)
    (hdir : names ≠ [] → t.get? (here ++ names) = some .directory) :
    Grown t (t.insert (here ++ (names ++ [name])) .directory) here (names ++ [name]) := by
  have hne : here ++ (names ++ [name]) ≠ [] := by simp
  refine ⟨rfl, rfl, fun p => ?_, fun h => h.insert hne _, fun h q last hq hsome => ?_⟩
  · rw [get?_insert hne]
    by_cases hp : p = here ++ (names ++ [name])
    · rw [if_pos hp, hp]
      exact .inr ⟨hfree, rfl, names ++ [name], by simp, List.prefix_rfl, rfl⟩
    · rw [if_neg hp]
      exact .inl rfl
  · rw [get?_insert hne] at hsome ⊢
    split
    · rfl
    · split at hsome
      · rename_i he
        rw [List.append_assoc] at he
        obtain ⟨rfl, -⟩ := List.append_inj' (List.append_cancel_left he) rfl
        exact hdir hq
      · exact h q last hq hsome

end Grown

section Making

variable {t : FileTree} {path : String} {here : Place} {names : List String}

theorem isDirectory_of_locate {found : Except Fault Spot} (h : t.locate true path = found) :
    t.isDirectory path = true ↔ made found = .ok () := by
  rw [isDirectory, directoryAt?, entryAt?, h]
  rcases found with e | (⟨p, _ | _ | _⟩ | ⟨p, b⟩) <;> simp [made]

theorem unlessDirectory_apply (e : Fault) : unlessDirectory path e t
    = (if t.isDirectory path then .ok () else .error e, t) := by
  have hget : (get : Access FileTree) t = (.ok t, t) := rfl
  rw [unlessDirectory, bind_apply, hget]
  dsimp only
  cases t.isDirectory path <;> rfl

theorem makeDirectoryIn_fault {e : Fault} (h : makeDirectory path t = (.error e, t))
    (he : e ≠ .notFound) (outer : List String) :
    makeDirectoryIn (path :: outer) t = (if t.isDirectory path then .ok () else .error e, t) := by
  rw [makeDirectoryIn, Access.tryCatch_apply, h, ← unlessDirectory_apply]
  cases e <;> first | rfl | exact absurd rfl he

/-- Where something is found, nothing is made. -/
theorem makeDirectoryIn_found {found : Except Fault Spot} (h : ∀ follow, t.locate follow path = found)
    (hfound : ¬Missing found) (outer : List String) :
    makeDirectoryIn (path :: outer) t = (made found, t) := by
  have hdir := isDirectory_of_locate (h true)
  rcases found with e | (⟨p, entry⟩ | ⟨p, b⟩)
  · have hmake : makeDirectory path t = (.error e, t) := by rw [makeDirectory_apply, h]
    have hne : e ≠ .notFound := by
      rintro rfl
      exact hfound trivial
    have hnot : t.isDirectory path = false := by
      rw [Bool.eq_false_iff]
      exact fun hd => nomatch hdir.mp hd
    rw [makeDirectoryIn_fault hmake hne, hnot]
    rfl
  · have hmake : makeDirectory path t = (.error .exists, t) := by rw [makeDirectory_apply, h]
    rw [makeDirectoryIn_fault hmake (by simp)]
    cases entry with
    | directory => rw [if_pos (hdir.mpr rfl)]; rfl
    | file bytes => rw [if_neg fun hd => nomatch hdir.mp hd]; rfl
    | link target => rw [if_neg fun hd => nomatch hdir.mp hd]; rfl
  · exact absurd trivial hfound

theorem ancestorsWithin_succ (hne : path ≠ "") (fuel : Nat) :
    Path.ancestorsWithin (fuel + 1) path = path :: (match Path.parent? path with
      | some parent => Path.ancestorsWithin fuel parent
      | none => []) := by
  have hsome : ¬path.isEmpty = true := by simpa using hne
  cases hparent : Path.parent? path with
  | none => rw [Path.ancestorsWithin, if_neg hsome, hparent]
  | some parent => rw [Path.ancestorsWithin, if_neg hsome, hparent]

/-- The last of some names is made where all before it lead to a directory. -/
theorem makeDirectory_last {front : List String} {name : String}
    (hleads : Leads t path here (front ++ [name])) (hlinks : NoLinks t here (front ++ [name]))
    (hdir : t.along here front = .ok (.found (here ++ front) .directory)) (hname : IsName name)
    (hfree : t.get? (here ++ front ++ [name]) = none) : ∃ t', makeDirectory path t = (.ok (), t')
      ∧ t'.along here (front ++ [name]) = .ok (.found (here ++ (front ++ [name])) .directory)
      ∧ Grown t t' here (front ++ [name]) := by
  obtain ⟨hnamed, hlast⟩ := named_append.mp hleads.named
  have hlinks' := hlinks.mono (List.prefix_append _ _)
  rw [List.append_assoc] at hfree
  have hgrown := grown_insert hfree (along_found hnamed hlinks' hdir).2.1
  have hspot : t.along here (front ++ [name]) = .ok (.free (here ++ (front ++ [name])) false) := by
    rw [along_append hnamed hlinks' hdir, along, walk_name hname, List.append_assoc, hfree]
    rfl
  refine ⟨_, ?_, ?_, hgrown⟩
  · rw [makeDirectory_apply, hleads.locate (by simp) hlinks, hspot]
  · have hfront : (t.insert (here ++ (front ++ [name])) .directory).along here front
        = .ok (.found (here ++ front) .directory) := by
      rw [along_congr hnamed hlinks' (fun _ hp => hgrown.get? hp) (fun q _ _ bytes hq => hgrown.get? hq)
        (by rw [hdir]; exact id), hdir]
    have hnew : (t.insert (here ++ (front ++ [name])) .directory).get? (here ++ front ++ [name])
        = some .directory := by
      rw [List.append_assoc, get?_insert (by simp), if_pos rfl]
    rw [along_append hnamed (hgrown.noLinks hlinks') hfront, along_into hname hnew, along_nil,
      List.append_assoc]

/-- A name behind one that is not there is not looked for. -/
theorem along_notFound {before mid : List String} {name last : String} (hnamed : Named before)
    (hlinks : NoLinks t here (before ++ name :: mid ++ [last]))
    (hdir : t.along here before = .ok (.found (here ++ before) .directory)) (hname : IsName name)
    (hfree : t.get? (here ++ before ++ [name]) = none) (hlast : Named [last]) :
    t.along here (before ++ name :: mid ++ [last]) = .error .notFound := by
  have hsome : last.isEmpty = false := by
    have hidle := (hlast last List.mem_cons_self).1
    rw [Path.isIdle, Bool.or_eq_false_iff] at hidle
    exact hidle.1
  rw [List.append_assoc, List.cons_append] at hlinks ⊢
  rw [along_append hnamed (hlinks.mono (List.prefix_append _ _)) hdir, along, walk_name hname, hfree]
  dsimp only
  rw [if_neg (by simp [hsome])]

/-- Behind a name that was not there nothing but a long name can be in the way. -/
theorem fault_of_grown {t' : FileTree} {before after : List String} {name : String} {e : Fault}
    (hnamed : Named (before ++ name :: after)) (hlinks : NoLinks t here (before ++ name :: after))
    (hclosed : ClosedBelow t here) (hgrown : Grown t t' here (before ++ name :: after))
    (hfree : t.get? (here ++ before ++ [name]) = none)
    (hfound : ¬Missing (t'.along here (before ++ name :: after)))
    (h : made (t'.along here (before ++ name :: after)) = .error e) :
    t'.along here (before ++ name :: after) = .error e := by
  rcases hspot : t'.along here (before ++ name :: after) with e' | (⟨p, entry⟩ | ⟨p, b⟩) <;>
    rw [hspot] at h hfound
  · cases h
    rfl
  · exfalso
    obtain ⟨rfl, hget, -⟩ := along_found hnamed (hgrown.noLinks hlinks) hspot
    have hold : t.get? (here ++ (before ++ name :: after)) = some entry := by
      obtain hsame | ⟨-, hnew, -⟩ := hgrown.places (here ++ (before ++ name :: after))
      · rw [← hsame, hget (by simp)]
      · rw [hget (by simp)] at hnew
        cases hnew
        cases h
    have hplace : here ++ (before ++ name :: after) = here ++ (before ++ [name]) ++ after := by simp
    rw [List.append_assoc] at hfree
    rw [hplace] at hold
    by_cases hafter : after = []
    · rw [hafter, List.append_nil, hfree] at hold
      cases hold
    · rw [hclosed.free (by simp) (by rw [hfree]; simp) hafter] at hold
      cases hold
  · exact absurd trivial hfound

theorem made_ok {found : Except Fault Spot} (h : made found = .ok ()) :
    ∃ p, found = .ok (.found p .directory) := by
  rcases found with e | (⟨p, _ | _ | _⟩ | ⟨p, b⟩) <;> first | exact ⟨p, rfl⟩ | cases h

/-- What lies behind names along which directories were added was not there. -/
theorem free_of_grown {t' : FileTree} {before mid : List String} {name last : String}
    (hclosed : ClosedBelow t here) (hgrown : Grown t t' here (before ++ name :: mid))
    (hfree : t.get? (here ++ before ++ [name]) = none) :
    t'.get? (here ++ (before ++ name :: mid) ++ [last]) = none := by
  have hplace : here ++ (before ++ name :: mid) ++ [last]
      = here ++ (before ++ [name]) ++ (mid ++ [last]) := by simp
  rw [List.append_assoc] at hfree
  obtain hsame | ⟨-, -, q, -, hq, he⟩ := hgrown.places (here ++ (before ++ name :: mid) ++ [last])
  · rw [hsame, hplace, hclosed.free (by simp) (by rw [hfree]; simp) (by simp)]
  · rw [List.append_assoc] at he
    have hlen := hq.length_le
    rw [← List.append_cancel_left he, List.length_append, List.length_singleton] at hlen
    omega

/-- The directories of a path are made one after another, as far as it goes. -/
theorem makeDirectoryIn_grown (hclosed : ClosedBelow t here) {fuel : Nat} {path : String}
    {names : List String} (hfuel : names.length ≤ fuel + 1) (hne : names ≠ [])
    (hleads : Leads t path here names) (hlinks : NoLinks t here names) :
    ∃ t', makeDirectoryIn (Path.ancestorsWithin (fuel + 1) path) t
        = (made (t'.along here names), t')
      ∧ ¬Missing (t'.along here names) ∧ Grown t t' here names := by
  -- each path needs the directory before the last of its names
  induction names using List.reverseRecOn generalizing fuel path with
  | nil => exact absurd rfl hne
  | append_singleton front last ih =>
    have hnamed := hleads.named
    rw [ancestorsWithin_succ hleads.nonempty]
    by_cases hmissing : Missing (t.along here (front ++ [last]))
    · obtain ⟨before, name, after, hsplit, hname, hdir, hfree⟩ :=
        along_missing hnamed hlinks hmissing
      rcases List.eq_nil_or_concat after with rfl | ⟨mid, final, rfl⟩
      · obtain ⟨rfl, hlast⟩ := List.append_inj' hsplit rfl
        obtain rfl := (List.cons.inj hlast).1
        obtain ⟨t', hmake, halong, hgrown⟩ := makeDirectory_last hleads hlinks hdir hname hfree
        refine ⟨t', ?_, by rw [halong]; exact id, hgrown⟩
        rw [makeDirectoryIn, Access.tryCatch_apply, hmake, halong]
        rfl
      · rw [List.concat_eq_append] at hsplit
        have hparts : front ++ [last] = (before ++ name :: mid) ++ [final] := by simpa using hsplit
        obtain ⟨rfl, hlast⟩ := List.append_inj' hparts rfl
        obtain rfl := (List.cons.inj hlast).1
        obtain ⟨hfront, hfinal⟩ := named_append.mp hnamed
        have hlinks' : NoLinks t here (before ++ name :: mid) := hlinks.mono (List.prefix_append _ _)
        have hnotFound : makeDirectory path t = (.error .notFound, t) := by
          rw [makeDirectory_apply, hleads.locate hne hlinks,
            along_notFound (named_append.mp hfront).1 hlinks hdir hname hfree hfinal]
        obtain ⟨above, hparent, habove⟩ := hleads.parent (by simp)
        obtain ⟨fuel, rfl⟩ : ∃ f, fuel = f + 1 := by
          simp only [List.length_append, List.length_cons] at hfuel
          exact ⟨fuel - 1, by omega⟩
        have hshort : (before ++ name :: mid).length ≤ fuel + 1 := by
          rw [List.length_append, List.length_singleton] at hfuel
          omega
        obtain ⟨t₁, hmake₁, hfound₁, hgrown₁⟩ := ih hshort (by simp) habove hlinks'
        have hlinks₁ := hgrown₁.noLinks hlinks
        have hlinks₁' : NoLinks t₁ here (before ++ name :: mid) :=
          hlinks₁.mono (List.prefix_append _ _)
        rw [makeDirectoryIn, Access.tryCatch_apply, hnotFound]
        dsimp only
        rw [hparent]
        dsimp only
        rw [bind_apply, hmake₁]
        cases hmade : made (t₁.along here (before ++ name :: mid)) with
        | error e =>
          have hfault := fault_of_grown hfront hlinks' hclosed hgrown₁ hfree hfound₁ hmade
          have hne' : e ≠ .notFound := by
            rintro rfl
            rw [hfault] at hfound₁
            exact hfound₁ trivial
          have hwhole := along_fault hfront hlinks₁ hfinal hfault hne'
          refine ⟨t₁, by rw [hwhole]; rfl, ?_, hgrown₁.mono (List.prefix_append _ _)⟩
          rw [hwhole, ← hfault]
          exact hfound₁
        | ok u =>
          obtain ⟨p, hdir₁⟩ := made_ok hmade
          obtain ⟨rfl, -, -⟩ := along_found hfront hlinks₁' hdir₁
          have hleads₁ := hgrown₁.leads hleads
          dsimp only
          rw [Access.tryCatch_apply]
          obtain hlong | hlast := along_long hfinal (here ++ (before ++ name :: mid))
          · have hwhole : t₁.along here (before ++ name :: mid ++ [last]) = .error .nameTooLong := by
              rw [along_append hfront hlinks₁' hdir₁, hlong]
            have hlocate := hleads₁.locate hne hlinks₁
            have hmake : makeDirectory path t₁ = (.error .nameTooLong, t₁) := by
              rw [makeDirectory_apply, hlocate, hwhole]
            have hnot : ¬t₁.isDirectory path = true := by
              rw [isDirectory_of_locate (hlocate true), hwhole]
              rintro ⟨⟩
            refine ⟨t₁, ?_, by rw [hwhole]; exact id, hgrown₁.mono (List.prefix_append _ _)⟩
            rw [hmake]
            dsimp only
            rw [unlessDirectory_apply, if_neg hnot, hwhole]
            rfl
          · have hfree₁ : t₁.get? (here ++ (before ++ name :: mid) ++ [last]) = none :=
              free_of_grown hclosed hgrown₁ hfree
            obtain ⟨t', hmake, halong, hgrown⟩ :=
              makeDirectory_last hleads₁ hlinks₁ hdir₁ hlast hfree₁
            refine ⟨t', by rw [hmake, halong]; rfl, by rw [halong]; exact id,
              (hgrown₁.mono (List.prefix_append _ _)).trans hgrown⟩
    · exact ⟨t, makeDirectoryIn_found (fun follow => hleads.locate hne hlinks follow) hmissing _,
        hmissing, .refl t⟩

theorem namesOf_length_le (ps : List String) : (namesOf ps).length ≤ ps.length :=
  List.length_filter_le _ _

theorem Points.length_le (h : Points t path here names) :
    names.length ≤ (Path.pieces path).length := by
  obtain ⟨before, rest, left, hpieces, -, -, rfl⟩ := h.pieces
  have hlen := namesOf_length_le rest
  rw [hpieces, List.length_append]
  omega

/-- The directories that a path leads through are made as far as it goes. -/
theorem makeDirectories_grown (hclosed : ClosedBelow t here) (hne : names ≠ [])
    (hleads : Leads t path here names) (hlinks : NoLinks t here names) :
    ∃ t', makeDirectories path t = (made (t'.along here names), t')
      ∧ ¬Missing (t'.along here names) ∧ Grown t t' here names :=
  makeDirectoryIn_grown hclosed (by have := hleads.length_le; omega) hne hleads hlinks

theorem ancestors_cons (hne : path ≠ "") : ∃ outer, Path.ancestors path = path :: outer := by
  rw [Path.ancestors, ancestorsWithin_succ hne]
  exact ⟨_, rfl⟩

/-- Nothing changes where nothing is left to be made. -/
theorem makeDirectories_settled (hne : names ≠ []) (hleads : Leads t path here names)
    (hlinks : NoLinks t here names) (hfound : ¬Missing (t.along here names)) :
    makeDirectories path t = (made (t.along here names), t) := by
  obtain ⟨outer, houter⟩ := ancestors_cons hleads.nonempty
  rw [makeDirectories, houter]
  exact makeDirectoryIn_found (fun follow => hleads.locate hne hlinks follow) hfound outer

theorem makeDirectories_textFault {e : Fault} (hne : path ≠ "") (h : textFault? path = some e) :
    makeDirectories path t = (.error e, t) := by
  obtain ⟨outer, houter⟩ := ancestors_cons hne
  have hlocate : ∀ follow, t.locate follow path = .error e := fun follow => by rw [locate_eq, h]
  have hmissing : ¬Missing (.error e) := by
    cases e <;> try exact id
    unfold textFault? at h
    split at h
    · cases h
    split at h
    · simp_all
    split at h <;> cases h
  rw [makeDirectories, houter]
  exact makeDirectoryIn_found hlocate hmissing outer

/-- A directory that is there is not made. -/
theorem makeDirectory_there (h : t.isDirectory path = true) :
    makeDirectory path t = (.error .exists, t) := by
  obtain ⟨htext, left, place, hpasses⟩ := isDirectory_passes.mp h
  obtain ⟨p, entry, hfound⟩ := hpasses.found
  rw [makeDirectory_apply, locate_eq, htext]
  dsimp only
  rw [hfound]

theorem makeDirectories_here (h : t.isDirectory path = true) :
    makeDirectories path t = (.ok (), t) := by
  have hne : path ≠ "" := by
    rintro rfl
    cases (isDirectory_passes.mp h).1
  obtain ⟨outer, houter⟩ := ancestors_cons hne
  rw [makeDirectories, houter, makeDirectoryIn_fault (makeDirectory_there h) (by simp), if_pos h]

/-- Once the outermost of some missing directories is made, those may be there which before were not
found. -/
theorem makeDirectoryIn_made {t' : FileTree} {paths : List String} {outermost : String}
    (hmissing : ∀ p ∈ paths, t.locate false p = .error .notFound)
    (hmake : makeDirectory outermost t = (.ok (), t'))
    (hthere : ∀ p ∈ paths, t'.isDirectory p = true) :
    makeDirectoryIn (paths ++ [outermost]) t = (.ok (), t') := by
  induction paths with
  | nil =>
    rw [List.nil_append, makeDirectoryIn, Access.tryCatch_apply, hmake]
  | cons p paths ih =>
    have hfault : makeDirectory p t = (.error .notFound, t) := by
      rw [makeDirectory_apply, hmissing p List.mem_cons_self]
    have houter := ih (fun q hq => hmissing q (List.mem_cons_of_mem _ hq)) fun q hq =>
      hthere q (List.mem_cons_of_mem _ hq)
    have hdir := hthere p List.mem_cons_self
    rw [List.cons_append, makeDirectoryIn, Access.tryCatch_apply, hfault]
    dsimp only
    rw [bind_apply, houter]
    dsimp only
    rw [Access.tryCatch_apply, makeDirectory_there hdir]
    dsimp only
    rw [unlessDirectory_apply, if_pos hdir]

/-- Where none of some directories can be made, nothing changes, and the first is there or it is a
fault. -/
theorem makeDirectoryIn_unfree {paths : List String}
    (h : ∀ p ∈ paths, ∀ place b, t.locate false p ≠ .ok (.free place b)) :
    (makeDirectoryIn paths t).2 = t
      ∧ ((makeDirectoryIn paths t).1 = .ok () → ∀ first ∈ paths.head?, t.isDirectory first = true) := by
  induction paths with
  | nil => exact ⟨rfl, fun _ first hfirst => by cases hfirst⟩
  | cons path outer ih =>
    have hmake : ∃ e, makeDirectory path t = (.error e, t) := by
      rw [makeDirectory_apply]
      rcases hspot : t.locate false path with e | (⟨p, entry⟩ | ⟨p, b⟩)
      · exact ⟨e, rfl⟩
      · exact ⟨_, rfl⟩
      · exact absurd hspot (h path List.mem_cons_self p b)
    obtain ⟨e, hmake⟩ := hmake
    have hunless : ∀ e : Fault, (unlessDirectory path e t).2 = t
        ∧ ((unlessDirectory path e t).1 = .ok () → t.isDirectory path = true) := by
      intro e
      rw [unlessDirectory_apply]
      refine ⟨rfl, fun hok => ?_⟩
      by_contra hnot
      rw [if_neg hnot] at hok
      cases hok
    have hgoal : (makeDirectoryIn (path :: outer) t).2 = t
        ∧ ((makeDirectoryIn (path :: outer) t).1 = .ok () → t.isDirectory path = true) := by
      rw [makeDirectoryIn, Access.tryCatch_apply, hmake]
      dsimp only
      split
      · obtain ⟨hsame, -⟩ := ih fun p hp => h p (List.mem_cons_of_mem _ hp)
        rw [bind_apply]
        rcases hrun : makeDirectoryIn outer t with ⟨e | u, t'⟩ <;> rw [hrun] at hsame
        · obtain rfl : t' = t := hsame
          exact ⟨rfl, fun hok => by cases hok⟩
        · obtain rfl : t' = t := hsame
          dsimp only
          rw [Access.tryCatch_apply, hmake]
          exact hunless _
      · exact hunless _
    exact ⟨hgoal.1, fun hok first hfirst => by cases hfirst; exact hgoal.2 hok⟩

end Making

end RestForge.FileTree
