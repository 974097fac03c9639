import RestForge.Proofs.OutputRoots

/-!
# How the replacement of a file ends

* `locate_below`, `walk_last`: paths to a name in a directory that a root leads to.
* `Footing`: a root leads to a directory and along names, without links where a run writes.
* `makeParent_grown`: the directory of a file is made as far as it goes.
* `replacing`: how the replacement of a file ends then, told from the tree at that time.
* `replaceFile_of_parent`: so it ends.
-/

set_option autoImplicit false

namespace RestForge

namespace FileTree

section Slots

variable {t : FileTree} {root path : String} {here place : Place} {names dir : List String}

/-- Names along directories lead to the last of them. -/
theorem passes_plain {ps : List String} (hup : ".." ∉ ps) (hlinks : NoLinks t here (namesOf ps))
    (h : t.along here (namesOf ps) = .ok (.found place .directory)) (links : Nat) :
    Passes t links here ps links (here ++ namesOf ps) := by
  induction ps generalizing here with
  | nil =>
    rw [namesOf, List.filter_nil, List.append_nil]
    exact .here links here
  | cons p ps ih =>
    have hup' : ".." ∉ ps := fun hmem => hup (List.mem_cons_of_mem _ hmem)
    cases hidle : Path.isIdle p with
    | true =>
      have hnames : namesOf (p :: ps) = namesOf ps := List.filter_cons_of_neg (by simp [hidle])
      rw [hnames] at hlinks h ⊢
      exact .idle hidle (ih hup' hlinks h)
    | false =>
      have hnamed : Named (namesOf (p :: ps)) := named_namesOf hup
      have hnames : namesOf (p :: ps) = p :: namesOf ps := List.filter_cons_of_pos (by simp [hidle])
      rw [hnames] at hnamed hlinks h ⊢
      obtain ⟨-, he⟩ | ⟨-, -, he⟩ | ⟨-, bytes, -, he⟩ | ⟨hname, hget, he⟩ :=
        along_step hnamed hlinks <;> rw [he] at h
      · cases h
      · split at h <;> cases h
      · split at h <;> simp at h
      · have hlater := ih hup' hlinks.tail h
        rw [List.append_assoc, List.singleton_append] at hlater
        exact .into hname hget hlater

theorem Reaches.passes (h : Reaches t root here names) (hdir : ∀ n ∈ dir, Path.IsName n)
    (hlinks : NoLinks t here (names ++ dir))
    (hfound : t.along here (names ++ dir) = .ok (.found place .directory)) :
    ∃ left, Passes t linkLimit (startOf t.workingDirectory root) (Path.stem root ++ dir) left
      (here ++ (names ++ dir)) := by
  obtain ⟨before, rest, left, hstem, hpasses, hup, rfl⟩ := h
  have hnames : namesOf (rest ++ dir) = namesOf rest ++ dir := by
    rw [namesOf_append, namesOf_of_names fun n hn => (hdir n hn).not_idle]
  have hup' : ".." ∉ rest ++ dir := by
    rw [List.mem_append, not_or]
    exact ⟨hup, fun hmem => (hdir _ hmem).notUp rfl⟩
  rw [← hnames] at hlinks hfound ⊢
  refine ⟨left, ?_⟩
  rw [hstem, List.append_assoc]
  exact hpasses.append (passes_plain hup' hlinks hfound left)

/-- A path to a name in a directory that pieces of a root lead to. -/
theorem locate_below {left : Nat} {name : String}
    (h : Passes t linkLimit (startOf t.workingDirectory root) (Path.stem root ++ dir) left place)
    (hnames : ∀ n ∈ dir ++ [name], Path.IsName n) (follow : Bool) :
    t.locate follow (Path.join root (dir ++ [name]))
      = match textFault? (Path.join root (dir ++ [name])) with
        | some e => .error e
        | none => t.walk follow left place [name] := by
  rw [locate_eq]
  cases textFault? (Path.join root (dir ++ [name])) with
  | some e => rfl
  | none =>
    dsimp only
    rw [Path.startOf_join root (by simp) hnames, Path.pieces_below root (by simp) hnames,
      ← List.append_assoc, h.walk (.inl (by simp))]

theorem walk_last {follow : Bool} {links : Nat} {name : String} (hname : IsName name)
    (hlink : follow = true → ∀ target, t.get? (here ++ [name]) ≠ some (.link target)) :
    t.walk follow links here [name] = match t.get? (here ++ [name]) with
      | none => .ok (.free (here ++ [name]) false)
      | some entry => .ok (.found (here ++ [name]) entry) := by
  rw [walk_name hname]
  rcases hget : t.get? (here ++ [name]) with _ | (bytes | target | _)
  · rfl
  · rfl
  · cases follow with
    | false => rfl
    | true => exact absurd hget (hlink rfl target)
  · dsimp only
    rw [walk]

/-- What a name stands for in the directory that a root leads to. -/
theorem entryAt?_below {left : Nat} {name : String}
    (h : Passes t linkLimit (startOf t.workingDirectory root) (Path.stem root) left place)
    (hname : IsName name ∧ Path.IsName name) (htext : textFault? (Path.join root [name]) = none)
    {entry : Entry} (hget : t.get? (place ++ [name]) = some entry)
    (hlink : ∀ target, entry ≠ .link target) :
    t.entryAt? (Path.join root [name]) = some (place ++ [name], entry) := by
  have hpasses : Passes t linkLimit (startOf t.workingDirectory root) (Path.stem root ++ []) left
      place := by rwa [List.append_nil]
  have hnames : ∀ n ∈ [] ++ [name], Path.IsName n := by simpa using hname.2
  have hlocate := locate_below hpasses hnames true
  rw [List.nil_append, htext] at hlocate
  dsimp only at hlocate
  rw [walk_last hname.1 fun _ target he => hlink target (Option.some.inj (hget.symm.trans he)),
    hget] at hlocate
  rw [entryAt?, hlocate]

/-- Why no file can be put in a place, given the path that leads there. -/
def slotFault? (t : FileTree) (path : String) (place : Place) (taken : Fault) : Option WriteFailure :=
  match textFault? path with
  | some e => some ⟨path, e⟩
  | none => if t.get? place = some .directory then some ⟨path, taken⟩ else none

theorem slotFault?_congr {t' : FileTree} (h : t'.get? place = t.get? place) (path : String)
    (taken : Fault) : slotFault? t' path place taken = slotFault? t path place taken := by
  rw [slotFault?, slotFault?, h]

theorem slotFault?_eq_none {taken : Fault} : slotFault? t path place taken = none
    ↔ textFault? path = none ∧ t.get? place ≠ some .directory := by
  unfold slotFault?
  cases textFault? path with
  | some e => simp
  | none => simp

/-- How the making of the directory of a path ends, given what is found in its place. -/
def parentMade (path : String) (found : Except Fault Spot) : Except WriteFailure Unit :=
  match Path.parent? path with
  | none => .ok ()
  | some above =>
    if above.isEmpty then .ok ()
    else
      match textFault? above with
      | some e => .error ⟨above, e⟩
      | none =>
        match made found with
        | .ok () => .ok ()
        | .error e => .error ⟨above, e⟩

/-- Nothing is left to be made for a path. -/
def ParentSettled (path : String) (found : Except Fault Spot) : Prop :=
  (∃ above, Path.parent? path = some above ∧ textFault? above ≠ none) ∨ ¬Missing found

variable {name : String}

/-- The directory of a file right below a root is the root, without what is idle at its end. -/
theorem parent?_top {left : Nat}
    (h : Passes t linkLimit (startOf t.workingDirectory root) (Path.stem root) left here)
    (hname : Path.IsName name) {above : String}
    (hparent : Path.parent? (Path.join root [name]) = some above) (hne : above ≠ "") :
    ∃ left, Passes t linkLimit (startOf t.workingDirectory above) (Path.pieces above) left here := by
  have hnames : ∀ n ∈ [name], Path.IsName n := by simpa using hname
  have hpieces := Path.pieces_below root (by simp) hnames
  have hstart : startOf t.workingDirectory above = startOf t.workingDirectory root := by
    rw [← Path.startOf_join root (by simp) hnames, startOf, startOf,
      (Path.parent?_pieces hparent hne).1]
  rw [hstart]
  by_cases hstem : Path.stem root = []
  · have hlone : Path.parent? (Path.join root [name]) = some "" := by
      have hsome : name.isEmpty = false := by simpa using hname.nonempty
      have hdrop : Path.dropIdleEnd (Path.pieces (Path.join root [name])) = [name] := by
        rw [hpieces, hstem]
        rfl
      unfold Path.parent?
      rw [hdrop]
      dsimp only
      rw [if_neg (by simp [hsome])]
    cases hlone.symm.trans hparent
    exact absurd rfl hne
  · obtain ⟨tail, htail, hidle⟩ := Path.dropIdleEnd_append_idle (Path.stem root)
    rw [htail] at h
    obtain ⟨left', goal, hfirst, hrest⟩ := h.split
    obtain rfl := hrest.unique (passes_idle hidle left' goal)
    rw [Path.parent?_concat hpieces hname.not_idle hstem] at hparent
    split at hparent <;> cases hparent
    · rename_i hroot
      have habove : Path.pieces "/" = ["", ""] := by decide
      rw [hroot] at hfirst
      rw [habove]
      have hlast : ∀ p ∈ [""], Path.isIdle p = true := by decide
      exact ⟨left', hfirst.append (passes_idle hlast left' _)⟩
    · have hkept : Path.dropIdleEnd (Path.stem root) ≠ [] := by
        obtain ⟨first, rest, he⟩ := List.exists_cons_of_ne_nil hstem
        rw [he]
        simp [Path.dropIdleEnd]
      refine ⟨left', ?_⟩
      have hslash : ∀ p ∈ Path.dropIdleEnd (Path.stem root), '/' ∉ p.toList := fun p hp => by
        have hmem : p ∈ Path.stem root := htail ▸ List.mem_append_left tail hp
        exact Path.noSlash_of_mem_stem hmem
      rwa [Path.pieces_ofPieces hkept hslash]

end Slots

end FileTree

namespace Run

open FileTree (ClosedBelow Grown Missing NoLinks ParentSettled Passes Reaches WriteFailure linkLimit
  made makeParent parentMade replaceFile slotFault? startOf textFault?)
open FileTree.Path (join parent? stem temporaryName)

/-! ## Where a run writes -/

/-- A root leads to a directory and from there along names, and no link lies there where a run makes
directories or writes some files. -/
structure Footing (files : List String → Prop) (t : FileTree) (root : String) (here : FileTree.Place)
    (names : List String) : Prop where
  reaches : Reaches t root here names
  ordered : t.Ordered
  closed : ClosedBelow t here
  dirs : ∀ dir, IsSourceDir dir → NoLinks t here (names ++ dir)
  files : ∀ p, files p → ∀ q, Pair p q → ∀ target, t.get? (here ++ (names ++ q)) ≠ some (.link target)

/-- How a file is replaced once its directory is made as far as it goes. -/
def replacing (root : String) (here : FileTree.Place) (names p : List String) (text : String)
    (t : FileTree) : Except WriteFailure Unit × FileTree :=
  match parentMade (join root p) (t.along here (names ++ p.dropLast)) with
  | .error f => (.error f, t)
  | .ok () =>
    match slotFault? t (join root (temporaryOf p)) (here ++ (names ++ temporaryOf p))
        .isDirectory with
    | some f => (.error f, t)
    | none =>
      match FileTree.store (here ++ (names ++ temporaryOf p)) text.toUTF8.data t with
      | (.error e, t') => (.error ⟨join root (temporaryOf p), e⟩, t')
      | (.ok (), t') =>
        match slotFault? t (join root p) (here ++ (names ++ p)) (FileTree.occupied (join root p)) with
        | some f => (.error f, t')
        | none =>
          (.ok (), putFile t.afterWrite (here ++ (names ++ temporaryOf p)) (here ++ (names ++ p))
            text.toUTF8.data)

section Replace

variable {files : List String → Prop} {t t' : FileTree} {root : String} {here : FileTree.Place}
  {names p : List String}

theorem isName_fileName {n : String} (h : n ∈ fileNames) :
    FileTree.IsName n ∧ FileTree.IsName (temporaryName n) := by
  have hall : ∀ n ∈ fileNames, FileTree.IsName n ∧ FileTree.IsName (temporaryName n) := by decide
  exact hall n h

/-- The directory of a file is the root, or lies along names. -/
theorem parent_cases (h : Reaches t root here names) (hp : IsSourceFile p) :
    names ++ p.dropLast = [] ∧ (∀ above, parent? (join root p) = some above → above ≠ "" →
        ∃ left, Passes t linkLimit (startOf t.workingDirectory above) (FileTree.Path.pieces above)
          left here)
    ∨ names ++ p.dropLast ≠ [] ∧ ∃ above, parent? (join root p) = some above
        ∧ FileTree.Points t above here (names ++ p.dropLast) ∧ above ≠ "" := by
  obtain ⟨hne, hnames⟩ := isName_of_pair hp (.inl rfl)
  obtain ⟨dir, name, rfl, hdir, hname⟩ := hp
  rw [List.dropLast_concat]
  by_cases hnil : names ++ dir = []
  · refine .inl ⟨hnil, fun above hparent hsome => ?_⟩
    obtain ⟨rfl, rfl⟩ := List.append_eq_nil_iff.mp hnil
    obtain ⟨left, hpasses⟩ := h.nameless
    exact FileTree.parent?_top hpasses (isName_of_mem_fileNames hname).1 hparent hsome
  · have hpoints := h.points hne hnames
    rw [← List.append_assoc] at hpoints
    obtain ⟨above, -, hparent, habove, -, hsome⟩ := hpoints.parent hnil
    exact .inr ⟨hnil, above, hparent, habove, hsome⟩

theorem makeParent_apply (path : String) (t : FileTree) : makeParent path t = match parent? path with
    | none => (.ok (), t)
    | some above =>
      if above.isEmpty then (.ok (), t)
      else match FileTree.makeDirectories above t with
        | (.ok (), t') => (.ok (), t')
        | (.error e, t') => (.error ⟨above, e⟩, t') := by
  rw [makeParent]
  cases parent? path with
  | none => rfl
  | some above =>
    dsimp only
    split
    · rfl
    · rw [at_apply]
      rcases FileTree.makeDirectories above t with ⟨e | u, t'⟩ <;> rfl

theorem parentMade_of {path above : String} (hparent : parent? path = some above) (hne : above ≠ "")
    (htext : textFault? above = none) (found : Except FileTree.Fault FileTree.Spot) :
    parentMade path found = match made found with
      | .ok () => .ok ()
      | .error e => .error ⟨above, e⟩ := by
  rw [parentMade, hparent]
  dsimp only
  rw [if_neg (by simpa using hne), htext]

/-- The directory of a file is made as far as it goes, and where it was already, nothing changes. -/
theorem makeParent_grown (h : Footing files t root here names) (hp : IsSourceFile p) : ∃ t',
    makeParent (join root p) t = (parentMade (join root p) (t'.along here (names ++ p.dropLast)), t')
      ∧ ParentSettled (join root p) (t'.along here (names ++ p.dropLast))
      ∧ Grown t t' here (names ++ p.dropLast)
      ∧ (ParentSettled (join root p) (t.along here (names ++ p.dropLast)) → t' = t) := by
  have hdir : IsSourceDir p.dropLast := by
    obtain ⟨dir, name, rfl, hdir, -⟩ := hp
    rwa [List.dropLast_concat]
  have hlinks := h.dirs _ hdir
  rw [makeParent_apply]
  obtain ⟨hnil, habove⟩ | ⟨hne, above, hparent, hpoints, hsome⟩ := parent_cases h.reaches hp
  · have hfound : t.along here (names ++ p.dropLast) = .ok (.found here .directory) := by
      rw [hnil, FileTree.along_nil]
    refine ⟨t, ?_, .inr (by rw [hfound]; exact id), .refl t, fun _ => rfl⟩
    rw [hfound, parentMade]
    cases hparent : parent? (join root p) with
    | none => rfl
    | some above =>
      dsimp only
      split
      · rfl
      · rename_i hsome
        have hsome : above ≠ "" := by simpa using hsome
        cases htext : textFault? above with
        | some e => rw [FileTree.makeDirectories_textFault hsome htext]
        | none =>
          obtain ⟨left, hpasses⟩ := habove above hparent hsome
          have hthere := FileTree.isDirectory_passes.mpr ⟨htext, left, here, hpasses⟩
          rw [FileTree.makeDirectories_here hthere]
          rfl
  · have hempty : ¬above.isEmpty = true := by simpa using hsome
    rw [hparent]
    dsimp only
    rw [if_neg hempty]
    cases htext : textFault? above with
    | some e =>
      refine ⟨t, ?_, .inl ⟨above, hparent, by rw [htext]; simp⟩, .refl t, fun _ => rfl⟩
      rw [FileTree.makeDirectories_textFault hsome htext, parentMade, hparent]
      dsimp only
      rw [if_neg hempty, htext]
    | none =>
      obtain ⟨t', hmake, hfound, hgrown⟩ :=
        FileTree.makeDirectories_grown h.closed hne ⟨hpoints, htext⟩ hlinks
      refine ⟨t', ?_, .inr hfound, hgrown, fun hsettled => ?_⟩
      · rw [hmake, parentMade_of hparent hsome htext]
        cases made (t'.along here (names ++ p.dropLast)) <;> rfl
      · obtain ⟨above', hparent', hfault⟩ | hthere := hsettled
        · cases hparent.symm.trans hparent'
          exact absurd htext hfault
        · have hsame := FileTree.makeDirectories_settled hne ⟨hpoints, htext⟩ hlinks hthere
          exact (congrArg Prod.snd (hsame.symm.trans hmake)).symm

theorem Footing.grown {more : List String} (h : Footing files t root here names)
    (hgrown : Grown t t' here more) : Footing files t' root here names := by
  exact ⟨h.reaches.mono hgrown.directory (fun _ hp => hgrown.get? hp) fun _ _ hp => hgrown.get? hp,
    hgrown.ordered h.ordered, hgrown.closed h.closed, fun dir hdir => hgrown.noLinks (h.dirs dir hdir),
    fun p hp q hq target hget => h.files p hp q hq target (hgrown.get_link hget)⟩

/-- Where the directory of a file is made, it is there. -/
theorem along_of_parentMade (h : Reaches t root here names) (hp : IsSourceFile p)
    (hlinks : NoLinks t here (names ++ p.dropLast))
    (hmade : parentMade (join root p) (t.along here (names ++ p.dropLast)) = .ok ()) :
    t.along here (names ++ p.dropLast)
      = .ok (.found (here ++ (names ++ p.dropLast)) .directory) := by
  obtain ⟨hnil, -⟩ | ⟨-, above, hparent, hpoints, hsome⟩ := parent_cases h hp
  · rw [hnil, FileTree.along_nil, List.append_nil]
  · cases htext : textFault? above with
    | some e =>
      rw [parentMade, hparent] at hmade
      dsimp only at hmade
      rw [if_neg (by simpa using hsome), htext] at hmade
      cases hmade
    | none =>
      rw [parentMade_of hparent hsome htext] at hmade
      have hok : made (t.along here (names ++ p.dropLast)) = .ok () := by
        revert hmade
        cases made (t.along here (names ++ p.dropLast)) <;> simp
      obtain ⟨place, hfound⟩ := FileTree.made_ok hok
      rw [hfound, (FileTree.along_found hpoints.named hlinks hfound).1]

section Below

variable {directory : FileTree.Place} {dir : List String} {left : Nat} {name temp : String}
  (h : Passes t linkLimit (startOf t.workingDirectory root) (stem root ++ dir) left directory)

include h

/-- Writing in a directory that a root leads to. -/
theorem writeFile_below (hnames : ∀ n ∈ dir ++ [name], FileTree.Path.IsName n)
    (hname : FileTree.IsName name)
    (hlink : ∀ target, t.get? (directory ++ [name]) ≠ some (.link target)) (bytes : Array UInt8) :
    (FileTree.writeFile (join root (dir ++ [name])) bytes).at (join root (dir ++ [name])) t
      = match slotFault? t (join root (dir ++ [name])) (directory ++ [name]) .isDirectory with
        | some f => (.error f, t)
        | none =>
          (FileTree.store (directory ++ [name]) bytes).at (join root (dir ++ [name])) t := by
  rw [at_apply, FileTree.writeFile_apply, FileTree.locate_below h hnames, slotFault?]
  cases textFault? (join root (dir ++ [name])) with
  | some e => rfl
  | none =>
    dsimp only
    rw [FileTree.walk_last hname fun _ => hlink]
    rcases hget : t.get? (directory ++ [name]) with _ | (bytes | target | _)
    · rfl
    · rfl
    · exact absurd hget (hlink target)
    · rfl

/-- Moving a file within a directory that a root leads to. -/
theorem rename_below (hnames : ∀ n ∈ dir ++ [name], FileTree.Path.IsName n)
    (hnames' : ∀ n ∈ dir ++ [temp], FileTree.Path.IsName n) (hname : FileTree.IsName name)
    (hname' : FileTree.IsName temp) (htext : textFault? (join root (dir ++ [temp])) = none)
    (hplain : FileTree.dropSlashes (join root (dir ++ [name])) = join root (dir ++ [name]))
    {bytes : Array UInt8} (hget : t.get? (directory ++ [temp]) = some (.file bytes)) :
    (FileTree.rename (join root (dir ++ [temp])) (join root (dir ++ [name]))).at
        (join root (dir ++ [name])) t
      = match slotFault? t (join root (dir ++ [name])) (directory ++ [name])
          (FileTree.occupied (join root (dir ++ [name]))) with
        | some f => (.error f, t)
        | none =>
          (.ok (), (t.erase (directory ++ [temp])).insert (directory ++ [name]) (.file bytes)) := by
  have hfile : t.locate false (join root (dir ++ [temp]))
      = .ok (.found (directory ++ [temp]) (.file bytes)) := by
    rw [FileTree.locate_below h hnames', htext]
    dsimp only
    rw [FileTree.walk_last hname' (by simp), hget]
  rw [at_apply, FileTree.rename_found hfile (by simp), hplain, FileTree.locate_below h hnames,
    slotFault?]
  cases textFault? (join root (dir ++ [name])) with
  | some e => rfl
  | none =>
    dsimp only
    rw [FileTree.walk_last hname (by simp)]
    rcases t.get? (directory ++ [name]) with _ | (bytes' | target | _)
    · dsimp only
      rw [FileTree.moveTo_apply _ _ _ hplain]
      rfl
    · dsimp only
      rw [FileTree.moveTo_apply _ _ _ hplain]
      rfl
    · dsimp only
      rw [FileTree.moveTo_apply _ _ _ hplain]
      rfl
    · rfl

end Below

/-- The replacement of a file ends as it looks once its directory is made. -/
theorem replaceFile_of_parent {t₁ : FileTree} (h : Footing files t₁ root here names)
    (hp : IsSourceFile p)
    (hlink : ∀ target, t₁.get? (here ++ (names ++ temporaryOf p)) ≠ some (.link target))
    (hparent : makeParent (join root p) t
      = (parentMade (join root p) (t₁.along here (names ++ p.dropLast)), t₁)) (text : String) :
    replaceFile (join root p) text t = replacing root here names p text t₁ := by
  have hapart := temporaryOf_ne (hasFileName_of_isSourceFile hp)
  have htemporary := temporary_join_sourceFile hp root
  obtain ⟨hne, hnames⟩ := isName_of_pair hp (.inl rfl)
  obtain ⟨-, hnames'⟩ := isName_of_pair hp (.inr rfl)
  have hplain := (lastName_join hp root).1
  rw [replaceFile, replacing, FileTree.bind_apply, hparent]
  cases hmade : parentMade (join root p) (t₁.along here (names ++ p.dropLast)) with
  | error f => rfl
  | ok u =>
    have hlinks := h.dirs p.dropLast (by
      obtain ⟨dir, name, rfl, hdir, -⟩ := hp
      rwa [List.dropLast_concat])
    have hfound := along_of_parentMade h.reaches hp hlinks hmade
    obtain ⟨dir, name, rfl, hdir, hname⟩ := hp
    rw [List.dropLast_concat] at hlinks hfound
    rw [temporaryOf_concat] at hlink htemporary hnames' hapart ⊢
    obtain ⟨hname₁, hname₂⟩ := isName_fileName hname
    obtain ⟨left, hpasses⟩ := h.reaches.passes (isName_of_isSourceDir hdir) hlinks hfound
    have hplace : ∀ n, here ++ (names ++ (dir ++ [n])) = here ++ (names ++ dir) ++ [n] := by simp
    rw [hplace] at hlink ⊢
    rw [hplace]
    dsimp only
    rw [htemporary, FileTree.bind_apply, writeFile_below hpasses hnames' hname₂ hlink]
    cases hslot : slotFault? t₁ (join root (dir ++ [temporaryName name]))
        (here ++ (names ++ dir) ++ [temporaryName name]) .isDirectory with
    | some f => rfl
    | none =>
      obtain ⟨htext, hfree⟩ := FileTree.slotFault?_eq_none.mp hslot
      dsimp only
      rw [at_apply]
      obtain hstore | ⟨e, hstore⟩ | ⟨e, size, -, hstore⟩ := FileTree.store_cases
        (here ++ (names ++ dir) ++ [temporaryName name]) text.toUTF8.data t₁ <;> rw [hstore]
      have hsome : here ++ (names ++ dir) ++ [temporaryName name] ≠ [] := by simp
      have hother : here ++ (names ++ dir) ++ [name] ≠ here ++ (names ++ dir) ++ [temporaryName name] :=
        fun he => hapart (congrArg (dir ++ ·) (List.append_cancel_left he).symm)
      have hget : ∀ q, q ≠ here ++ (names ++ dir) ++ [temporaryName name] →
          (t₁.afterWrite.insert (here ++ (names ++ dir) ++ [temporaryName name])
            (.file text.toUTF8.data)).get? q = t₁.get? q := fun q hne => by
        rw [FileTree.get?_insert hsome, if_neg hne, FileTree.get?_afterWrite]
      have hpasses₂ : Passes (t₁.afterWrite.insert (here ++ (names ++ dir) ++ [temporaryName name])
          (.file text.toUTF8.data)) linkLimit (startOf t₁.workingDirectory root)
          (stem root ++ dir) left (here ++ (names ++ dir)) := by
        refine hpasses.mono (fun q hq => (hget q ?_).trans hq) fun q target hq => (hget q ?_).trans hq
        · rintro rfl
          exact hfree hq
        · rintro rfl
          exact hlink target hq
      dsimp only
      rw [rename_below hpasses₂ hnames hnames' hname₁ hname₂ htext hplain
        ((FileTree.get?_insert hsome _).trans (if_pos rfl)), FileTree.slotFault?_congr (hget _ hother)]
      cases slotFault? t₁ (join root (dir ++ [name])) (here ++ (names ++ dir) ++ [name])
        (FileTree.occupied (join root (dir ++ [name]))) <;> rfl

/-- Below an output root no file is replaced behind what is in the way. -/
theorem replaceFile_blocked_below {dir : List String} {name : String}
    (h : t.Blocked (startOf t.workingDirectory root) (stem root ++ dir)) (hdir : IsSourceDir dir)
    (hname : name ∈ fileNames) (text : String) :
    ∃ f, replaceFile (join root (dir ++ [name])) text t = (.error f, t) := by
  have hfile : IsSourceFile (dir ++ [name]) := ⟨dir, name, rfl, hdir, hname⟩
  obtain ⟨hne, hnames⟩ := isName_of_pair hfile (.inl rfl)
  have hpieces := FileTree.Path.pieces_below root hne hnames
  rw [← List.append_assoc] at hpieces
  rw [← FileTree.Path.startOf_join root hne hnames] at h
  exact FileTree.replaceFile_blocked h hpieces (isName_of_mem_fileNames hname).1.not_idle text

end Replace

end Run

end RestForge
