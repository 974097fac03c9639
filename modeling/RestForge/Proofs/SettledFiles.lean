import RestForge.Proofs.Replacing

/-!
# Files that were replaced

* `Wrote`: what the replacement of some files may change.
* `replacing_wrote`: so it is; `Written`: a file holds its text, and stays so when others are written.
* `replaceFile_settled`, `writeFiles_settled`: a second replacement changes nothing and ends like the
  first, whatever was done to other files in between, if nothing befalls any write.
-/

set_option autoImplicit false

namespace RestForge.Run

open FileTree (ClosedBelow Grown NoLinks ParentSettled WriteFailure parentMade replaceFile slotFault?
  textFault?)
open FileTree.Path (join temporaryName)

/-! ## What writing changes -/

/-- Directories were added where a run makes them, and some files and their temporary files written or
removed. -/
structure Wrote (here : FileTree.Place) (names : List String) (written : List String → Prop)
    (t t' : FileTree) : Prop where
  directory : t'.workingDirectory = t.workingDirectory
  places : ∀ q, t'.get? q = t.get? q
    ∨ (t.get? q = none ∧ t'.get? q = some .directory
      ∧ ∃ dir r, IsSourceDir dir ∧ r <+: names ++ dir ∧ q = here ++ r)
    ∨ ((∃ p r, written p ∧ IsSourceFile p ∧ Pair p r ∧ q = here ++ (names ++ r))
      ∧ t.get? q ≠ some .directory ∧ (∀ target, t.get? q ≠ some (.link target))
      ∧ (t'.get? q = none ∨ ∃ bytes, t'.get? q = some (.file bytes)))
  ordered : t.Ordered → t'.Ordered
  closed : ClosedBelow t here → ClosedBelow t' here
  calm : t.Calm → t'.Calm

/-- A name with a dot stands for no directory that a run makes. -/
theorem not_prefix_of_dotted {front dir names : List String} {last : String}
    (hdot : '.' ∈ last.toList) (hdir : IsSourceDir dir) :
    ¬names ++ (front ++ [last]) <+: names ++ dir := by
  intro hpart
  have hmem : last ∈ dir := ((List.prefix_append_right_inj names).mp hpart).subset (by simp)
  exact undotted_of_isSourceDir hdir last hmem hdot

theorem not_prefix_of_pair {p r dir names : List String} (hp : IsSourceFile p) (hr : Pair p r)
    (hdir : IsSourceDir dir) : ¬names ++ r <+: names ++ dir := by
  obtain ⟨front, last, rfl, hdot⟩ := isFilePlace_of_pair (hasFileName_of_isSourceFile hp) hr
  exact not_prefix_of_dotted hdot hdir

theorem name_of_pair {p r : List String} (hp : IsSourceFile p) (hr : Pair p r) :
    ∃ front, ∃ n ∈ fileNames, r = front ++ [n] ∨ r = front ++ [temporaryName n] := by
  obtain ⟨dir, name, rfl, -, hname⟩ := hp
  obtain rfl | rfl := hr
  · exact ⟨dir, name, hname, .inl rfl⟩
  · exact ⟨dir, name, hname, .inr (temporaryOf_concat dir name)⟩

section Wrote

variable {files written written' : List String → Prop} {t t' t'' : FileTree} {root : String}
  {here : FileTree.Place} {names p q : List String}

theorem Wrote.refl (t : FileTree) : Wrote here names written t t :=
  ⟨rfl, fun _ => .inl rfl, id, id, id⟩

theorem Wrote.mono (h : Wrote here names written t t') (hle : ∀ p, written p → written' p) :
    Wrote here names written' t t' := by
  refine ⟨h.directory, fun q => ?_, h.ordered, h.closed, h.calm⟩
  obtain hsame | hnew | ⟨⟨p, r, hp, hfile⟩, hrest⟩ := h.places q
  · exact .inl hsame
  · exact .inr (.inl hnew)
  · exact .inr (.inr ⟨⟨p, r, hle p hp, hfile⟩, hrest⟩)

theorem Wrote.trans (h : Wrote here names written t t') (h' : Wrote here names written t' t'') :
    Wrote here names written t t'' := by
  refine ⟨h'.directory.trans h.directory, fun q => ?_, h'.ordered ∘ h.ordered, h'.closed ∘ h.closed,
    h'.calm ∘ h.calm⟩
  obtain hsame | ⟨hfree, hnew, hdir⟩ | ⟨hfile, hplain, hlink, hafter⟩ := h.places q <;>
    obtain hsame' | ⟨hfree', hnew', hdir'⟩ | ⟨hfile', hplain', hlink', hafter'⟩ := h'.places q
  · exact .inl (hsame'.trans hsame)
  · exact .inr (.inl ⟨hsame ▸ hfree', hnew', hdir'⟩)
  · exact .inr (.inr ⟨hfile', hsame ▸ hplain', fun target => hsame ▸ hlink' target, hafter'⟩)
  · exact .inr (.inl ⟨hfree, hsame'.trans hnew, hdir⟩)
  · exact .inr (.inl ⟨hfree, hnew', hdir'⟩)
  · exact absurd hnew hplain'
  · exact .inr (.inr ⟨hfile, hplain, hlink, hsame' ▸ hafter⟩)
  · obtain ⟨dir, r, hdir, hpart, rfl⟩ := hdir'
    obtain ⟨p, r', -, hp, hr', he⟩ := hfile
    rw [List.append_cancel_left he] at hpart
    exact absurd hpart (not_prefix_of_pair hp hr' hdir)
  · exact .inr (.inr ⟨hfile, hplain, hlink, hafter'⟩)

theorem Wrote.of_grown {dir : List String} (h : Grown t t' here (names ++ dir))
    (hdir : IsSourceDir dir) : Wrote here names written t t' := by
  refine ⟨h.directory, fun q => ?_, h.ordered, h.closed, h.calm⟩
  obtain hsame | ⟨hfree, hnew, r, -, hpart, he⟩ := h.places q
  · exact .inl hsame
  · exact .inr (.inl ⟨hfree, hnew, dir, r, hdir, hpart, he⟩)

section Places

variable (h : Wrote here names written t t') {place : FileTree.Place}

include h

theorem Wrote.get_directory (hget : t.get? place = some .directory) :
    t'.get? place = some .directory := by
  obtain hsame | ⟨-, hnew, -⟩ | ⟨-, hplain, -⟩ := h.places place
  · rw [hsame, hget]
  · exact hnew
  · exact absurd hget hplain

theorem Wrote.get_link_iff {target : String} :
    t'.get? place = some (.link target) ↔ t.get? place = some (.link target) := by
  obtain hsame | ⟨hfree, hnew, -⟩ | ⟨-, -, hlink, hafter⟩ := h.places place
  · rw [hsame]
  · rw [hfree, hnew]
    simp
  · refine ⟨fun hget => ?_, fun hget => absurd hget (hlink target)⟩
    obtain hnone | ⟨bytes, hfile⟩ := hafter
    · cases hget.symm.trans hnone
    · cases hget.symm.trans hfile

/-- What a run does not write stays, but that directories are added where nothing was. -/
theorem Wrote.get_other (hother : ∀ p r, written p → IsSourceFile p → Pair p r →
    place ≠ here ++ (names ++ r)) : t'.get? place = t.get? place
      ∨ t.get? place = none ∧ t'.get? place = some .directory
        ∧ ∃ dir r, IsSourceDir dir ∧ r <+: names ++ dir ∧ place = here ++ r := by
  obtain hsame | hnew | ⟨⟨p, r, hp, hfile, hr, he⟩, -⟩ := h.places place
  · exact .inl hsame
  · exact .inr hnew
  · exact absurd he (hother p r hp hfile hr)

/-- A name with a dot that is none of a file or of its temporary file stands for what it did. -/
theorem Wrote.get_foreign {dir : List String} {name : String} (hdot : '.' ∈ name.toList)
    (hforeign : ∀ n ∈ fileNames, n ≠ name ∧ temporaryName n ≠ name) :
    t'.get? (here ++ (names ++ (dir ++ [name]))) = t.get? (here ++ (names ++ (dir ++ [name]))) := by
  have hother : ∀ p r, written p → IsSourceFile p → Pair p r →
      here ++ (names ++ (dir ++ [name])) ≠ here ++ (names ++ r) := by
    rintro p r - hp hr he
    have hlast := List.append_cancel_left (List.append_cancel_left he)
    obtain ⟨front, n, hn, rfl | rfl⟩ := name_of_pair hp hr
    · exact (hforeign n hn).1 (List.head_eq_of_cons_eq (List.append_inj' hlast rfl).2).symm
    · exact (hforeign n hn).2 (List.head_eq_of_cons_eq (List.append_inj' hlast rfl).2).symm
  obtain hsame | ⟨-, -, dir', r, hdir, hpart, he⟩ := h.get_other hother
  · exact hsame
  · rw [← List.append_cancel_left he] at hpart
    exact absurd hpart (not_prefix_of_dotted hdot hdir)

/-- A file that is not written stays, and so does its temporary file. -/
theorem Wrote.get_pair (hp : IsSourceFile p) (hq : Pair p q) (hnot : ¬written p) :
    t'.get? (here ++ (names ++ q)) = t.get? (here ++ (names ++ q)) := by
  obtain hsame | ⟨-, -, dir, r, hdir, hpart, he⟩ | ⟨⟨p', r, hwritten, hp', hr, he⟩, -⟩ :=
    h.places (here ++ (names ++ q))
  · exact hsame
  · rw [← List.append_cancel_left he] at hpart
    exact absurd hpart (not_prefix_of_pair hp hq hdir)
  · obtain rfl := List.append_cancel_left (List.append_cancel_left he)
    have hne : p' ≠ p := by
      rintro rfl
      exact hnot hwritten
    exact absurd hq (pair_apart (hasFileName_of_isSourceFile hp') (hasFileName_of_isSourceFile hp)
      hne hr)

/-- Files in the way of directories stay. -/
theorem Wrote.get_way {dir r : List String} (hdir : IsSourceDir dir) (hr : r <+: names ++ dir)
    {bytes : Array UInt8} (hget : t.get? (here ++ r) = some (.file bytes)) :
    t'.get? (here ++ r) = some (.file bytes) := by
  obtain hsame | ⟨hfree, -⟩ | ⟨⟨p', r', -, hp', hr', he⟩, -⟩ := h.places (here ++ r)
  · rw [hsame, hget]
  · cases hget.symm.trans hfree
  · obtain rfl := List.append_cancel_left he
    exact absurd hr (not_prefix_of_pair hp' hr' hdir)

theorem Wrote.footing (hfooting : Footing files t root here names) :
    Footing files t' root here names :=
  ⟨hfooting.reaches.mono h.directory (fun _ hp => h.get_directory hp) fun _ _ hp =>
      h.get_link_iff.mpr hp,
    h.ordered hfooting.ordered, h.closed hfooting.closed,
    fun dir hdir r hr hpart target hget => hfooting.dirs dir hdir r hr hpart target
      (h.get_link_iff.mp hget),
    fun p hp q hq target hget => hfooting.files p hp q hq target (h.get_link_iff.mp hget)⟩

end Places

/-! ## Replacing a file -/

theorem closedBelow_of (h : ClosedBelow t here)
    (hdirs : ∀ q, t.get? q = some .directory → t'.get? q = some .directory)
    (hnew : ∀ q name, q ≠ [] → t'.get? (here ++ q ++ [name]) ≠ none →
      t.get? (here ++ q ++ [name]) ≠ none ∨ t.get? (here ++ q) = some .directory) :
    ClosedBelow t' here := fun q name hq hsome =>
  hdirs _ ((hnew q name hq hsome).elim (h q name hq) id)

/-- A file written or removed in a directory, not in the place of a directory or a link. -/
theorem wrote_of {t' : FileTree} (hp : IsSourceFile p)
    (hdirectory : t'.workingDirectory = t.workingDirectory)
    (hplaces : ∀ q, t'.get? q = t.get? q ∨ ((∃ r, Pair p r ∧ q = here ++ (names ++ r))
      ∧ t.get? q ≠ some .directory ∧ (∀ target, t.get? q ≠ some (.link target))
      ∧ (t'.get? q = none ∨ ∃ bytes, t'.get? q = some (.file bytes))))
    (hdir : names ++ p.dropLast ≠ [] → t.get? (here ++ (names ++ p.dropLast)) = some .directory)
    (hordered : t.Ordered → t'.Ordered) (hcalm : t.Calm → t'.Calm) :
    Wrote here names (· = p) t t' := by
  refine ⟨hdirectory, fun q => ?_, hordered, fun hclosed => closedBelow_of hclosed (fun q hq => ?_)
    (fun q name hq hsome => ?_), hcalm⟩
  · obtain hsame | ⟨⟨r, hr, he⟩, hrest⟩ := hplaces q
    · exact .inl hsame
    · exact .inr (.inr ⟨⟨p, r, rfl, hp, hr, he⟩, hrest⟩)
  · obtain hsame | ⟨-, hplain, -⟩ := hplaces q
    · rw [hsame, hq]
    · exact absurd hq hplain
  · obtain hsame | ⟨⟨r, hr, he⟩, -⟩ := hplaces (here ++ q ++ [name])
    · exact .inl (hsame ▸ hsome)
    · refine .inr ?_
      obtain ⟨last, rfl⟩ : ∃ last, r = p.dropLast ++ [last] := by
        obtain ⟨dir, name, rfl, -, -⟩ := hp
        obtain rfl | rfl := hr
        · exact ⟨name, by rw [List.dropLast_concat]⟩
        · exact ⟨temporaryName name, by rw [List.dropLast_concat, temporaryOf_concat]⟩
      have hplace : here ++ q ++ [name] = here ++ (names ++ p.dropLast) ++ [last] := by
        rw [he]
        simp
      obtain ⟨hq', -⟩ := List.append_inj' hplace rfl
      rw [hq']
      exact hdir fun hnil => hq (by simpa [hnil] using hq')

end Wrote

section Replace

variable {files : List String → Prop} {t : FileTree} {root : String} {here : FileTree.Place}
  {names p : List String}

theorem isSourceDir_dropLast (hp : IsSourceFile p) : IsSourceDir p.dropLast := by
  obtain ⟨dir, name, rfl, hdir, -⟩ := hp
  rwa [List.dropLast_concat]

theorem Footing.named (h : Footing files t root here names) {dir : List String}
    (hdir : IsSourceDir dir) : FileTree.Named (names ++ dir) :=
  FileTree.named_append.mpr ⟨h.reaches.named, fun n hn =>
    ⟨(isName_of_isSourceDir hdir n hn).not_idle, (isName_of_isSourceDir hdir n hn).notUp⟩⟩

theorem Footing.directory (h : Footing files t root here names) (hp : IsSourceFile p)
    (hmade : parentMade (join root p) (t.along here (names ++ p.dropLast)) = .ok ())
    (hne : names ++ p.dropLast ≠ []) :
    t.get? (here ++ (names ++ p.dropLast)) = some .directory := by
  have hdir := isSourceDir_dropLast hp
  have hlinks := h.dirs _ hdir
  have hfound := along_of_parentMade h.reaches hp hlinks hmade
  exact (FileTree.along_found (h.named hdir) hlinks hfound).2.1 hne

theorem ordered_putFile (h : t.Ordered) {temporary place : FileTree.Place} (htemporary : temporary ≠ [])
    (hplace : place ≠ []) (bytes : Array UInt8) : (putFile t temporary place bytes).Ordered :=
  ((h.insert htemporary _).erase _).insert hplace _

theorem place_ne_nil (here : FileTree.Place) (names : List String) (hp : IsSourceFile p)
    {q : List String} (hq : Pair p q) : here ++ (names ++ q) ≠ [] := by
  have hne := (isName_of_pair hp hq).1
  simp [hne]

theorem place_ne (hp : IsSourceFile p) :
    here ++ (names ++ p) ≠ here ++ (names ++ temporaryOf p) := fun he =>
  temporaryOf_ne (hasFileName_of_isSourceFile hp)
    (List.append_cancel_left (List.append_cancel_left he)).symm

theorem calm_afterWrite (h : t.Calm) : t.afterWrite.Calm := by rwa [h.afterWrite]

theorem ordered_afterWrite (h : t.Ordered) : t.afterWrite.Ordered := ⟨h.sorted, h.rooted⟩

/-- Whatever becomes of the write, no other place is touched. -/
theorem store_wrote (h : Footing files t root here names) (hp : IsSourceFile p) (hfile : files p)
    (hdir : names ++ p.dropLast ≠ [] → t.get? (here ++ (names ++ p.dropLast)) = some .directory)
    (hplain : t.get? (here ++ (names ++ temporaryOf p)) ≠ some .directory) (bytes : Array UInt8) :
    Wrote here names (· = p) t (FileTree.store (here ++ (names ++ temporaryOf p)) bytes t).2 := by
  have htemporary := place_ne_nil here names hp (.inr rfl)
  have hinsert : ∀ bytes, Wrote here names (· = p) t
      (t.afterWrite.insert (here ++ (names ++ temporaryOf p)) (.file bytes)) := by
    intro bytes
    refine wrote_of hp rfl (fun q => ?_) hdir (fun h => (ordered_afterWrite h).insert htemporary _)
      calm_afterWrite
    rw [FileTree.get?_insert htemporary, FileTree.get?_afterWrite]
    split
    · rename_i he
      exact .inr ⟨⟨_, .inr rfl, he⟩, he ▸ hplain,
        fun target => he ▸ h.files p hfile _ (.inr rfl) target, .inr ⟨_, rfl⟩⟩
    · exact .inl rfl
  obtain hstore | ⟨e, hstore⟩ | ⟨e, size, -, hstore⟩ :=
    FileTree.store_cases (here ++ (names ++ temporaryOf p)) bytes t <;> rw [hstore]
  · exact hinsert bytes
  · exact wrote_of hp rfl (fun q => .inl (FileTree.get?_afterWrite t q)) hdir ordered_afterWrite
      calm_afterWrite
  · exact hinsert _

theorem replacing_wrote (h : Footing files t root here names) (hp : IsSourceFile p) (hfile : files p)
    (text : String) : Wrote here names (· = p) t (replacing root here names p text t).2 := by
  have htemporary := place_ne_nil here names hp (.inr rfl)
  have htarget := place_ne_nil here names hp (.inl rfl)
  rw [replacing]
  cases hmade : parentMade (join root p) (t.along here (names ++ p.dropLast)) with
  | error f => exact .refl t
  | ok u =>
    have hdir := h.directory hp hmade
    dsimp only
    cases hslot : slotFault? t (join root (temporaryOf p)) (here ++ (names ++ temporaryOf p))
      .isDirectory with
    | some f => exact .refl t
    | none =>
      have hplain := (FileTree.slotFault?_eq_none.mp hslot).2
      have hstored := store_wrote h hp hfile hdir hplain text.toUTF8.data
      have hfiles := h.files p hfile
      dsimp only
      rcases hstore : FileTree.store (here ++ (names ++ temporaryOf p)) text.toUTF8.data t
        with ⟨e | u, t'⟩ <;> rw [hstore] at hstored
      · exact hstored
      dsimp only
      cases hslot' : slotFault? t (join root p) (here ++ (names ++ p))
        (FileTree.occupied (join root p)) with
      | some f => exact hstored
      | none =>
        have hplain' := (FileTree.slotFault?_eq_none.mp hslot').2
        refine wrote_of hp rfl (fun q => ?_) hdir
          (fun h => ordered_putFile (ordered_afterWrite h) htemporary htarget _) calm_afterWrite
        dsimp only
        rw [get?_putFile htemporary htarget, FileTree.get?_afterWrite]
        split
        · rename_i he
          exact .inr ⟨⟨_, .inl rfl, he⟩, he ▸ hplain', fun target => he ▸ hfiles _ (.inl rfl) target,
            .inr ⟨_, rfl⟩⟩
        · split
          · rename_i he
            exact .inr ⟨⟨_, .inr rfl, he⟩, he ▸ hplain, fun target => he ▸ hfiles _ (.inr rfl) target,
              .inl rfl⟩
          · exact .inl rfl

/-- A file that was replaced had its directory made and nothing in the way of it. -/
theorem replacing_ok {text : String} (hok : (replacing root here names p text t).1 = .ok ()) :
    parentMade (join root p) (t.along here (names ++ p.dropLast)) = .ok ()
      ∧ slotFault? t (join root (temporaryOf p)) (here ++ (names ++ temporaryOf p)) .isDirectory = none
      ∧ slotFault? t (join root p) (here ++ (names ++ p)) (FileTree.occupied (join root p)) = none
      ∧ (replacing root here names p text t).2 = putFile t.afterWrite
        (here ++ (names ++ temporaryOf p)) (here ++ (names ++ p)) text.toUTF8.data := by
  revert hok
  rw [replacing]
  split
  · rintro ⟨⟩
  rename_i hmade
  split
  · rintro ⟨⟩
  rename_i hslot
  split
  · rintro ⟨⟩
  split
  · rintro ⟨⟩
  rename_i hslot'
  exact fun _ => ⟨hmade, hslot, hslot', rfl⟩

/-- A file is replaced where its directory is made and nothing is in the way of it, if nothing befalls
the write. -/
theorem replacing_succeeds (hcalm : t.Calm) (text : String)
    (hmade : parentMade (join root p) (t.along here (names ++ p.dropLast)) = .ok ())
    (hslot : slotFault? t (join root (temporaryOf p)) (here ++ (names ++ temporaryOf p)) .isDirectory
      = none)
    (hslot' : slotFault? t (join root p) (here ++ (names ++ p)) (FileTree.occupied (join root p))
      = none) : (replacing root here names p text t).1 = .ok () := by
  rw [replacing, hmade]
  dsimp only
  rw [hslot, FileTree.store_calm _ _ hcalm]
  dsimp only
  rw [hslot']

/-- A file holds its text in a directory that is there, and its temporary file is gone. -/
structure Written (here : FileTree.Place) (names p : List String) (text : String) (t : FileTree) :
    Prop where
  target : t.get? (here ++ (names ++ p)) = some (.file text.toUTF8.data)
  temporary : t.get? (here ++ (names ++ temporaryOf p)) = none
  directory : t.along here (names ++ p.dropLast)
    = .ok (.found (here ++ (names ++ p.dropLast)) .directory)

theorem Wrote.along_found {written : List String → Prop} {t' : FileTree}
    (h : Wrote here names written t t') (hfooting : Footing files t root here names)
    {dir : List String} (hdir : IsSourceDir dir) {place : FileTree.Place}
    (hfound : t.along here (names ++ dir) = .ok (.found place .directory)) :
    t'.along here (names ++ dir) = .ok (.found place .directory) := by
  have hsame : t'.along here (names ++ dir) = t.along here (names ++ dir) :=
    FileTree.along_congr (hfooting.named hdir) (hfooting.dirs dir hdir)
      (fun q hq => h.get_directory hq) (fun q _ hpart bytes hq => h.get_way hdir hpart hq)
      (by rw [hfound]; exact id)
  rw [hsame, hfound]

/-- A file that was written stays so when others are. -/
theorem Written.later {written : List String → Prop} {t' : FileTree} {text : String}
    (h : Written here names p text t) (hwrote : Wrote here names written t t')
    (hfooting : Footing files t root here names) (hp : IsSourceFile p) (hnot : ¬written p) :
    Written here names p text t' :=
  ⟨(hwrote.get_pair hp (.inl rfl) hnot).trans h.target,
    (hwrote.get_pair hp (.inr rfl) hnot).trans h.temporary,
    hwrote.along_found hfooting (isSourceDir_dropLast hp) h.directory⟩

theorem written_of_replacing (h : Footing files t root here names) (hp : IsSourceFile p)
    (hfile : files p) {text : String} (hok : (replacing root here names p text t).1 = .ok ()) :
    Written here names p text (replacing root here names p text t).2 := by
  have htemporary := place_ne_nil here names hp (.inr rfl)
  have htarget := place_ne_nil here names hp (.inl rfl)
  have hdir := isSourceDir_dropLast hp
  obtain ⟨hmade, -, -, htree⟩ := replacing_ok hok
  refine ⟨?_, ?_, (replacing_wrote h hp hfile text).along_found h hdir
    (along_of_parentMade h.reaches hp (h.dirs _ hdir) hmade)⟩
  · rw [htree, get?_putFile htemporary htarget, if_pos rfl]
  · rw [htree, get?_putFile htemporary htarget, if_neg (Ne.symm (place_ne hp)), if_pos rfl]

/-! ## Replacing a file again -/

theorem parentMade_settled {path : String} {found found' : Except FileTree.Fault FileTree.Spot}
    (h : ParentSettled path found) (hsame : ¬FileTree.Missing found → found' = found) :
    parentMade path found' = parentMade path found ∧ ParentSettled path found' := by
  obtain ⟨above, hparent, hfault⟩ | hfound := h
  · refine ⟨?_, .inl ⟨above, hparent, hfault⟩⟩
    obtain ⟨e, he⟩ := Option.ne_none_iff_exists'.mp hfault
    rw [parentMade, parentMade, hparent]
    dsimp only
    rw [he]
  · rw [hsame hfound]
    exact ⟨rfl, .inr hfound⟩

theorem insert_there {place : FileTree.Place} {entry : FileTree.Entry} (h : t.Ordered)
    (hne : place ≠ []) (hget : t.get? place = some entry) : t.insert place entry = t := by
  refine h.ext (h.insert hne _) rfl rfl fun q => ?_
  rw [FileTree.get?_insert hne]
  split
  · rename_i he
    rw [he, hget]
  · rfl

theorem putFile_there {temporary place : FileTree.Place} {bytes : Array UInt8} (h : t.Ordered)
    (htemporary : temporary ≠ []) (hplace : place ≠ []) (hgone : t.get? temporary = none)
    (hthere : t.get? place = some (.file bytes)) : putFile t temporary place bytes = t := by
  refine h.ext (ordered_putFile h htemporary hplace bytes) rfl rfl fun q => ?_
  rw [get?_putFile htemporary hplace]
  split
  · rename_i he
    rw [he, hthere]
  · split
    · rename_i he
      rw [he, hgone]
    · rfl

theorem replacing_calm (h : t.Calm) (text : String) : replacing root here names p text t
    = match parentMade (join root p) (t.along here (names ++ p.dropLast)) with
      | .error f => (.error f, t)
      | .ok () =>
        match slotFault? t (join root (temporaryOf p)) (here ++ (names ++ temporaryOf p))
            .isDirectory with
        | some f => (.error f, t)
        | none =>
          match slotFault? t (join root p) (here ++ (names ++ p))
              (FileTree.occupied (join root p)) with
          | some f =>
            (.error f, t.insert (here ++ (names ++ temporaryOf p)) (.file text.toUTF8.data))
          | none =>
            (.ok (), putFile t (here ++ (names ++ temporaryOf p)) (here ++ (names ++ p))
              text.toUTF8.data) := by
  cases hmade : parentMade (join root p) (t.along here (names ++ p.dropLast)) with
  | error f => simp only [replacing, hmade]
  | ok _ =>
    cases hwritten : slotFault? t (join root (temporaryOf p)) (here ++ (names ++ temporaryOf p))
        .isDirectory with
    | some f => simp only [replacing, hmade, hwritten]
    | none =>
      cases hmoved : slotFault? t (join root p) (here ++ (names ++ p))
          (FileTree.occupied (join root p)) <;>
        simp only [replacing, hmade, hwritten, hmoved, FileTree.store_calm _ _ h, h.afterWrite]

/-- Whatever was done to other files, the file is replaced as it was, and nothing changes. -/
theorem replacing_settled (h : Footing files t root here names) (hp : IsSourceFile p)
    (hfile : files p) (hcalm : t.Calm) {text : String} {t'' : FileTree}
    (hlater : Wrote here names (· ≠ p) (replacing root here names p text t).2 t'')
    (hmade : parentMade (join root p) (t''.along here (names ++ p.dropLast))
      = parentMade (join root p) (t.along here (names ++ p.dropLast))) :
    replacing root here names p text t'' = ((replacing root here names p text t).1, t'') := by
  have htemporary := place_ne_nil here names hp (.inr rfl)
  have htarget := place_ne_nil here names hp (.inl rfl)
  have hwrote := replacing_wrote h hp hfile text
  have hordered := hlater.ordered (hwrote.ordered h.ordered)
  have hcalm'' := hlater.calm (hwrote.calm hcalm)
  have hsame : ∀ q, Pair p q → t''.get? (here ++ (names ++ q))
      = (replacing root here names p text t).2.get? (here ++ (names ++ q)) := fun q hq =>
    hlater.get_pair hp hq (by simp)
  have hfirst := hsame _ (.inr rfl)
  have hsecond := hsame _ (.inl rfl)
  rw [replacing_calm hcalm'', hmade]
  rw [replacing_calm hcalm] at hfirst hsecond ⊢
  cases hparent : parentMade (join root p) (t.along here (names ++ p.dropLast)) with
  | error f => rfl
  | ok u =>
    rw [hparent] at hfirst hsecond
    dsimp only at hfirst hsecond ⊢
    cases hslot : slotFault? t (join root (temporaryOf p)) (here ++ (names ++ temporaryOf p))
      .isDirectory with
    | some f =>
      rw [hslot] at hfirst
      rw [FileTree.slotFault?_congr hfirst, hslot]
    | none =>
      rw [hslot] at hfirst hsecond
      dsimp only at hfirst hsecond ⊢
      have htext := (FileTree.slotFault?_eq_none.mp hslot).1
      cases hslot' : slotFault? t (join root p) (here ++ (names ++ p))
        (FileTree.occupied (join root p)) with
      | some f =>
        rw [hslot'] at hfirst hsecond
        dsimp only at hfirst hsecond
        rw [FileTree.get?_insert htemporary, if_pos rfl] at hfirst
        rw [FileTree.get?_insert htemporary, if_neg (place_ne hp)] at hsecond
        rw [FileTree.slotFault?_eq_none.mpr ⟨htext, by rw [hfirst]; simp⟩]
        dsimp only
        rw [FileTree.slotFault?_congr hsecond, hslot']
        dsimp only
        rw [insert_there hordered htemporary hfirst]
      | none =>
        have htext' := (FileTree.slotFault?_eq_none.mp hslot').1
        rw [hslot'] at hfirst hsecond
        dsimp only at hfirst hsecond
        rw [get?_putFile htemporary htarget, if_neg (Ne.symm (place_ne hp)), if_pos rfl] at hfirst
        rw [get?_putFile htemporary htarget, if_pos rfl] at hsecond
        rw [FileTree.slotFault?_eq_none.mpr ⟨htext, by rw [hfirst]; simp⟩]
        dsimp only
        rw [FileTree.slotFault?_eq_none.mpr ⟨htext', by rw [hsecond]; simp⟩]
        dsimp only
        rw [putFile_there hordered htemporary htarget hfirst hsecond]

/-- A file is replaced, or it is not, and so it is again after other files were written, if nothing
befalls any write. -/
theorem replaceFile_settled (h : Footing files t root here names) (hp : IsSourceFile p)
    (hfile : files p) (text : String) : ∃ r t', replaceFile (join root p) text t = (r, t')
      ∧ Wrote here names (· = p) t t'
      ∧ (r = .ok () → Written here names p text t')
      ∧ (t.Calm → ∀ t'', Wrote here names (· ≠ p) t' t'' →
        replaceFile (join root p) text t'' = (r, t'')) := by
  have hdir := isSourceDir_dropLast hp
  obtain ⟨t₁, hmake, hsettled, hgrown, -⟩ := makeParent_grown h hp
  have h₁ := h.grown hgrown
  have hwrote := replacing_wrote h₁ hp hfile text
  refine ⟨_, _, replaceFile_of_parent h₁ hp (h₁.files p hfile _ (.inr rfl)) hmake text,
    (Wrote.of_grown hgrown hdir).trans hwrote, written_of_replacing h₁ hp hfile,
    fun hcalm t'' hlater => ?_⟩
  have h₂ : Footing files t'' root here names := hlater.footing (hwrote.footing h₁)
  have halong : ¬FileTree.Missing (t₁.along here (names ++ p.dropLast)) →
      t''.along here (names ++ p.dropLast) = t₁.along here (names ++ p.dropLast) :=
    FileTree.along_congr (h₁.named hdir) (h₁.dirs _ hdir)
      (fun q hq => hlater.get_directory (hwrote.get_directory hq))
      fun q _ hpart bytes hq => hlater.get_way hdir hpart (hwrote.get_way hdir hpart hq)
  obtain ⟨hmade, hsettled'⟩ := parentMade_settled hsettled halong
  obtain ⟨t₂, hmake', -, -, hsame⟩ := makeParent_grown h₂ hp
  obtain rfl := hsame hsettled'
  rw [replaceFile_of_parent h₂ hp (h₂.files p hfile _ (.inr rfl)) hmake' text]
  exact replacing_settled h₁ hp hfile (hgrown.calm hcalm) hlater hmade

end Replace

/-! ## Replacing files one after another -/

/-- Files are replaced up to the first that is not, and so they are again after other files were
written, if nothing befalls any write. -/
theorem writeFiles_settled {files : List String → Prop} {t : FileTree} {root : String}
    {here : FileTree.Place} {names : List String} (h : Footing files t root here names)
    {batch : List (List String × String)} (hbatch : ∀ x ∈ batch, IsSourceFile x.1 ∧ files x.1)
    (hnodup : (batch.map Prod.fst).Nodup) : ∃ r t', writeFiles root batch t = (r, t')
      ∧ Wrote here names (· ∈ batch.map Prod.fst) t t'
      ∧ (r = .ok () → ∀ x ∈ batch, Written here names x.1 x.2 t')
      ∧ (t.Calm → ∀ t'', Wrote here names (· ∉ batch.map Prod.fst) t' t'' →
        writeFiles root batch t'' = (r, t'')) := by
  induction batch generalizing t with
  | nil => exact ⟨.ok (), t, rfl, .refl t, by simp, fun _ _ _ => rfl⟩
  | cons x batch ih =>
    obtain ⟨hp, hfile⟩ := hbatch x List.mem_cons_self
    rw [List.map_cons, List.nodup_cons] at hnodup
    obtain ⟨r₁, t₁, hrun, hwrote, hholds, hagain⟩ := replaceFile_settled h hp hfile x.2
    have hfirst : Wrote here names (· ∈ (x :: batch).map Prod.fst) t t₁ :=
      hwrote.mono fun p hp => by simp [hp]
    cases r₁ with
    | error f =>
      refine ⟨.error f, t₁, ?_, hfirst, fun hok => (by cases hok), fun hcalm t'' hlater => ?_⟩
      · rw [writeFiles, FileTree.bind_apply, hrun]
      · rw [writeFiles, FileTree.bind_apply,
          hagain hcalm t'' (hlater.mono fun p hp he => hp (by simp [he]))]
    | ok u =>
      obtain ⟨r₂, t₂, hrun₂, hwrote₂, hholds₂, hagain₂⟩ := ih (hwrote.footing h)
        (fun y hy => hbatch y (List.mem_cons_of_mem _ hy)) hnodup.2
      have hrest : Wrote here names (· ∈ (x :: batch).map Prod.fst) t₁ t₂ :=
        hwrote₂.mono fun p hp => List.mem_cons_of_mem _ hp
      refine ⟨r₂, t₂, ?_, hfirst.trans hrest, fun hok y hy => ?_, fun hcalm t'' hlater => ?_⟩
      · rw [writeFiles, FileTree.bind_apply, hrun]
        exact hrun₂
      · obtain rfl | hy := List.mem_cons.mp hy
        · exact (hholds rfl).later hwrote₂ (hwrote.footing h) hp hnodup.1
        · exact hholds₂ hok y hy
      · have hothers : Wrote here names (· ≠ x.1) t₁ t₂ := hwrote₂.mono fun p hp he =>
          hnodup.1 (he ▸ hp)
        have hthen : Wrote here names (· ≠ x.1) t₂ t'' := hlater.mono fun p hp he =>
          hp (he ▸ List.mem_cons_self)
        rw [writeFiles, FileTree.bind_apply, hagain hcalm t'' (hothers.trans hthen)]
        exact hagain₂ (hwrote.calm hcalm) t'' (hlater.mono fun p hp he => hp (List.mem_cons_of_mem _ he))

end RestForge.Run
