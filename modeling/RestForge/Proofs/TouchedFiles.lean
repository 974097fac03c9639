import RestForge.Proofs.Replacing

/-!
# What the replacement of a file touches

In any tree, with links or without, and for any path.

* `Furnished`: a tree with some more directories; `makeParent_furnished`: nothing else comes of making the
  directories above a path.
* `NamedIn`: a path leads to a name in a directory; `NamedIn.temporary`: its temporary path leads to another
  name there.
* `StoresAt`: where a text goes that is written to a path; `writeFile_outcome`, `rename_outcome`: what
  writing and moving do, if anything.
* `Stored`, `Spared`: what a replacement leaves that went well, or failed; `Unmoved`: what of the text is
  then left; `replaceFile_touches`: nothing else is.
* `replaceFile_beside`: other files that it does touch.
-/

set_option autoImplicit false

namespace RestForge.FileTree

/-! ## More directories -/

/-- A tree with more directories, each of them where one of some paths leads. -/
structure Furnished (paths : List String) (t t' : FileTree) : Prop where
  directory : t'.workingDirectory = t.workingDirectory
  kept : ∀ {p entry}, t.get? p = some entry → t'.get? p = some entry
  made : ∀ {p}, t.get? p = none → t'.get? p = none
    ∨ t'.get? p = some .directory ∧ ∃ above ∈ paths, t'.directoryAt? above = some p

section Furnished

variable {t t' t'' : FileTree} {paths more : List String} {path : String}

theorem Furnished.refl (t : FileTree) : Furnished paths t t := ⟨rfl, id, .inl⟩

theorem Furnished.directoryAt? (h : Furnished paths t t') {place : Place}
    (hplace : t.directoryAt? path = some place) : t'.directoryAt? path = some place :=
  directoryAt?_mono h.directory (fun _ => h.kept) (fun _ _ => h.kept) hplace

theorem Furnished.trans (h : Furnished paths t t') (h' : Furnished paths t' t'') :
    Furnished paths t t'' := by
  refine ⟨h'.directory.trans h.directory, fun hp => h'.kept (h.kept hp), fun hp => ?_⟩
  obtain hfree | ⟨hnew, above, habove, hplace⟩ := h.made hp
  · exact h'.made hfree
  · exact .inr ⟨h'.kept hnew, above, habove, h'.directoryAt? hplace⟩

theorem Furnished.mono (h : Furnished paths t t') (hle : ∀ p ∈ paths, p ∈ more) :
    Furnished more t t' :=
  ⟨h.directory, h.kept, fun hp => (h.made hp).imp_right fun ⟨hnew, above, habove, hplace⟩ =>
    ⟨hnew, above, hle above habove, hplace⟩⟩

/-! ### One directory -/

section Walk

variable {follow : Bool} {links : Nat} {here place : Place} {ps : List String}

theorem free_of_walk {b : Bool} (h : t.walk follow links here ps = .ok (.free place b)) :
    t.get? place = none := by
  fun_induction walk t follow links here ps with
  | case1 | case4 | case6 | case8 | case9 | case10 | case11 => cases h
  | case2 links here piece rest hidle ih => exact ih h
  | case3 links here rest hidle ih => exact ih h
  | case5 links here piece rest hidle hup hshort place' hget hidles =>
    obtain rfl : here ++ [piece] = place := (Spot.free.inj (Except.ok.inj h)).1
    exact hget
  | case7 links here piece rest hidle hup hshort place' hget ih => exact ih h
  | case12 here piece rest hidle hup hshort place' target hget hlast links ih => exact ih h

/-- A path that leads to a free place leads there still once a directory is made in it. -/
theorem passes_of_free {b : Bool} (h : t.walk follow links here ps = .ok (.free place b)) :
    ∃ left, Passes (t.insert place .directory) links here ps left place := by
  have hfree := free_of_walk h
  have hget' : ∀ p, (t.insert place .directory).get? p
      = if p = place then some .directory else t.get? p := get?_insert (ne_nil_of_free hfree)
  fun_induction walk t follow links here ps with
  | case1 | case4 | case6 | case8 | case9 | case10 | case11 => cases h
  | case2 links here piece rest hidle ih => exact (ih h).imp fun _ later => .idle hidle later
  | case3 links here rest hidle ih => exact (ih h).imp fun _ later => .up later
  | case5 links here piece rest hidle hup hshort place' hget hidles =>
    obtain rfl : here ++ [piece] = place := (Spot.free.inj (Except.ok.inj h)).1
    have hrest : ∀ p ∈ rest, Path.isIdle p = true := fun p hp => by
      simp [Path.isIdle, List.all_eq_true.mp hidles p hp]
    exact ⟨links, .into (isName_of_not hidle hup hshort) ((hget' _).trans (if_pos rfl))
      (passes_idle hrest links _)⟩
  | case7 links here piece rest hidle hup hshort place' hget ih =>
    refine (ih h).imp fun _ later => .into (isName_of_not hidle hup hshort) ?_ later
    rw [hget', hget, ite_self]
  | case12 here piece rest hidle hup hshort place' target hget hlast links ih =>
    refine (ih h).imp fun _ later => .through (isName_of_not hidle hup hshort) ?_ later
    have hne : here ++ [piece] ≠ place := by
      rintro rfl
      cases hget.symm.trans hfree
    exact (hget' _).trans ((if_neg hne).trans hget)

end Walk

theorem locate_walk {follow : Bool} {spot : Spot} (h : t.locate follow path = .ok spot) :
    textFault? path = none
      ∧ t.walk follow linkLimit (startOf t.workingDirectory path) (Path.pieces path) = .ok spot := by
  rw [locate_eq] at h
  cases htext : textFault? path with
  | some e =>
    rw [htext] at h
    cases h
  | none =>
    rw [htext] at h
    exact ⟨rfl, h⟩

/-- An action makes directories where some paths lead, and nothing else; done without a fault, it
leaves a directory where one path leads. -/
def Furnishes (paths : List String) (path : String) (act : Access Unit) : Prop := ∀ t,
  Furnished paths t (act t).2 ∧ ((act t).1 = .ok () → (act t).2.isDirectory path = true)

theorem furnishes_makeDirectory (hpath : path ∈ paths) :
    Furnishes paths path (makeDirectory path) := by
  intro t
  rw [makeDirectory_apply]
  rcases hlocate : t.locate false path with e | (⟨p, entry⟩ | ⟨p, b⟩)
  · exact ⟨.refl t, fun h => by cases h⟩
  · exact ⟨.refl t, fun h => by cases h⟩
  · obtain ⟨htext, hwalk⟩ := locate_walk hlocate
    have hfree := free_of_walk hwalk
    have hget : ∀ q, (t.insert p .directory).get? q
        = if q = p then some .directory else t.get? q := get?_insert (ne_nil_of_free hfree)
    obtain ⟨left, hpasses⟩ := passes_of_free hwalk
    have hplace : (t.insert p .directory).directoryAt? path = some p :=
      directoryAt?_passes.mpr ⟨htext, left, hpasses⟩
    refine ⟨⟨rfl, fun {q entry} hq => ?_, fun {q} hq => ?_⟩, fun _ =>
      Option.isSome_iff_exists.mpr ⟨p, hplace⟩⟩
    · have hne : q ≠ p := by
        rintro rfl
        cases hq.symm.trans hfree
      exact (hget q).trans ((if_neg hne).trans hq)
    · by_cases he : q = p
      · subst he
        exact .inr ⟨(hget q).trans (if_pos rfl), path, hpath, hplace⟩
      · exact .inl ((hget q).trans ((if_neg he).trans hq))

theorem furnishes_unlessDirectory (e : Fault) : Furnishes paths path (unlessDirectory path e) := by
  intro t
  rw [unlessDirectory_apply]
  refine ⟨.refl t, fun hok => ?_⟩
  by_contra hnot
  rw [if_neg hnot] at hok
  cases hok

theorem furnishes_tryCatch {act : Access Unit} {handler : Fault → Access Unit}
    (hact : Furnishes paths path act) (hhandler : ∀ e, Furnishes paths path (handler e)) :
    Furnishes paths path (tryCatch act handler) := by
  intro t
  obtain ⟨hmade, hthere⟩ := hact t
  rw [Access.tryCatch_apply]
  rcases hrun : act t with ⟨e | u, t'⟩ <;> rw [hrun] at hmade hthere
  · obtain ⟨hlater, hthere'⟩ := hhandler e t'
    exact ⟨hmade.trans hlater, hthere'⟩
  · exact ⟨hmade, hthere⟩

theorem furnishes_bind {act : Access Unit} {f : Unit → Access Unit}
    (hact : ∀ t, Furnished paths t (act t).2) (hf : ∀ u, Furnishes paths path (f u)) :
    Furnishes paths path (act >>= f) := by
  intro t
  have hmade := hact t
  rw [bind_apply]
  rcases hrun : act t with ⟨e | u, t'⟩ <;> rw [hrun] at hmade
  · exact ⟨hmade, fun hok => by cases hok⟩
  · obtain ⟨hlater, hthere⟩ := hf u t'
    exact ⟨hmade.trans hlater, hthere⟩

/-! ### The directories of a path -/

theorem furnishes_makeDirectoryIn {outer : List String}
    (houter : ∀ t, Furnished outer t (makeDirectoryIn outer t).2) (path : String) :
    Furnishes (path :: outer) path (makeDirectoryIn (path :: outer)) := by
  have hmake : Furnishes (path :: outer) path (makeDirectory path) :=
    furnishes_makeDirectory List.mem_cons_self
  rw [makeDirectoryIn]
  refine furnishes_tryCatch hmake fun e => ?_
  split
  · exact furnishes_bind (fun t => (houter t).mono fun _ => List.mem_cons_of_mem _) fun _ =>
      furnishes_tryCatch hmake furnishes_unlessDirectory
  · exact furnishes_unlessDirectory _

theorem makeDirectoryIn_furnished (paths : List String) (t : FileTree) :
    Furnished paths t (makeDirectoryIn paths t).2 := by
  induction paths generalizing t with
  | nil => exact .refl t
  | cons path outer ih => exact (furnishes_makeDirectoryIn ih path t).1

theorem furnishes_makeDirectories (hne : path ≠ "") :
    Furnishes (Path.ancestors path) path (makeDirectories path) := by
  obtain ⟨outer, houter⟩ := ancestors_cons hne
  rw [makeDirectories, houter]
  exact furnishes_makeDirectoryIn (makeDirectoryIn_furnished outer) path

/-- What leads to a directory runs through directories. -/
theorem isDirectory_parent {above : String} (hparent : Path.parent? path = some above)
    (hne : above ≠ "") (h : t.isDirectory path = true) : t.isDirectory above = true := by
  obtain ⟨htext, left, place, hpasses⟩ := isDirectory_passes.mp h
  obtain ⟨more, rfl⟩ := Path.parent?_append hparent hne
  obtain ⟨habsolute, ⟨rest, hrest⟩ | ⟨hroot, rfl⟩⟩ := Path.parent?_pieces hparent hne
  · have hwhole : Path.pieces (above ++ more) ≠ [] := Text.split_ne_nil '/' (above ++ more)
    have hpieces := List.dropLast_append_getLast hwhole
    rw [← hrest, List.append_assoc] at hpieces
    rw [← hpieces] at hpasses
    obtain ⟨left', place', hfirst, -⟩ := hpasses.split
    refine isDirectory_passes.mpr ⟨textFault?_append hne htext, left', place', ?_⟩
    rw [startOf, habsolute]
    exact hfirst
  · exact isDirectory_passes.mpr ⟨by decide, linkLimit, _, passes_idle (by decide) _ _⟩

theorem isDirectory_ancestor {above : String} (habove : above ∈ Path.ancestors path)
    (h : t.isDirectory path = true) : t.isDirectory above = true := by
  have hwithin : ∀ (fuel : Nat) (path : String), above ∈ Path.ancestorsWithin fuel path →
      t.isDirectory path = true → t.isDirectory above = true := by
    intro fuel
    induction fuel with
    | zero => exact fun path habove => (List.not_mem_nil habove).elim
    | succ fuel ih =>
      intro path habove hdir
      rw [Path.ancestorsWithin] at habove
      split at habove
      · cases habove
      · obtain rfl | habove := List.mem_cons.mp habove
        · exact hdir
        · split at habove
          · rename_i parent hparent
            have hne : parent ≠ "" := by
              rintro rfl
              cases fuel <;> exact (List.not_mem_nil habove).elim
            exact ih parent habove (isDirectory_parent hparent hne hdir)
          · cases habove
  exact hwithin _ path habove h

/-- The directories that a path needs, nearest first. -/
def Path.parents (path : String) : List String :=
  match parent? path with
  | none => []
  | some parent => ancestors parent

theorem makeParent_furnished (path : String) (t : FileTree) :
    Furnished (Path.parents path) t (makeParent path t).2
      ∧ ((makeParent path t).1 = .ok () →
        ∀ above ∈ Path.parents path, (makeParent path t).2.isDirectory above = true) := by
  rw [Run.makeParent_apply, Path.parents]
  cases Path.parent? path with
  | none => exact ⟨.refl t, fun _ => by simp⟩
  | some parent =>
    dsimp only
    by_cases hempty : parent.isEmpty = true
    · obtain rfl := String.isEmpty_iff.mp hempty
      exact ⟨.refl t, fun _ => by simp [Path.ancestors, Path.ancestorsWithin]⟩
    · rw [if_neg hempty]
      obtain ⟨hmade, hthere⟩ := furnishes_makeDirectories (by simpa using hempty) t
      rcases hrun : makeDirectories parent t with ⟨e | u, t'⟩ <;> rw [hrun] at hmade hthere
      · exact ⟨hmade, fun hok => by cases hok⟩
      · exact ⟨hmade, fun _ above habove => isDirectory_ancestor habove (hthere rfl)⟩

end Furnished

/-! ## The name at the end of a path -/

namespace Path

/-- The characters of a temporary name were in the name, but for the new extension. -/
theorem notMem_temporaryName {c : Char} {name : String} (h : c ∉ name.toList)
    (hextension : c ∉ ".tmp".toList) : c ∉ (temporaryName name).toList := by
  have hstem : c ∉ (cutExtension name).1.toList := by
    rw [cutExtension]
    split
    · rename_i extension before hreverse
      dsimp only
      split
      · exact h
      · rename_i hstem
        have hpieces : Text.split '.' name = before.reverse ++ [extension] := by
          rw [← List.reverse_reverse (Text.split '.' name), hreverse, List.reverse_cons]
        have hsome : before.reverse ≠ [] := by
          intro hnil
          rw [hnil] at hstem
          exact hstem rfl
        have hname := Text.intercalate_split '.' name
        rw [hpieces, String.intercalate_append_of_ne_nil hsome (by simp)] at hname
        rw [← hname] at h
        simp only [String.toList_append, List.mem_append, not_or] at h
        exact h.1.1
    · exact h
  have hdot : "." ++ "tmp" = ".tmp" := rfl
  rw [temporaryName, String.append_assoc, hdot, String.toList_append, List.mem_append, not_or]
  exact ⟨hstem, hextension⟩

theorem isName_temporaryName {name : String} (h : '/' ∉ name.toList) : IsName (temporaryName name) := by
  refine Run.isName_of_dot (notMem_temporaryName h (by decide)) ?_
  simp [temporaryName]

section Last

variable {path last : String} {before : List String}

theorem isAbsolute_concat (h : pieces path = before ++ [last]) :
    isAbsolute path = true ↔ before.head? = some "" := by
  rw [isAbsolute_iff, h]
  cases before with
  | nil => simp
  | cons first before =>
    obtain ⟨second, rest, hrest⟩ := List.exists_cons_of_ne_nil (List.append_ne_nil_of_right_ne_nil before
      (List.cons_ne_nil last []))
    simp [hrest]

theorem pieces_temporary (h : pieces path = before ++ [last]) (hidle : isIdle last = false)
    (hup : last ≠ "..") : pieces (temporary path) = before ++ [temporaryName last] := by
  have hdrop : dropIdleEnd (pieces path) = before ++ [last] := by rw [h, dropIdleEnd_append hidle]
  have hname : fileName? path = some last := by
    rw [fileName?, hdrop, List.getLast?_concat]
    simp [hidle, hup]
  have hmem : ∀ p ∈ before ++ [last], '/' ∉ p.toList := fun p hp =>
    notMem_of_mem_pieces (h ▸ hp)
  rw [temporary, withExtension, hname, hdrop, List.dropLast_concat]
  refine pieces_ofPieces (by simp) fun p hp => ?_
  obtain hp | hp := List.mem_append.mp hp
  · exact hmem p (List.mem_append_left _ hp)
  · rw [List.mem_singleton.mp hp]
    exact (isName_temporaryName (hmem last (by simp))).noSlash

/-- A path without slashes at its end ends in a piece. -/
theorem last_ne_empty (hplain : dropSlashes path = path) (hne : path ≠ "")
    (h : pieces path = before ++ [last]) : last ≠ "" := by
  rintro rfl
  have hpath := ofPieces_pieces path
  rw [h] at hpath
  by_cases hnil : before = []
  · rw [hnil] at hpath
    exact hne hpath.symm
  · rw [ofPieces_append hnil (by simp)] at hpath
    have hslash : path.toList = (ofPieces before).toList ++ ['/'] := by
      rw [← hpath]
      simp [ofPieces]
    have hlong := congrArg (fun s => s.toList.length) hplain
    have hshort := List.length_dropWhile_le (fun c => c == '/') (ofPieces before).toList.reverse
    simp only [dropSlashes, Text.trimEndWhere, Text.dropEndWhile, hslash, String.toList_ofList,
      List.reverse_append, List.reverse_singleton, List.singleton_append, List.length_reverse,
      List.length_append, List.length_singleton] at hlong
    rw [List.dropWhile_cons_of_pos (by simp)] at hlong
    rw [List.length_reverse] at hshort
    omega

end Last

end Path

/-- A path leads through its first pieces to a directory, and on to a name at its end. -/
structure NamedIn (t : FileTree) (path : String) (here : Place) (name : String) : Prop where
  text : textFault? path = none
  isName : IsName name
  way : ∃ before left, Path.pieces path = before ++ [name]
    ∧ Passes t linkLimit (startOf t.workingDirectory path) before left here

section Named

variable {t t' : FileTree} {path name : String} {here place : Place} {bytes : Array UInt8}

theorem isName_of_walk {follow : Bool} {links : Nat} {piece : String} {spot : Spot}
    (hidle : ¬Path.isIdle piece = true) (hup : ¬piece = "..")
    (h : t.walk follow links here [piece] = .ok spot) : IsName piece := by
  refine isName_of_not hidle hup fun hlong => ?_
  rw [walk, if_neg hidle, if_neg hup, if_pos hlong] at h
  cases h

theorem namedIn_of_locate {spot : Spot} (h : t.locate false path = .ok spot)
    (hplain : dropSlashes path = path) (hspot : ∀ p, spot ≠ .found p .directory) :
    ∃ here name, NamedIn t path here name := by
  obtain ⟨htext, hwalk⟩ := locate_walk h
  obtain ⟨before, last, hpieces⟩ : ∃ before last, Path.pieces path = before ++ [last] :=
    ⟨_, _, (List.dropLast_append_getLast (Text.split_ne_nil '/' path)).symm⟩
  have hlast := Path.last_ne_empty hplain (textFault?_eq_none.mp htext).2.1 hpieces
  rw [hpieces] at hwalk
  by_cases hway : ∃ left here, Passes t linkLimit (startOf t.workingDirectory path) before left here
  · obtain ⟨left, here, hpasses⟩ := hway
    rw [hpasses.walk (.inl (by simp))] at hwalk
    refine ⟨here, last, htext, ?_, before, left, hpieces, hpasses⟩
    -- anything but a name would lead to a directory
    have hdirectory : ∀ p, t.walk false left here [last] ≠ .ok (.found p .directory) := fun p he =>
      hspot p (Except.ok.inj (hwalk.symm.trans he))
    have hidle : ¬Path.isIdle last = true := fun hidle =>
      hdirectory here (by rw [walk, if_pos hidle, walk])
    have hup : ¬last = ".." := fun hup =>
      hdirectory here.dropLast (by rw [hup, walk_up, walk])
    exact isName_of_walk hidle hup hwalk
  · obtain ⟨e, he⟩ := walk_stuck (fun left here hpasses => hway ⟨left, here, hpasses⟩)
      (show [last].all String.isEmpty = false by simp [hlast]) false
    cases he.symm.trans hwalk

theorem NamedIn.mono (h : NamedIn t path here name)
    (hdirectory : t'.workingDirectory = t.workingDirectory)
    (hdirs : ∀ p, t.get? p = some .directory → t'.get? p = some .directory)
    (hlinks : ∀ p target, t.get? p = some (.link target) → t'.get? p = some (.link target)) :
    NamedIn t' path here name := by
  obtain ⟨htext, hname, before, left, hpieces, hpasses⟩ := h
  refine ⟨htext, hname, before, left, hpieces, ?_⟩
  rw [hdirectory]
  exact hpasses.mono hdirs hlinks

/-- A name in a directory is found as it stands there. -/
theorem NamedIn.locate (h : NamedIn t path here name) {follow : Bool}
    (hlink : follow = true → ∀ target, t.get? (here ++ [name]) ≠ some (.link target)) :
    t.locate follow path = match t.get? (here ++ [name]) with
      | none => .ok (.free (here ++ [name]) false)
      | some entry => .ok (.found (here ++ [name]) entry) := by
  obtain ⟨htext, hname, before, left, hpieces, hpasses⟩ := h
  rw [locate_eq, htext]
  dsimp only
  rw [hpieces]
  exact (hpasses.walk (.inl (by simp))).trans (walk_last hname hlink)

/-- The temporary file lies in the same directory. -/
theorem NamedIn.temporary (h : NamedIn t path here name) {spot : Spot} {follow : Bool}
    (hfound : t.locate follow (Path.temporary path) = .ok spot) :
    NamedIn t (Path.temporary path) here (Path.temporaryName name) := by
  obtain ⟨-, hname, before, left, hpieces, hpasses⟩ := h
  have htemporary := Path.pieces_temporary hpieces hname.1 hname.2.1
  have hslash : '/' ∉ name.toList :=
    Path.notMem_of_mem_pieces (show name ∈ Path.pieces path by simp [hpieces])
  have habsolute : Path.isAbsolute (Path.temporary path) = Path.isAbsolute path := by
    rw [Bool.eq_iff_iff, Path.isAbsolute_concat htemporary, Path.isAbsolute_concat hpieces]
  have hstart : startOf t.workingDirectory (Path.temporary path) = startOf t.workingDirectory path := by
    rw [startOf, startOf, habsolute]
  rw [← hstart] at hpasses
  obtain ⟨htext, hwalk⟩ := locate_walk hfound
  have hvalid := Path.isName_temporaryName hslash
  have hidle : ¬Path.isIdle (Path.temporaryName name) = true := by simp [hvalid.not_idle]
  rw [htemporary, hpasses.walk (.inl (by simp))] at hwalk
  exact ⟨htext, isName_of_walk hidle hvalid.notUp hwalk, before, left, htemporary, hpasses⟩

end Named

/-! ## Writing and moving -/

/-- A text written to a path goes to a place: to the file that the path leads to, or to a free
place. -/
def StoresAt (t : FileTree) (path : String) (place : Place) : Prop :=
  (∃ bytes, t.locate true path = .ok (.found place (.file bytes)))
    ∨ t.locate true path = .ok (.free place false)

section Files

variable {t : FileTree} {path target : String} {place goal : Place} {bytes : Array UInt8}

/-- What is found is there, and no link is found where links are followed. -/
theorem found_of_walk {follow : Bool} {links : Nat} {here : Place} {ps : List String} {entry : Entry}
    (h : t.walk follow links here ps = .ok (.found place entry)) (hplain : entry ≠ .directory) :
    t.get? place = some entry ∧ (follow = true → ∀ target, entry ≠ .link target) := by
  fun_induction walk t follow links here ps with
  | case1 => exact absurd (Spot.found.inj (Except.ok.inj h)).2.symm hplain
  | case2 links here piece rest hidle ih => exact ih h
  | case3 links here rest hidle ih => exact ih h
  | case4 | case5 | case6 | case9 | case11 => cases h
  | case7 links here piece rest hidle hup hshort place' hget ih => exact ih h
  | case8 links here piece rest hidle hup hshort place' bytes hget =>
    obtain ⟨rfl, rfl⟩ := Spot.found.inj (Except.ok.inj h)
    exact ⟨hget, by simp⟩
  | case10 links here piece rest hidle hup hshort place' target hget hlast =>
    obtain ⟨rfl, rfl⟩ := Spot.found.inj (Except.ok.inj h)
    refine ⟨hget, fun hfollow => ?_⟩
    simp [hfollow] at hlast
  | case12 here piece rest hidle hup hshort place' target hget hlast links ih => exact ih h

theorem StoresAt.get? (h : t.StoresAt path place) :
    t.get? place = none ∨ ∃ bytes, t.get? place = some (.file bytes) := by
  obtain ⟨bytes, h⟩ | h := h
  · exact .inr ⟨bytes, (found_of_walk (locate_walk h).2 (by simp)).1⟩
  · exact .inl (free_of_walk (locate_walk h).2)

theorem StoresAt.writeFile (h : t.StoresAt path place) (bytes : Array UInt8) :
    FileTree.writeFile path bytes t = store place bytes t := by
  rw [writeFile_apply]
  obtain ⟨old, hlocate⟩ | hlocate := h <;> rw [hlocate]
  rfl

theorem writeFile_outcome (path : String) (bytes : Array UInt8) (t : FileTree) :
    (∃ e, writeFile path bytes t = (.error e, t)) ∨ ∃ place, t.StoresAt path place := by
  rw [writeFile_apply]
  rcases hlocate : t.locate true path with e | (⟨p, old | target | _⟩ | ⟨p, _ | _⟩)
  · exact .inl ⟨e, rfl⟩
  · exact .inr ⟨p, .inl ⟨old, hlocate⟩⟩
  · exact absurd rfl ((found_of_walk (locate_walk hlocate).2 (by simp)).2 rfl target)
  · exact .inl ⟨_, rfl⟩
  · exact .inr ⟨p, .inr hlocate⟩
  · exact .inl ⟨_, rfl⟩

theorem moveTo_refused {entry : Entry} (h : dropSlashes target ≠ target) (t : FileTree) :
    rename.moveTo place entry goal target t = (.error .notDirectory, t) := by
  rw [rename.moveTo, if_neg h]
  rfl

/-- What stands at one name is moved to another unless a directory stands there. -/
theorem NamedIn.rename {here : Place} {name : String} {entry : Entry} (h : NamedIn t target here name)
    (hplain : dropSlashes target = target) (hfound : t.locate false path = .ok (.found place entry))
    (hmoved : entry ≠ .directory) :
    FileTree.rename path target t = if t.get? (here ++ [name]) = some .directory then
        (.error (occupied target), t)
      else (.ok (), (t.erase place).insert (here ++ [name]) entry) := by
  have hgoal : t.locate false target = _ := h.locate (by simp)
  rw [rename_found hfound hmoved, hplain, hgoal]
  rcases t.get? (here ++ [name]) with _ | (bytes | link | _)
  · exact moveTo_apply _ _ _ hplain t
  · exact moveTo_apply _ _ _ hplain t
  · exact moveTo_apply _ _ _ hplain t
  · rfl

/-- What a path leads to is moved to a name, or nothing is changed. -/
theorem rename_outcome (path target : String) (t : FileTree) :
    (∃ e, rename path target t = (.error e, t))
    ∨ ∃ place entry here name, t.locate false path = .ok (.found place entry)
      ∧ NamedIn t target here name ∧ t.get? (here ++ [name]) ≠ some .directory
      ∧ rename path target t = (.ok (), (t.erase place).insert (here ++ [name]) entry) := by
  have hlook : look false path t = (t.locate false path, t) := rfl
  rcases hlocate : t.locate false path with e | (⟨place, entry⟩ | ⟨place, b⟩)
  · exact .inl ⟨e, by rw [rename, bind_apply, hlook, hlocate]⟩
  · by_cases hentry : entry = .directory
    · exact .inl ⟨.isDirectory, by rw [rename, bind_apply, hlook, hlocate, hentry]; rfl⟩
    by_cases hplain : dropSlashes target = target
    · rcases hgoal : t.locate false target with e | spot
      · exact .inl ⟨e, by rw [rename_found hlocate hentry, hplain, hgoal]⟩
      by_cases hspot : ∃ p, spot = .found p .directory
      · obtain ⟨p, rfl⟩ := hspot
        exact .inl ⟨_, by rw [rename_found hlocate hentry, hplain, hgoal]⟩
      obtain ⟨here, name, hnamed⟩ := namedIn_of_locate hgoal hplain fun p he => hspot ⟨p, he⟩
      have hrename := hnamed.rename hplain hlocate hentry
      by_cases hdirectory : t.get? (here ++ [name]) = some .directory
      · exact .inl ⟨_, hrename.trans (if_pos hdirectory)⟩
      · exact .inr ⟨place, entry, here, name, rfl, hnamed, hdirectory,
          hrename.trans (if_neg hdirectory)⟩
    · rw [rename_found hlocate hentry]
      rcases t.locate false (dropSlashes target) with e | (⟨p, _ | _ | _⟩ | ⟨p, b⟩)
      · exact .inl ⟨e, rfl⟩
      · exact .inl ⟨_, moveTo_refused hplain t⟩
      · exact .inl ⟨_, moveTo_refused hplain t⟩
      · exact .inl ⟨_, rfl⟩
      · exact .inl ⟨_, moveTo_refused hplain t⟩
  · exact .inl ⟨.notFound, by rw [rename, bind_apply, hlook, hlocate]; rfl⟩

end Files

/-! ## The replacement -/

/-- The text is written to the temporary file, and that is moved to its place. -/
def storeText (path text : String) : Writing Unit := do
  (writeFile (Path.temporary path) text.toUTF8.data).at (Path.temporary path)
  (rename (Path.temporary path) path).at path

/-- A path and its temporary path name two entries of one directory. -/
structure Slot (t : FileTree) (path : String) (here : Place) (name : String) : Prop where
  target : NamedIn t path here name
  temporary : NamedIn t (Path.temporary path) here (Path.temporaryName name)
  plain : t.get? (here ++ [name]) ≠ some .directory

/-- What a replacement that went well leaves of a tree in which the directories of the path were there.

Nothing stands at the temporary name any more, and the text stands at the name; or, where a link stood
at the temporary name, the text is where that led, and the link stands at the name. -/
inductive Stored (path text : String) (t t' : FileTree) (here : Place) (name : String) : Prop where
  | plain (hlink : ∀ target, t.get? (here ++ [Path.temporaryName name]) ≠ some (.link target))
      (hget : ∀ p, t'.get? p = if p = here ++ [name] then some (.file text.toUTF8.data)
        else if p = here ++ [Path.temporaryName name] then none else t.get? p)
      (hread : (∀ target, t.get? (here ++ [name]) ≠ some (.link target)) →
        t'.readText path = .ok text
          ∧ ∀ above, t.isDirectory above = true → t'.isDirectory above = true)
  | through {store : Place} {target : String}
      (hlink : t.get? (here ++ [Path.temporaryName name]) = some (.link target))
      (hstore : t.StoresAt (Path.temporary path) store)
      (hget : ∀ p, t'.get? p = if p = here ++ [name] then some (.link target)
        else if p = here ++ [Path.temporaryName name] then none
        else if p = store then some (.file text.toUTF8.data) else t.get? p)

/-- What is left of a text that was not moved to its path: all of it, if moving failed, and some of its
first bytes, if writing it to the temporary path stopped half-way. -/
def Unmoved (path text : String) (f : WriteFailure) (bytes : Array UInt8) : Prop :=
  f.path = path ∧ bytes = text.toUTF8.data ∨ f.path = Path.temporary path ∧ Torn text bytes

/-- What a replacement that failed leaves, given the tree with the directories that were made. -/
structure Spared (path text : String) (t t₁ t' : FileTree) (f : WriteFailure) : Prop where
  directory : t'.workingDirectory = t.workingDirectory
  changed : (∀ p, t'.get? p = t₁.get? p) ∨ ∃ store bytes, Unmoved path text f bytes
    ∧ t₁.StoresAt (Path.temporary path) store
    ∧ ∀ p, t'.get? p = if p = store then some (.file bytes) else t₁.get? p
  kept : ∀ {p bytes}, t.get? p = some (.file bytes) → t'.get? p = some (.file bytes)
    ∨ ∃ left, Unmoved path text f left ∧ t₁.StoresAt (Path.temporary path) p
      ∧ t'.get? p = some (.file left)

section Replace

variable {t t₁ : FileTree} {path text name : String} {here store place p : Place} {entry : Entry}
  {bytes : Array UInt8}

theorem StoresAt.ne_nil (h : t.StoresAt path store) : store ≠ [] := by
  rintro rfl
  obtain hget | ⟨bytes, hget⟩ := h.get? <;> cases hget

theorem StoresAt.get?_insert (h : t.StoresAt path store) (p : Place) :
    (t.afterWrite.insert store (.file bytes)).get? p
      = if p = store then some (.file bytes) else t.get? p := by
  rw [FileTree.get?_insert h.ne_nil, get?_afterWrite]

/-- Directories and links are the same once the text is written. -/
theorem StoresAt.get?_insert_iff (h : t.StoresAt path store) (hentry : ∀ bytes, entry ≠ .file bytes) :
    (t.afterWrite.insert store (.file bytes)).get? p = some entry ↔ t.get? p = some entry := by
  rw [h.get?_insert]
  by_cases hp : p = store
  · subst hp
    rw [if_pos rfl]
    refine iff_of_false (fun he => hentry bytes (Option.some.inj he).symm) fun he => ?_
    obtain hget | ⟨bytes', hget⟩ := h.get?
    · cases hget.symm.trans he
    · exact hentry bytes' (Option.some.inj (he.symm.trans hget))
  · rw [if_neg hp]

theorem StoresAt.namedIn_iff (h : t.StoresAt path store) {other : String} :
    NamedIn (t.afterWrite.insert store (.file bytes)) other here name ↔ NamedIn t other here name := by
  have hdirs : ∀ p, (t.afterWrite.insert store (.file bytes)).get? p = some .directory
      ↔ t.get? p = some .directory := fun p => h.get?_insert_iff (by simp)
  have hlinks : ∀ p target, (t.afterWrite.insert store (.file bytes)).get? p = some (.link target)
      ↔ t.get? p = some (.link target) := fun p target => h.get?_insert_iff (by simp)
  exact ⟨fun hnamed => hnamed.mono rfl (fun p => (hdirs p).mp) fun p target => (hlinks p target).mp,
    fun hnamed => hnamed.mono rfl (fun p => (hdirs p).mpr) fun p target => (hlinks p target).mpr⟩

/-- A text that is moved was written in the directory where it goes. -/
theorem StoresAt.slot (h : t.StoresAt (Path.temporary path) store)
    (hnamed : NamedIn (t.afterWrite.insert store (.file bytes)) path here name)
    (hplain : (t.afterWrite.insert store (.file bytes)).get? (here ++ [name]) ≠ some .directory) :
    Slot t path here name := by
  have htarget := h.namedIn_iff.mp hnamed
  refine ⟨htarget, ?_, fun hget => hplain ((h.get?_insert_iff (by simp)).mpr hget)⟩
  obtain ⟨bytes', hlocate⟩ | hlocate := id h
  · exact htarget.temporary hlocate
  · exact htarget.temporary hlocate

/-- The text goes to the temporary name itself unless a link stands there. -/
theorem Slot.store_eq (h : Slot t path here name) (hstore : t.StoresAt (Path.temporary path) store)
    (hlink : ∀ target, t.get? (here ++ [Path.temporaryName name]) ≠ some (.link target)) :
    store = here ++ [Path.temporaryName name] := by
  have hthere : t.locate true (Path.temporary path) = _ := h.temporary.locate fun _ => hlink
  obtain ⟨bytes, hlocate⟩ | hlocate := hstore <;> rw [hlocate] at hthere <;>
    split at hthere <;> cases hthere <;> rfl

section Kept

variable {t' : FileTree} (h : Slot t path here name)
  (hdirectory : t'.workingDirectory = t.workingDirectory)
  (htemporary : t.get? (here ++ [Path.temporaryName name]) = none
    ∨ ∃ bytes, t.get? (here ++ [Path.temporaryName name]) = some (.file bytes))
  (hlink : ∀ target, t.get? (here ++ [name]) ≠ some (.link target))
  (hget : ∀ p, t'.get? p = if p = here ++ [name] then some (.file text.toUTF8.data)
    else if p = here ++ [Path.temporaryName name] then none else t.get? p)

include h htemporary hlink hget

/-- Directories and links stay where neither name is one. -/
theorem Slot.kept (hp : t.get? p = some entry) (hentry : ∀ bytes, entry ≠ .file bytes) :
    t'.get? p = some entry := by
  rw [hget, if_neg, if_neg, hp]
  · rintro rfl
    obtain hfree | ⟨bytes, hfile⟩ := htemporary
    · cases hfree.symm.trans hp
    · exact hentry bytes (Option.some.inj (hp.symm.trans hfile))
  · rintro rfl
    cases entry with
    | file bytes => exact hentry bytes rfl
    | link target => exact hlink target hp
    | directory => exact h.plain hp

include hdirectory

theorem Slot.readText : t'.readText path = .ok text := by
  have hnamed : NamedIn t' path here name := h.target.mono hdirectory
    (fun p hp => h.kept htemporary hlink hget hp (by simp))
    fun p target hp => h.kept htemporary hlink hget hp (by simp)
  have hthere : t'.get? (here ++ [name]) = some (.file text.toUTF8.data) := by
    rw [hget, if_pos rfl]
  have hlocate : t'.locate true path = _ := hnamed.locate (by simp [hthere])
  rw [hthere] at hlocate
  exact readText_found hlocate

theorem Slot.isDirectory {above : String} (habove : t.isDirectory above = true) :
    t'.isDirectory above = true := by
  obtain ⟨place, hplace⟩ := Option.isSome_iff_exists.mp habove
  exact Option.isSome_iff_exists.mpr ⟨place, directoryAt?_mono hdirectory
    (fun p hp => h.kept htemporary hlink hget hp (by simp))
    (fun p target hp => h.kept htemporary hlink hget hp (by simp)) hplace⟩

end Kept

/-- Moving what stands at the temporary name stores the text. -/
theorem Slot.stored (h : Slot t path here name) (hstore : t.StoresAt (Path.temporary path) store)
    (hfound : (t.afterWrite.insert store (.file text.toUTF8.data)).locate false (Path.temporary path)
      = .ok (.found place entry)) :
    Stored path text t (((t.afterWrite.insert store (.file text.toUTF8.data)).erase place).insert
      (here ++ [name]) entry) here name := by
  have hthere : (t.afterWrite.insert store (.file text.toUTF8.data)).locate false
      (Path.temporary path) = _ :=
    (hstore.namedIn_iff.mpr h.temporary).locate (by simp)
  have hname : ∀ n : String, here ++ [n] ≠ [] := fun n => by simp
  rw [hfound] at hthere
  by_cases hlink : ∃ target, t.get? (here ++ [Path.temporaryName name]) = some (.link target)
  · obtain ⟨target, hlink⟩ := hlink
    rw [(hstore.get?_insert_iff (by simp)).mpr hlink] at hthere
    dsimp only at hthere
    obtain ⟨rfl, rfl⟩ := Spot.found.inj (Except.ok.inj hthere)
    refine .through hlink hstore fun p => ?_
    rw [get?_insert (hname name)]
    by_cases hp : p = here ++ [Path.temporaryName name]
    · rw [if_pos hp, hp, get?_erase_self (hname _)]
    · rw [if_neg hp, get?_erase_of_ne hp, hstore.get?_insert]
  · have hlink : ∀ target, t.get? (here ++ [Path.temporaryName name]) ≠ some (.link target) :=
      fun target hget => hlink ⟨target, hget⟩
    obtain rfl := h.store_eq hstore hlink
    rw [get?_insert (hname _), if_pos rfl] at hthere
    dsimp only at hthere
    obtain ⟨rfl, rfl⟩ := Spot.found.inj (Except.ok.inj hthere)
    have hget : ∀ p, (Run.putFile t.afterWrite (here ++ [Path.temporaryName name]) (here ++ [name])
        text.toUTF8.data).get? p = _ :=
      Run.get?_putFile (hname (Path.temporaryName name)) (hname name) text.toUTF8.data
    simp only [get?_afterWrite] at hget
    have hdirectory : (Run.putFile t.afterWrite (here ++ [Path.temporaryName name]) (here ++ [name])
        text.toUTF8.data).workingDirectory = t.workingDirectory := rfl
    exact .plain hlink hget fun hplain => ⟨h.readText hdirectory hstore.get? hplain hget,
      fun above => h.isDirectory hdirectory hstore.get? hplain hget⟩

/-- What was written and not moved is in the place of a file at most. -/
theorem Furnished.spared {paths : List String} {f : WriteFailure} (h : Furnished paths t t₁)
    (hstore : t₁.StoresAt (Path.temporary path) store) (hleft : Unmoved path text f bytes) :
    Spared path text t t₁ (t₁.afterWrite.insert store (.file bytes)) f := by
  refine ⟨h.directory, .inr ⟨store, bytes, hleft, hstore, fun p => hstore.get?_insert p⟩,
    fun {p bytes'} hp => ?_⟩
  rw [hstore.get?_insert]
  by_cases he : p = store
  · exact .inr ⟨bytes, hleft, he ▸ hstore, if_pos he⟩
  · exact .inl ((if_neg he).trans (h.kept hp))

/-- Where nothing was written, every file is spared. -/
theorem Furnished.spared_all {paths : List String} (h : Furnished paths t t₁) (path text : String)
    (f : WriteFailure) : Spared path text t t₁ t₁ f ∧ Spared path text t t₁ t₁.afterWrite f :=
  ⟨⟨h.directory, .inl fun _ => rfl, fun hp => .inl (h.kept hp)⟩,
    ⟨h.directory, .inl (get?_afterWrite t₁), fun {p bytes} hp => .inl (by
      rw [get?_afterWrite]
      exact h.kept hp)⟩⟩

/-- In a tree with the directories of a path a text is stored there, or files are spared. -/
theorem Furnished.stored_or_spared {paths : List String} (h : Furnished paths t t₁)
    (path text : String) :
    (∃ t' here name, storeText path text t₁ = (.ok (), t') ∧ t'.workingDirectory = t.workingDirectory
      ∧ Slot t₁ path here name ∧ Stored path text t₁ t' here name)
    ∨ ∃ f t', storeText path text t₁ = (.error f, t') ∧ Spared path text t t₁ t' f := by
  rw [storeText, bind_apply, Run.at_apply]
  obtain ⟨e, hwrite⟩ | ⟨store, hstore⟩ :=
    writeFile_outcome (Path.temporary path) text.toUTF8.data t₁
  · rw [hwrite]
    exact .inr ⟨_, _, rfl, (h.spared_all path text _).1⟩
  rw [hstore.writeFile]
  obtain hstored | ⟨e, hstored⟩ | ⟨e, size, hsize, hstored⟩ :=
    store_cases store text.toUTF8.data t₁ <;> rw [hstored]
  · dsimp only
    rw [Run.at_apply]
    obtain ⟨e, hmove⟩ | ⟨place, entry, here, name, hfound, hnamed, hplain, hmove⟩ :=
      rename_outcome (Path.temporary path) path
        (t₁.afterWrite.insert store (.file text.toUTF8.data)) <;> rw [hmove]
    · exact .inr ⟨_, _, rfl, h.spared hstore (.inl ⟨rfl, rfl⟩)⟩
    · have hslot := hstore.slot hnamed hplain
      exact .inl ⟨_, here, name, rfl, h.directory, hslot, hslot.stored hstore hfound⟩
  · exact .inr ⟨_, _, rfl, (h.spared_all path text _).2⟩
  · exact .inr ⟨_, _, rfl, h.spared hstore (.inr ⟨rfl, size, hsize, rfl⟩)⟩

/-- Whatever the tree and the path, and whatever befalls the write, the replacement of a file makes
directories above it and touches nothing else but two names in its directory, its own and the temporary
one, and the file that a link at the temporary name leads to. One that fails leaves every file as it was
but that to which the text was being written, by the temporary path. -/
theorem replaceFile_touches (path text : String) (t : FileTree) :
    ∃ t₁, Furnished (Path.parents path) t t₁ ∧ match replaceFile path text t with
      | (.ok (), t') => (∀ above ∈ Path.parents path, t₁.isDirectory above = true)
        ∧ t'.workingDirectory = t.workingDirectory
        ∧ ∃ here name, Slot t₁ path here name ∧ Stored path text t₁ t' here name
      | (.error f, t') => Spared path text t t₁ t' f := by
  obtain ⟨hmade, hthere⟩ := makeParent_furnished path t
  have hreplace : replaceFile path text = makeParent path >>= fun _ => storeText path text := rfl
  rcases hparent : makeParent path t with ⟨f | u, t₁⟩ <;> rw [hparent] at hmade hthere <;>
    dsimp only at hmade hthere
  · have hrun : replaceFile path text t = (.error f, t₁) := by rw [hreplace, bind_apply, hparent]
    refine ⟨t₁, hmade, ?_⟩
    rw [hrun]
    exact (hmade.spared_all path text f).1
  have hstore : replaceFile path text t = storeText path text t₁ := by
    rw [hreplace, bind_apply, hparent]
  obtain ⟨t', here, name, hrun, hdirectory, hslot, hstored⟩ | ⟨f, t', hrun, hspared⟩ :=
    hmade.stored_or_spared path text <;> refine ⟨t₁, hmade, ?_⟩ <;> rw [hstore, hrun]
  · exact ⟨hthere rfl, hdirectory, here, name, hslot, hstored⟩
  · exact hspared

/-! ### A file beside the target -/

/-- Where a text is stored once its path and its temporary path can be told. -/
theorem storeText_apply (htarget : NamedIn t path here name)
    (htemporary : NamedIn t (Path.temporary path) here (Path.temporaryName name))
    (hplain : dropSlashes path = path) (hstore : t.StoresAt (Path.temporary path) store)
    (hentry : (t.insert store (.file text.toUTF8.data)).get? (here ++ [Path.temporaryName name])
      = some entry) (hmoved : entry ≠ .directory) (hcalm : t.Calm) :
    storeText path text t = if t.get? (here ++ [name]) = some .directory then
        (.error ⟨path, occupied path⟩, t.insert store (.file text.toUTF8.data))
      else (.ok (), ((t.insert store (.file text.toUTF8.data)).erase
        (here ++ [Path.temporaryName name])).insert (here ++ [name]) entry) := by
  have hwrite : writeFile (Path.temporary path) text.toUTF8.data t
      = (.ok (), t.insert store (.file text.toUTF8.data)) := by
    rw [hstore.writeFile, store_calm _ _ hcalm]
  have hnamed : ∀ {other n}, NamedIn t other here n →
      NamedIn (t.insert store (.file text.toUTF8.data)) other here n := fun {other n} h => by
    have hwritten : NamedIn (t.afterWrite.insert store (.file text.toUTF8.data)) other here n :=
      hstore.namedIn_iff.mpr h
    rwa [hcalm.afterWrite] at hwritten
  have hfound : (t.insert store (.file text.toUTF8.data)).locate false (Path.temporary path) = _ :=
    (hnamed htemporary).locate (by simp)
  have hdirectory : (t.insert store (.file text.toUTF8.data)).get? (here ++ [name]) = some .directory
      ↔ t.get? (here ++ [name]) = some .directory := by
    rw [← hstore.get?_insert_iff (by simp), hcalm.afterWrite]
  rw [hentry] at hfound
  rw [storeText, bind_apply, Run.at_apply, hwrite]
  dsimp only
  rw [Run.at_apply, (hnamed htarget).rename hplain hfound hmoved]
  by_cases hthere : t.get? (here ++ [name]) = some .directory
  · rw [if_pos hthere, if_pos (hdirectory.mpr hthere)]
  · rw [if_neg hthere, if_neg (mt hdirectory.mp hthere)]

section Notes

variable {entries : List (Place × Entry)} {mishaps : List (Option Mishap)}

theorem notes_temporary : Path.temporary "notes.rs" = "notes.tmp"
    ∧ Path.temporaryName "notes.rs" = "notes.tmp" := by decide

theorem notes_namedIn : NamedIn ⟨[], entries, mishaps⟩ "notes.rs" [] "notes.rs"
    ∧ NamedIn ⟨[], entries, mishaps⟩ "notes.tmp" [] "notes.tmp" := by
  have hstart : ∀ path ∈ ["notes.rs", "notes.tmp"], startOf [] path = [] := by decide
  refine ⟨⟨by decide, by decide, [], linkLimit, by decide, ?_⟩,
    ⟨by decide, by decide, [], linkLimit, by decide, ?_⟩⟩ <;> rw [hstart _ (by decide)] <;>
    exact .here _ _

/-- A note is stored without any directory to make. -/
theorem replaceFile_note (text : String) : replaceFile "notes.rs" text ⟨[], entries, mishaps⟩
    = storeText "notes.rs" text ⟨[], entries, mishaps⟩ := by
  have hparent : makeParent "notes.rs" ⟨[], entries, mishaps⟩
      = (.ok (), ⟨[], entries, mishaps⟩) := by
    rw [Run.makeParent_apply, show Path.parent? "notes.rs" = some "" by decide]
    rfl
  have hrun := bind_apply (makeParent "notes.rs") (fun _ => storeText "notes.rs" text)
    ⟨[], entries, mishaps⟩
  rw [hparent] at hrun
  exact hrun

theorem replaceFile_notes (hstore : StoresAt ⟨[], entries, []⟩ "notes.tmp" store)
    (hentry : (FileTree.insert ⟨[], entries, []⟩ store (.file text.toUTF8.data)).get? ["notes.tmp"]
      = some entry) (hmoved : entry ≠ .directory) :
    replaceFile "notes.rs" text ⟨[], entries, []⟩
      = if FileTree.get? ⟨[], entries, []⟩ ["notes.rs"] = some .directory then
        (.error ⟨"notes.rs", occupied "notes.rs"⟩,
          FileTree.insert ⟨[], entries, []⟩ store (.file text.toUTF8.data))
      else (.ok (), ((FileTree.insert ⟨[], entries, []⟩ store (.file text.toUTF8.data)).erase
        ["notes.tmp"]).insert ["notes.rs"] entry) := by
  obtain ⟨htarget, htemporary⟩ := @notes_namedIn entries []
  obtain ⟨htemp, hname⟩ := notes_temporary
  rw [← hname] at hentry
  rw [← htemp] at hstore
  have hstored : storeText "notes.rs" text ⟨[], entries, []⟩ = _ :=
    storeText_apply htarget (by rwa [htemp, hname]) (by decide) hstore hentry hmoved rfl
  rw [hname] at hstored
  exact (replaceFile_note text).trans hstored

/-- A note is not stored where something befalls the write. -/
theorem replaceFile_unstored {e : Fault} {t' : FileTree}
    (hstore : StoresAt ⟨[], entries, mishaps⟩ "notes.tmp" place)
    (hfault : FileTree.store place text.toUTF8.data ⟨[], entries, mishaps⟩ = (.error e, t')) :
    replaceFile "notes.rs" text ⟨[], entries, mishaps⟩ = (.error ⟨"notes.tmp", e⟩, t') := by
  rw [replaceFile_note, storeText, bind_apply, Run.at_apply, notes_temporary.1, hstore.writeFile, hfault]

end Notes

/-- A file, and a file that happens to bear its temporary name. -/
def besideTree : FileTree := ⟨[], [(["notes.rs"], .file #[]), (["notes.tmp"], .file #[])], []⟩

/-- A directory in the place of the file. -/
def takenTree : FileTree := ⟨[], [(["notes.rs"], .directory), (["notes.tmp"], .file #[])], []⟩

/-- A link in the place of the temporary file. -/
def linkedTree : FileTree :=
  ⟨[], [(["notes.tmp"], .link "other.rs"), (["other.rs"], .file #[])], []⟩

/-- No room is left behind the first byte. -/
def crampedTree : FileTree :=
  ⟨[], [(["notes.rs"], .file #[]), (["notes.tmp"], .file #[])], [some (.cutShort 1 .noSpace)]⟩

theorem linkedTree_storesAt : linkedTree.StoresAt "notes.tmp" ["other.rs"] := by
  have hpieces : Path.pieces "notes.tmp" = ["notes.tmp"]
    ∧ Path.pieces "other.rs" ++ [] = ["other.rs"] := by decide
  have htext : textFault? "notes.tmp" = none ∧ startOf [] "notes.tmp" = []
    ∧ ¬Path.isAbsolute "other.rs" = true := by decide
  have hlink : linkedTree.get? ([] ++ ["notes.tmp"]) = some (.link "other.rs") := rfl
  have hfile : linkedTree.get? ([] ++ ["other.rs"]) = some (.file #[]) := rfl
  refine .inl ⟨#[], ?_⟩
  rw [locate_eq, htext.1]
  dsimp only
  rw [hpieces.1, show startOf linkedTree.workingDirectory "notes.tmp" = [] from htext.2.1, linkLimit,
    walk_name (by decide), hlink]
  dsimp only
  rw [if_neg (by decide), if_neg htext.2.2, hpieces.2, walk_name (by decide), hfile]
  rfl

/-- Where another file bears the temporary name, a replacement that goes well removes that file, and
one that fails leaves the text in it, or the beginning of the text; where a link bears it, the text goes
to another file. -/
theorem replaceFile_beside :
    (∃ t', replaceFile "notes.rs" "new" besideTree = (.ok (), t')
      ∧ besideTree.get? ["notes.tmp"] = some (.file #[]) ∧ t'.get? ["notes.tmp"] = none)
    ∧ (∃ t', replaceFile "notes.rs" "new" linkedTree = (.ok (), t')
      ∧ linkedTree.get? ["other.rs"] = some (.file #[])
      ∧ t'.get? ["other.rs"] = some (.file #[110, 101, 119])
      ∧ t'.get? ["notes.rs"] = some (.link "other.rs"))
    ∧ (∃ f t', replaceFile "notes.rs" "new" takenTree = (.error f, t')
      ∧ takenTree.get? ["notes.tmp"] = some (.file #[])
      ∧ t'.get? ["notes.tmp"] = some (.file #[110, 101, 119]))
    ∧ ∃ f t', replaceFile "notes.rs" "new" crampedTree = (.error f, t')
      ∧ crampedTree.get? ["notes.tmp"] = some (.file #[])
      ∧ t'.get? ["notes.tmp"] = some (.file #[110]) := by
  have hfile : ∀ entries mishaps, FileTree.get? ⟨[], entries, mishaps⟩ ["notes.tmp"]
      = some (.file #[]) → StoresAt ⟨[], entries, mishaps⟩ "notes.tmp" ["notes.tmp"] :=
    fun entries mishaps hget => by
      have hlocate : FileTree.locate ⟨[], entries, mishaps⟩ true "notes.tmp" = _ :=
        notes_namedIn.2.locate (by simp [hget])
      exact .inl ⟨#[], hlocate.trans (by rw [List.nil_append, hget])⟩
  have htext : "new".toUTF8.data = #[110, 101, 119] := by decide
  refine ⟨⟨_, (replaceFile_notes (hfile _ _ rfl) rfl (by simp)).trans (if_neg (by decide)), rfl, ?_⟩,
    ⟨_, (replaceFile_notes linkedTree_storesAt rfl (by simp)).trans (if_neg (by decide)), rfl, ?_, ?_⟩,
    ⟨_, _, (replaceFile_notes (hfile _ _ rfl) rfl (by simp)).trans (if_pos rfl), rfl, ?_⟩,
    _, _, replaceFile_unstored (hfile _ _ rfl) (by rw [htext]; rfl), rfl, ?_⟩
  · rw [htext]
    decide
  · rw [htext]
    decide
  · rw [htext]
    decide
  · rw [htext]
    decide
  · decide

end Replace

end RestForge.FileTree
