import RestForge.Proofs.OutputPaths
import RestForge.Proofs.Places

/-!
# What writing leaves in the output

The files of a run are replaced one after another, and what was replaced before a failure stays.

* `fileAt?`: what stands at a place below the output root; `PlainOutput`: no link is met there.
* `Kept`: the places of files below the root at which nothing has changed.
* `replaceFile_cases`: a file is replaced, or stays with its temporary file as it was, or written in
  full or in part.
* `writeFiles_kept`, `writeFiles_stopped`: what a list of files leaves, and where it stopped.
-/

set_option autoImplicit false

namespace RestForge

namespace FileTree

/-! ## Paths below a root -/

namespace Path

theorem base_eq (root : String) : root = "" ∧ base root = ""
    ∨ ∃ prior, base root = prior ++ "/" ∧ (root = prior ∧ root ≠ "" ∨ root = prior ++ "/") := by
  unfold base push
  split
  · rename_i h
    rw [Bool.or_eq_true, String.isEmpty_iff, beq_iff_eq] at h
    obtain rfl | h := h
    · exact .inl ⟨rfl, rfl⟩
    · obtain ⟨cs, hcs⟩ := List.getLast?_eq_some_iff.mp h
      have hroot : root = String.ofList cs ++ "/" := by
        apply String.toList_injective
        simp [hcs]
      exact .inr ⟨String.ofList cs, by rw [String.append_empty, hroot], .inr hroot⟩
  · rename_i h
    rw [Bool.or_eq_true, not_or, String.isEmpty_iff] at h
    exact .inr ⟨root, by rw [String.append_empty], .inl ⟨rfl, h.1⟩⟩

theorem pieces_append (prior rest : String) :
    pieces (prior ++ "/" ++ rest) = pieces prior ++ pieces rest := Text.split_append '/' prior rest

section Names

variable (root : String) {names : List String} (hne : names ≠ []) (hnames : ∀ n ∈ names, IsName n)

include hne hnames

/-- The pieces of a joined path lead to the root first. -/
theorem pieces_join : ∃ ps, pieces (join root names) = ps ++ names ∧ ps <+: pieces root
    ∧ ∀ here, goes here ps = goes here (pieces root) := by
  have htail : pieces (String.intercalate "/" names) = names :=
    Text.split_intercalate (fun n hn => (hnames n hn).noSlash) hne
  have hempty : pieces "" = [""] := by decide
  have hidle : ∀ p ∈ [""], isIdle p = true := by decide
  rw [join_eq root hne hnames]
  obtain ⟨rfl, hbase⟩ | ⟨prior, hbase, ⟨rfl, -⟩ | rfl⟩ := base_eq root
  · exact ⟨[], by rw [hbase, String.empty_append, htail, List.nil_append], List.nil_prefix,
      fun here => by rw [hempty, goes_idle hidle]; rfl⟩
  · exact ⟨pieces root, by rw [hbase, pieces_append, htail], List.prefix_rfl, fun _ => rfl⟩
  · have hroot : pieces (prior ++ "/") = pieces prior ++ [""] := by
      rw [← hempty, ← pieces_append, String.append_empty]
    exact ⟨pieces prior, by rw [hbase, pieces_append, htail], hroot ▸ List.prefix_append _ _,
      fun here => by rw [hroot, goes_append, goes_idle hidle]⟩

theorem isAbsolute_join : isAbsolute (join root names) = isAbsolute root := by
  by_cases hroot : root = ""
  · subst hroot
    have hpieces : pieces (join "" names) = names := by
      rw [join_eq "" hne hnames]
      exact Text.split_intercalate (fun n hn => (hnames n hn).noSlash) hne
    rw [Bool.eq_iff_iff, isAbsolute_iff, hpieces]
    refine ⟨fun ⟨p, ps, he⟩ => ?_, fun h => by cases h⟩
    exact absurd rfl (hnames "" (by rw [he]; exact List.mem_cons_self)).nonempty
  · obtain ⟨more, hmore⟩ : ∃ more, (join root names).toList = root.toList ++ more := by
      rw [join_eq root hne hnames, base]
      unfold push
      split
      · exact ⟨_, by rw [String.append_empty, String.toList_append]⟩
      · exact ⟨_, by rw [String.append_empty, String.append_assoc, String.toList_append]⟩
    obtain ⟨c, cs, hcs⟩ := List.exists_cons_of_ne_nil
      (fun he => hroot (String.toList_injective he) : root.toList ≠ [])
    rw [isAbsolute, isAbsolute, hmore, hcs]
    rfl

variable {directory : Place}

theorem startOf_join : startOf directory (join root names) = startOf directory root := by
  rw [startOf, startOf, isAbsolute_join root hne hnames]

theorem placeOf_join :
    placeOf directory (join root names) = placeOf directory root ++ names := by
  obtain ⟨ps, hps, -, hgoes⟩ := pieces_join root hne hnames
  rw [placeOf, startOf_join root hne hnames, hps, goes_append, hgoes, goes_names hnames]
  rfl

/-- What the first pieces of a joined path lead to is on the way of the root, or below the root. -/
theorem below_join {dirs before : List String} (hdirs : dirs <+: names)
    (hbefore : ∀ ps, pieces (join root names) = ps ++ names → before <+: ps ++ dirs) :
    OnWay directory root (goes (startOf directory (join root names)) before)
    ∨ ∃ qs, qs <+: dirs ∧ goes (startOf directory (join root names)) before
      = placeOf directory root ++ qs := by
  obtain ⟨ps, hps, hroot, hgoes⟩ := pieces_join root hne hnames
  have hstart : startOf directory (join root names) = startOf directory root :=
    startOf_join root hne hnames
  rw [hstart]
  obtain h | ⟨qs, rfl⟩ :=
    List.prefix_or_prefix_of_prefix (hbefore ps hps) (List.prefix_append ps dirs)
  · exact .inl ⟨before, h.trans hroot, rfl⟩
  · have hqs : qs <+: dirs := (List.prefix_append_right_inj ps).mp (hbefore ps hps)
    have hname : ∀ n ∈ qs, IsName n := fun n hn => hnames n ((hqs.trans hdirs).subset hn)
    exact .inr ⟨qs, hqs, by rw [goes_append, hgoes, goes_names hname]; rfl⟩

theorem onWay_join {place : Place} (h : OnWay directory (join root names) place) :
    OnWay directory root place ∨ ∃ qs, qs <+: names ∧ place = placeOf directory root ++ qs := by
  obtain ⟨before, hbefore, rfl⟩ := h
  exact below_join root hne hnames List.prefix_rfl fun ps hps => hps ▸ hbefore

end Names

/-- The directories that are made for a file are on the way of the root, or lead from there to the
file. -/
theorem onWay_parent_join {root above : String} {dir : List String} {name : String}
    (hnames : ∀ n ∈ dir ++ [name], IsName n) {directory place : Place}
    (hparent : parent? (join root (dir ++ [name])) = some above) (hne : above ≠ "")
    (h : OnWay directory above place) :
    OnWay directory root place ∨ ∃ qs, qs <+: dir ∧ place = placeOf directory root ++ qs := by
  obtain ⟨before, hbefore, rfl⟩ := onWay_parent hparent hne h
  refine below_join root (by simp) hnames (List.prefix_append dir [name]) fun ps hps => ?_
  rwa [hps, ← List.append_assoc, List.dropLast_concat] at hbefore

theorem parent?_ne {path parent : String} (h : parent? path = some parent)
    (hlast : (pieces path).getLast? ≠ some "") : parent ≠ path := by
  rintro rfl
  have hempty : pieces "" = [""] := by decide
  have hne : parent ≠ "" := by
    rintro rfl
    exact hlast (by rw [hempty]; rfl)
  obtain ⟨-, hpieces | ⟨-, rfl⟩⟩ := parent?_pieces h hne
  · have hnil : pieces parent ≠ [] := Text.split_ne_nil '/' parent
    have hlen := hpieces.length_le
    have hpos := List.length_pos_iff.mpr hnil
    rw [List.length_dropLast] at hlen
    omega
  · exact hlast (by decide)

end Path

end FileTree

namespace Run

open FileTree (Changed ClearWay OnWay placeOf WriteFailure makeParent replaceFile)
open FileTree.Path (IsName temporaryName temporary_join join parent?)

/-! ## Places below the output root -/

/-- What stands at a place below the output root, as long as no link is met there. -/
def fileAt? (t : FileTree) (root : String) (p : List String) : Option FileTree.Entry :=
  t.get? (placeOf t.workingDirectory root ++ p)

def temporaryOf (p : List String) : List String :=
  p.dropLast ++ (p.getLast?.map temporaryName).toList

@[simp] theorem temporaryOf_concat (dir : List String) (name : String) :
    temporaryOf (dir ++ [name]) = dir ++ [temporaryName name] := by
  simp [temporaryOf]

/-- A file and its temporary file. -/
def Pair (p q : List String) : Prop := q = p ∨ q = temporaryOf p

/-- A directory, a file or a temporary file of some run. -/
def IsOutputPlace (p : List String) : Prop := IsSourceDir p ∨ ∃ q, IsSourceFile q ∧ Pair q p

/-- No link lies on the way of the output root or at a place below it that runs write to, and the way
does not come from below. -/
structure PlainOutput (t : FileTree) (root : String) : Prop where
  way : ClearWay t root
  below : ∀ p, IsOutputPlace p → ∀ target, fileAt? t root p ≠ some (.link target)
  outside : ∀ p, p ≠ [] →
    ¬OnWay t.workingDirectory root (placeOf t.workingDirectory root ++ p)

theorem isSourceDir_of_above {dir above : List String} (h : IsSourceDir dir)
    (hpart : above <+: dir) : IsSourceDir above := by
  cases above with
  | nil => exact .inl rfl
  | cons first above =>
    obtain rfl | rfl | ⟨c, mods, rfl, hmods⟩ := h
    · exact absurd (List.prefix_nil.mp hpart) (List.cons_ne_nil _ _)
    · obtain ⟨rfl, habove⟩ := List.cons_prefix_cons.mp hpart
      rw [List.prefix_nil.mp habove]
      exact .inr (.inl rfl)
    · obtain ⟨rfl, habove⟩ := List.cons_prefix_cons.mp hpart
      cases above with
      | nil => exact .inr (.inl rfl)
      | cons category above =>
        obtain ⟨rfl, hbelow⟩ := List.cons_prefix_cons.mp habove
        exact .inr (.inr ⟨c, above, rfl, fun m hm => hmods m (hbelow.subset hm)⟩)

/-- The last name has an extension, as the names of files have and those of directories have not. -/
def IsFilePlace (p : List String) : Prop := ∃ dir name, p = dir ++ [name] ∧ '.' ∈ name.toList

/-- Files below the output root are as they were, but for those that were written. -/
structure Kept (root : String) (written : List String → Prop) (t t' : FileTree) : Prop where
  directory : t'.workingDirectory = t.workingDirectory
  links : ∀ p target, t'.get? p = some (.link target) → t.get? p = some (.link target)
  files : ∀ p, IsFilePlace p → ¬written p → fileAt? t' root p = fileAt? t root p

section Kept

variable {root : String} {written written' : List String → Prop} {t t' t'' : FileTree}

theorem Kept.refl (t : FileTree) : Kept root written t t := ⟨rfl, fun _ _ h => h, fun _ _ _ => rfl⟩

theorem Kept.trans (h : Kept root written t t') (h' : Kept root written t' t'') :
    Kept root written t t'' :=
  ⟨h'.directory.trans h.directory, fun p target hlink => h.links p target (h'.links p target hlink),
    fun p hp hw => (h'.files p hp hw).trans (h.files p hp hw)⟩

theorem Kept.mono (h : Kept root written t t') (hle : ∀ p, written p → written' p) :
    Kept root written' t t' :=
  ⟨h.directory, h.links, fun p hp hw => h.files p hp fun hw' => hw (hle p hw')⟩

theorem Kept.plain (h : Kept root written t t') (hplain : PlainOutput t root) :
    PlainOutput t' root := by
  refine ⟨fun place hway target hlink => ?_, fun p hp target hlink => ?_, fun p hp hway => ?_⟩
  · exact hplain.way place (h.directory ▸ hway) target (h.links _ _ hlink)
  · rw [fileAt?, h.directory] at hlink
    exact hplain.below p hp target (h.links _ _ hlink)
  · rw [h.directory] at hway
    exact hplain.outside p hp hway

theorem kept_of_changed {places : FileTree.Place → Prop} (h : Changed places t t')
    (hplaces : ∀ p, IsFilePlace p → places (placeOf t.workingDirectory root ++ p) → written p) :
    Kept root written t t' :=
  ⟨h.directory, h.links, fun p hp hw => by
    rw [fileAt?, fileAt?, h.directory]
    exact h.elsewhere _ fun hplace => hw (hplaces p hp hplace)⟩

theorem Kept.afterWrite (h : Kept root written t t') : Kept root written t t'.afterWrite := by
  refine ⟨h.directory, fun p target hlink => ?_, fun p hp hw => ?_⟩
  · rw [FileTree.get?_afterWrite] at hlink
    exact h.links p target hlink
  · rw [fileAt?, FileTree.get?_afterWrite]
    exact h.files p hp hw

end Kept

/-! ## Files and their temporary files -/

theorem undotted_of_isSourceDir {dir : List String} (h : IsSourceDir dir) :
    ∀ d ∈ dir, '.' ∉ d.toList := by
  have hsrc : '.' ∉ "src".toList := by decide
  have htext : ∀ c : Category, '.' ∉ c.text.toList := by
    intro c
    cases c <;> decide
  obtain rfl | rfl | ⟨c, mods, rfl, hmods⟩ := h
  · simp
  · intro d hd
    obtain rfl := List.mem_singleton.mp hd
    exact hsrc
  · intro d hd
    obtain rfl | rfl | hd := by simpa using hd
    · exact hsrc
    · exact htext c
    · exact (hmods d hd).notMem (by decide)

theorem dotted_of_mem_fileNames {n : String} (h : n ∈ fileNames) :
    '.' ∈ n.toList ∧ '.' ∈ (temporaryName n).toList := by
  have hall : ∀ n ∈ fileNames, '.' ∈ n.toList ∧ '.' ∈ (temporaryName n).toList := by decide
  exact hall n h

/-- A file with a name that files of a run have. -/
def HasFileName (p : List String) : Prop := ∃ dir name, p = dir ++ [name] ∧ name ∈ fileNames

section FileName

variable {p q : List String} (hp : HasFileName p)

include hp

theorem isFilePlace_of_pair (hq : Pair p q) : IsFilePlace q := by
  obtain ⟨dir, name, rfl, hname⟩ := hp
  obtain ⟨hdot, hdot'⟩ := dotted_of_mem_fileNames hname
  obtain rfl | rfl := hq
  · exact ⟨dir, name, rfl, hdot⟩
  · exact ⟨dir, temporaryName name, temporaryOf_concat dir name, hdot'⟩

theorem temporaryOf_ne : temporaryOf p ≠ p := by
  obtain ⟨dir, name, rfl, hname⟩ := hp
  rw [temporaryOf_concat]
  intro he
  have hsame : temporaryName name = name := List.head_eq_of_cons_eq (List.append_cancel_left he)
  refine temporaryName_notMem hname ?_
  rw [hsame]
  exact hname

/-- Different files share no temporary file, and none is the temporary file of another. -/
theorem pair_apart {p' : List String} (hp' : HasFileName p') (hne : p ≠ p') (hq : Pair p q) :
    ¬Pair p' q := by
  obtain ⟨dir, name, rfl, hname⟩ := hp
  obtain ⟨dir', name', rfl, hname'⟩ := hp'
  have hsplit : ∀ {d d' : List String} {n n' : String}, d ++ [n] = d' ++ [n'] → d = d' ∧ n = n' :=
    fun he => ⟨(List.append_inj' he rfl).1, List.head_eq_of_cons_eq (List.append_inj' he rfl).2⟩
  obtain rfl | rfl := hq <;> rintro (he | he)
  · exact hne he
  · rw [temporaryOf_concat] at he
    obtain ⟨-, rfl⟩ := hsplit he
    exact temporaryName_notMem hname' hname
  · rw [temporaryOf_concat] at he
    obtain ⟨-, rfl⟩ := hsplit he
    exact temporaryName_notMem hname hname'
  · rw [temporaryOf_concat, temporaryOf_concat] at he
    obtain ⟨rfl, hsame⟩ := hsplit he
    exact hne (by rw [temporaryName_injective hname hname' hsame])

end FileName

section SourceFile

variable {p q : List String}

theorem hasFileName_of_isSourceFile (hp : IsSourceFile p) : HasFileName p := by
  obtain ⟨dir, name, he, -, hname⟩ := hp
  exact ⟨dir, name, he, hname⟩

theorem isName_of_pair (hp : IsSourceFile p) (hq : Pair p q) : q ≠ [] ∧ ∀ n ∈ q, IsName n := by
  obtain ⟨dir, name, rfl, hdir, hname⟩ := hp
  obtain ⟨hfile, htemp⟩ := isName_of_mem_fileNames hname
  have hall : ∀ {last}, IsName last → ∀ n ∈ dir ++ [last], IsName n := by
    intro last hlast n hn
    obtain hn | hn := List.mem_append.mp hn
    · exact isName_of_isSourceDir hdir n hn
    · rw [List.mem_singleton.mp hn]
      exact hlast
  obtain rfl | rfl := hq
  · exact ⟨by simp, hall hfile⟩
  · rw [temporaryOf_concat]
    exact ⟨by simp, hall htemp⟩

/-- What leads to a file is a directory of the run, or the file. -/
theorem isOutputPlace_of_above (hp : IsSourceFile p) (hq : Pair p q) {above : List String}
    (habove : above <+: q) : IsOutputPlace above := by
  by_cases he : above = q
  · exact .inr ⟨p, hp, he ▸ hq⟩
  · obtain ⟨dir, name, rfl, hdir, -⟩ := id hp
    have hshort : ∀ last, q = dir ++ [last] → above <+: dir := by
      rintro last rfl
      refine List.prefix_of_prefix_length_le habove (List.prefix_append dir [last]) ?_
      have hlen := habove.length_le
      have hne : above.length ≠ (dir ++ [last]).length := fun hlen => he (habove.eq_of_length hlen)
      simp only [List.length_append, List.length_singleton] at hlen hne
      omega
    refine .inl (isSourceDir_of_above hdir ?_)
    obtain rfl | rfl := hq
    · exact hshort name rfl
    · exact hshort _ (temporaryOf_concat dir name)

theorem PlainOutput.clearWay {t : FileTree} {root : String} (h : PlainOutput t root)
    (hp : IsSourceFile p) (hq : Pair p q) : ClearWay t (join root q) := by
  obtain ⟨hne, hnames⟩ := isName_of_pair hp hq
  intro place hway
  obtain hroot | ⟨qs, hqs, rfl⟩ := FileTree.Path.onWay_join root hne hnames hway
  · exact h.way place hroot
  · exact h.below qs (isOutputPlace_of_above hp hq hqs)

theorem temporary_join_sourceFile (hp : IsSourceFile p) (root : String) :
    FileTree.Path.temporary (join root p) = join root (temporaryOf p) := by
  obtain ⟨dir, name, rfl, -, hname⟩ := hp
  rw [temporary_join root dir (isName_of_mem_fileNames hname).1, temporaryOf_concat]

theorem dropSlashes_append_name (prior : String) {name : String} (h : IsName name) :
    FileTree.dropSlashes (prior ++ name) = prior ++ name := by
  have hne : name.toList ≠ [] := by simpa using h.nonempty
  obtain ⟨cs, c, hcs⟩ : ∃ cs c, name.toList = cs ++ [c] :=
    ⟨_, _, (List.dropLast_append_getLast hne).symm⟩
  have hc : (c == '/') = false := by
    rw [beq_eq_false_iff_ne]
    rintro rfl
    exact h.noSlash (by rw [hcs]; simp)
  apply String.toList_injective
  simp [FileTree.dropSlashes, Text.trimEndWhere, Text.dropEndWhile, hcs, hc]

/-- The last piece of the path of a file is the name of the file. -/
theorem lastName_join (hp : IsSourceFile p) (root : String) :
    FileTree.dropSlashes (join root p) = join root p
      ∧ (FileTree.Path.pieces (join root p)).getLast? ≠ some "" := by
  obtain ⟨hne, hnames⟩ := isName_of_pair hp (.inl rfl)
  obtain ⟨dir, name, rfl, -, hname⟩ := hp
  have hfile := (isName_of_mem_fileNames hname).1
  constructor
  · have hpush : join root (dir ++ [name]) = FileTree.Path.base (join root dir) ++ name := by
      rw [← FileTree.Path.push_eq]
      exact List.foldl_append
    rw [hpush, dropSlashes_append_name _ hfile]
  · obtain ⟨ps, hps, -⟩ := FileTree.Path.pieces_join root hne hnames
    rw [hps, ← List.append_assoc, List.getLast?_concat]
    exact fun he => hfile.nonempty (Option.some.inj he)

end SourceFile

/-! ## Replacing a file -/

theorem at_apply {α : Type} (access : FileTree.Access α) (path : String) (t : FileTree) :
    access.at path t = match access t with
      | (.ok value, t') => (.ok value, t')
      | (.error fault, t') => (.error ⟨path, fault⟩, t') := rfl

/-- The new text is in place, and the temporary file is gone. -/
structure Replaced (root : String) (p : List String) (text : String) (t : FileTree) : Prop where
  target : fileAt? t root p = some (.file text.toUTF8.data)
  temporary : fileAt? t root (temporaryOf p) = none

/-- What a failure leaves of the temporary file: all of the text if the path of the file itself
failed, and else what was there, or the part of the text that was stored until the write failed. -/
inductive Leftover (root : String) (p : List String) (text : String) (f : WriteFailure)
    (t t' : FileTree) : Prop where
  | unmoved (failed : f.path = join root p)
      (holds : fileAt? t' root (temporaryOf p) = some (.file text.toUTF8.data))
  | torn {bytes : Array UInt8} (failed : f.path = join root (temporaryOf p))
      (part : FileTree.Torn text bytes)
      (holds : fileAt? t' root (temporaryOf p) = some (.file bytes))
  | same (failed : f.path ≠ join root p)
      (kept : fileAt? t' root (temporaryOf p) = fileAt? t root (temporaryOf p))

/-- The file is as it was. -/
structure Unreplaced (root : String) (p : List String) (text : String) (f : WriteFailure)
    (t t' : FileTree) : Prop where
  target : fileAt? t' root p = fileAt? t root p
  temporary : Leftover root p text f t t'

/-- Bytes stored in one place below the root change no other. -/
theorem Kept.insert {root : String} {t t₁ : FileTree} (h : Kept root (fun _ => False) t t₁)
    {p : List String} (hroot : placeOf t₁.workingDirectory root ++ p ≠ []) (bytes : Array UInt8) :
    Kept root (· = p) t (t₁.insert (placeOf t₁.workingDirectory root ++ p) (.file bytes)) :=
  (h.mono fun _ hw => hw.elim).trans
    (kept_of_changed (FileTree.changed_insert hroot (by simp)) fun _ _ he => List.append_cancel_left he)

/-- A failure before anything was written leaves the file and its temporary file. -/
theorem Kept.unreplaced {root : String} {t t' : FileTree} (h : Kept root (fun _ => False) t t')
    {p : List String} (hp : IsSourceFile p) (text : String) {f : WriteFailure}
    (hf : f.path ≠ join root p) : Kept root (Pair p) t t' ∧ Unreplaced root p text f t t' := by
  have hname := hasFileName_of_isSourceFile hp
  refine ⟨h.mono fun _ hw => hw.elim, ?_, .same hf ?_⟩
  · exact h.files p (isFilePlace_of_pair hname (.inl rfl)) fun hw => hw
  · exact h.files _ (isFilePlace_of_pair hname (.inr rfl)) fun hw => hw

section Replace

variable {t : FileTree} {root : String} {p : List String} (text : String)
  (hplain : PlainOutput t root) (hp : IsSourceFile p)

include hplain hp

omit text in
theorem makeParent_kept : Kept root (fun _ => False) t (makeParent (join root p) t).2
    ∧ ∀ f, (makeParent (join root p) t).1 = .error f → f.path ≠ join root p := by
  obtain ⟨-, hnames⟩ := isName_of_pair hp (.inl rfl)
  have hlast := (lastName_join hp root).2
  unfold makeParent
  cases hparent : parent? (join root p) with
  | none => exact ⟨.refl t, fun f h => by cases h⟩
  | some above =>
    by_cases hempty : above.isEmpty = true
    · dsimp only
      rw [if_pos hempty]
      exact ⟨.refl t, fun f h => by cases h⟩
    · have hne : above ≠ "" := by simpa using hempty
      obtain ⟨dir, name, rfl, hdir, -⟩ := hp
      have hway : ∀ place, OnWay t.workingDirectory above place →
          OnWay t.workingDirectory root place
            ∨ ∃ qs, qs <+: dir ∧ place = placeOf t.workingDirectory root ++ qs :=
        fun place h => FileTree.Path.onWay_parent_join hnames hparent hne h
      have hclear : ClearWay t above := by
        intro place h
        obtain hroot | ⟨qs, hqs, rfl⟩ := hway place h
        · exact hplain.way place hroot
        · exact hplain.below qs (.inl (isSourceDir_of_above hdir hqs))
      -- what is made is a directory above the file, whose name has no extension
      have hdirs : ∀ q, IsFilePlace q →
          OnWay t.workingDirectory above (placeOf t.workingDirectory root ++ q) → False := by
        rintro q ⟨dir', name', rfl, hdot⟩ h
        obtain hroot | ⟨qs, hqs, he⟩ := hway _ h
        · exact hplain.outside _ (by simp) hroot
        · obtain rfl := List.append_cancel_left he
          exact undotted_of_isSourceDir hdir name' (hqs.subset (by simp)) hdot
      have hkept := kept_of_changed (FileTree.makeDirectories_within t ⟨rfl, hclear⟩).1 hdirs
      dsimp only
      rw [if_neg hempty, at_apply]
      rcases hrun : FileTree.makeDirectories above t with ⟨e | u, t'⟩ <;> rw [hrun] at hkept
      · refine ⟨hkept, fun f h => ?_⟩
        cases h
        exact FileTree.Path.parent?_ne hparent hlast
      · exact ⟨hkept, fun f h => by cases h⟩

/-- The temporary file is moved to the file, or stays. -/
theorem moveTemporary_cases {t₁ : FileTree} (hkept : Kept root (fun _ => False) t t₁)
    (hroot : placeOf t₁.workingDirectory root ++ temporaryOf p ≠ []) :
    let t₂ := t₁.insert (placeOf t₁.workingDirectory root ++ temporaryOf p)
      (.file text.toUTF8.data)
    ∃ t', Kept root (Pair p) t t'
      ∧ ((FileTree.rename (join root (temporaryOf p)) (join root p) t₂ = (.ok (), t')
          ∧ Replaced root p text t')
        ∨ ∃ e, FileTree.rename (join root (temporaryOf p)) (join root p) t₂ = (.error e, t')
          ∧ Unreplaced root p text ⟨join root p, e⟩ t t') := by
  intro t₂
  obtain ⟨hne, hnames⟩ := isName_of_pair hp (.inl rfl)
  obtain ⟨hne', hnames'⟩ := isName_of_pair hp (.inr rfl)
  have hapart : temporaryOf p ≠ p := temporaryOf_ne (hasFileName_of_isSourceFile hp)
  have htarget : IsFilePlace p :=
    isFilePlace_of_pair (hasFileName_of_isSourceFile hp) (.inl rfl)
  have hdirectory : t₂.workingDirectory = t₁.workingDirectory := rfl
  have hfirst : Kept root (· = temporaryOf p) t t₂ := hkept.insert hroot text.toUTF8.data
  have hplain₂ : PlainOutput t₂ root := hfirst.plain hplain
  have hplace : placeOf t₂.workingDirectory (join root (temporaryOf p))
      = placeOf t₁.workingDirectory root ++ temporaryOf p :=
    FileTree.Path.placeOf_join root hne' hnames'
  have hgoal : placeOf t₂.workingDirectory (join root p)
      = placeOf t₁.workingDirectory root ++ p := FileTree.Path.placeOf_join root hne hnames
  have hthere : t₂.get? (placeOf t₁.workingDirectory root ++ temporaryOf p)
      = some (.file text.toUTF8.data) := by
    rw [FileTree.get?_insert hroot, if_pos rfl]
  obtain ⟨e, hmove⟩ | ⟨hgoal', hmove⟩ := FileTree.rename_cases (hplain₂.clearWay hp (.inr rfl))
    (hplain₂.clearWay hp (.inl rfl)) (lastName_join hp root).1 (hplace.symm ▸ hthere)
  · refine ⟨t₂, hfirst.mono fun _ h => .inr h, .inr ⟨e, hmove, ?_, .unmoved rfl hthere⟩⟩
    exact hfirst.files p htarget (Ne.symm hapart)
  · rw [hplace, hgoal] at hmove
    rw [hgoal] at hgoal'
    have herased : Kept root (Pair p) t₂
        (t₂.erase (placeOf t₁.workingDirectory root ++ temporaryOf p)) :=
      kept_of_changed (FileTree.changed_erase hroot) fun q _ he =>
        .inr (List.append_cancel_left he)
    have hmoved : Kept root (Pair p) (t₂.erase (placeOf t₁.workingDirectory root ++ temporaryOf p))
        ((t₂.erase (placeOf t₁.workingDirectory root ++ temporaryOf p)).insert
          (placeOf t₁.workingDirectory root ++ p) (.file text.toUTF8.data)) :=
      kept_of_changed (FileTree.changed_insert hgoal' (by simp)) fun q _ he =>
        .inl (List.append_cancel_left he)
    refine ⟨_, ((hfirst.mono fun _ h => .inr h).trans herased).trans hmoved, .inl ⟨hmove, ?_, ?_⟩⟩
    · exact (FileTree.get?_insert hgoal' _).trans (if_pos rfl)
    · have hother : placeOf t₁.workingDirectory root ++ temporaryOf p
          ≠ placeOf t₁.workingDirectory root ++ p := fun he => hapart (List.append_cancel_left he)
      exact ((FileTree.get?_insert hgoal' _).trans (if_neg hother)).trans
        (FileTree.get?_erase_self hroot)

/-- What stands at the temporary path is written in full, or the file stays. -/
theorem writeTemporary_cases {t₁ : FileTree} (hkept : Kept root (fun _ => False) t t₁) :
    (placeOf t₁.workingDirectory root ++ temporaryOf p ≠ []
      ∧ FileTree.writeFile (join root (temporaryOf p)) text.toUTF8.data t₁
        = (.ok (), t₁.afterWrite.insert (placeOf t₁.workingDirectory root ++ temporaryOf p)
          (.file text.toUTF8.data)))
    ∨ ∃ e t', FileTree.writeFile (join root (temporaryOf p)) text.toUTF8.data t₁ = (.error e, t')
      ∧ Kept root (Pair p) t t' ∧ Unreplaced root p text ⟨join root (temporaryOf p), e⟩ t t' := by
  obtain ⟨hne, hnames⟩ := isName_of_pair hp (.inl rfl)
  obtain ⟨hne', hnames'⟩ := isName_of_pair hp (.inr rfl)
  have hapart : temporaryOf p ≠ p := temporaryOf_ne (hasFileName_of_isSourceFile hp)
  have hpath : join root (temporaryOf p) ≠ join root p := fun he =>
    hapart (FileTree.Path.join_injective root hne' hne hnames' hnames he)
  have hplace : placeOf t₁.workingDirectory (join root (temporaryOf p))
      = placeOf t₁.workingDirectory root ++ temporaryOf p :=
    FileTree.Path.placeOf_join root hne' hnames'
  obtain ⟨e, hwrite⟩ | ⟨hroot, hwrite⟩ := FileTree.writeFile_cases text.toUTF8.data
    ((hkept.plain hplain).clearWay hp (.inr rfl))
  · exact .inr ⟨e, t₁, hwrite, hkept.unreplaced hp text hpath⟩
  rw [hplace] at hroot hwrite
  rw [hwrite]
  obtain hstore | ⟨e, hstore⟩ | ⟨e, size, hsize, hstore⟩ := FileTree.store_cases
    (placeOf t₁.workingDirectory root ++ temporaryOf p) text.toUTF8.data t₁ <;> rw [hstore]
  · exact .inl ⟨hroot, rfl⟩
  · exact .inr ⟨e, _, rfl, hkept.afterWrite.unreplaced hp text hpath⟩
  · have hwritten := hkept.afterWrite.insert hroot (text.toUTF8.data.take size)
    refine .inr ⟨e, _, rfl, hwritten.mono fun _ h => .inr h, ?_, .torn rfl ⟨size, hsize, rfl⟩ ?_⟩
    · exact hwritten.files p (isFilePlace_of_pair (hasFileName_of_isSourceFile hp) (.inl rfl))
        (Ne.symm hapart)
    · exact (FileTree.get?_insert hroot _).trans (if_pos rfl)

/-- A file is replaced, or a failure leaves it as it was. -/
theorem replaceFile_cases : ∃ t', Kept root (Pair p) t t'
    ∧ (replaceFile (join root p) text t = (.ok (), t') ∧ Replaced root p text t'
      ∨ ∃ f, replaceFile (join root p) text t = (.error f, t') ∧ Unreplaced root p text f t t') := by
  obtain ⟨hkept, hfault⟩ := makeParent_kept hplain hp
  rw [replaceFile, temporary_join_sourceFile hp root, FileTree.bind_apply]
  rcases hparent : makeParent (join root p) t with ⟨f | u, t₁⟩ <;> rw [hparent] at hkept hfault
  · obtain ⟨hkept', hfailed⟩ := hkept.unreplaced hp text (hfault f rfl)
    exact ⟨t₁, hkept', .inr ⟨f, rfl, hfailed⟩⟩
  dsimp only at hkept ⊢
  rw [FileTree.bind_apply, at_apply]
  obtain ⟨hroot, hwrite⟩ | ⟨e, t', hwrite, hkept', hfailed⟩ :=
    writeTemporary_cases text hplain hp hkept <;> rw [hwrite]
  · dsimp only
    rw [at_apply]
    obtain ⟨t', hkept', ⟨hmove, hreplaced⟩ | ⟨e, hmove, hfailed⟩⟩ :=
      moveTemporary_cases text hplain hp hkept.afterWrite hroot <;>
      rw [FileTree.workingDirectory_afterWrite] at hmove <;> rw [hmove]
    · exact ⟨t', hkept', .inl ⟨rfl, hreplaced⟩⟩
    · exact ⟨t', hkept', .inr ⟨_, rfl, hfailed⟩⟩
  · exact ⟨t', hkept', .inr ⟨_, rfl, hfailed⟩⟩

end Replace

/-! ## Replacing a file in a directory that is there -/

/-- The tree after a file was replaced by way of its temporary file. -/
def putFile (t : FileTree) (temporary place : FileTree.Place) (bytes : Array UInt8) : FileTree :=
  ((t.insert temporary (.file bytes)).erase temporary).insert place (.file bytes)

theorem get?_putFile {t : FileTree} {temporary place : FileTree.Place} (htemporary : temporary ≠ [])
    (hplace : place ≠ []) (bytes : Array UInt8) (p : FileTree.Place) :
    (putFile t temporary place bytes).get? p
      = if p = place then some (.file bytes) else if p = temporary then none else t.get? p := by
  rw [putFile, FileTree.get?_insert hplace]
  by_cases hp : p = temporary
  · rw [if_pos hp, hp, FileTree.get?_erase_self htemporary]
  · rw [if_neg hp, FileTree.get?_erase_of_ne hp, FileTree.get?_insert htemporary, if_neg hp]

theorem putFile_directory {t : FileTree} {temporary place p : FileTree.Place}
    (htemporary : t.get? temporary = none) (hplace : t.get? place = none) (bytes : Array UInt8)
    (h : t.get? p = some .directory) :
    (putFile t temporary place bytes).get? p = some .directory := by
  have hne : p ≠ place := by
    rintro rfl
    cases hplace.symm.trans h
  have hne' : p ≠ temporary := by
    rintro rfl
    cases htemporary.symm.trans h
  rw [get?_putFile (FileTree.ne_nil_of_free htemporary) (FileTree.ne_nil_of_free hplace),
    if_neg hne, if_neg hne', h]

theorem hasDirectories_putFile {t : FileTree} {names : List String} (h : t.HasDirectories names)
    {temporary place : FileTree.Place} (htemporary : t.get? temporary = none)
    (hplace : t.get? place = none) (bytes : Array UInt8) :
    (putFile t temporary place bytes).HasDirectories names :=
  fun n hn => putFile_directory htemporary hplace bytes (h n hn)

/-- The path of a file from the working directory, with its temporary file and its directory. -/
structure FilePath (path above : String) (names : List String) (dir name temp : String) : Prop where
  target : FileTree.LeadsTo path (names ++ [dir]) name
  temporary : FileTree.LeadsTo (FileTree.Path.temporary path) (names ++ [dir]) temp
  parent : parent? path = some above
  directory : FileTree.LeadsTo above names dir
  plain : FileTree.dropSlashes path = path

theorem hasDirectories_insert {t : FileTree} {names : List String} (h : t.HasDirectories names)
    {place : FileTree.Place} {entry : FileTree.Entry} (hfree : t.get? place = none) :
    (t.insert place entry).HasDirectories names := by
  intro n hn
  have hdir := h n hn
  have hne : t.workingDirectory ++ names.take (n + 1) ≠ place := by
    intro he
    rw [he, hfree] at hdir
    cases hdir
  exact (FileTree.get?_insert (FileTree.ne_nil_of_free hfree) _).trans ((if_neg hne).trans hdir)

section Present

variable {t : FileTree} {path above dir name temp : String} {names : List String}
  (h : FilePath path above names dir name temp) (hdirs : t.HasDirectories (names ++ [dir]))

include h hdirs

theorem makeParent_there : makeParent path t = (.ok (), t) := by
  have hsome : above.isEmpty = false := h.directory.relative.2.1
  have habove : t.HasDirectories names := by
    intro n hn
    have hdir := hdirs n (by rw [List.length_append]; omega)
    rwa [List.take_append_of_le_length (by omega)] at hdir
  have hdirectory : t.get? (t.workingDirectory ++ names ++ [dir]) = some .directory := by
    have hdir := hdirs names.length (by simp)
    rwa [List.take_of_length_le (by simp), ← List.append_assoc] at hdir
  have hmade : FileTree.makeDirectories above t = (.ok (), t) :=
    FileTree.makeDirectories_there (by simpa using hsome) fun _ =>
      FileTree.locate_directory h.directory habove hdirectory
  rw [makeParent, h.parent]
  dsimp only
  rw [if_neg (by simp [hsome]), at_apply, hmade]

theorem replaceFile_new (text : String)
    (htemporary : t.get? (t.workingDirectory ++ (names ++ [dir]) ++ [temp]) = none)
    (htarget : t.get? (t.workingDirectory ++ (names ++ [dir]) ++ [name]) = none)
    (hne : name ≠ temp) (hcalm : t.Calm) :
    replaceFile path text t = (.ok (),
      putFile t (t.workingDirectory ++ (names ++ [dir]) ++ [temp])
        (t.workingDirectory ++ (names ++ [dir]) ++ [name]) text.toUTF8.data) := by
  have hsome := FileTree.ne_nil_of_free htemporary
  have hother : t.workingDirectory ++ (names ++ [dir]) ++ [name]
      ≠ t.workingDirectory ++ (names ++ [dir]) ++ [temp] := fun he =>
    hne (List.head_eq_of_cons_eq (List.append_cancel_left he))
  let t₂ := t.insert (t.workingDirectory ++ (names ++ [dir]) ++ [temp])
    (.file text.toUTF8.data)
  have hwrite : FileTree.writeFile (FileTree.Path.temporary path) text.toUTF8.data t
      = (.ok (), t₂) := by
    rw [FileTree.writeFile_apply, FileTree.locate_free h.temporary hdirs htemporary]
    exact FileTree.store_calm _ _ hcalm
  have hdirs₂ : t₂.HasDirectories (names ++ [dir]) := hasDirectories_insert hdirs htemporary
  have hfound : t₂.locate false (FileTree.Path.temporary path)
      = .ok (.found (t.workingDirectory ++ (names ++ [dir]) ++ [temp])
        (.file text.toUTF8.data)) :=
    FileTree.locate_file h.temporary hdirs₂ ((FileTree.get?_insert hsome _).trans (if_pos rfl))
  have hgoal : t₂.locate false path
      = .ok (.free (t.workingDirectory ++ (names ++ [dir]) ++ [name]) false) :=
    FileTree.locate_free h.target hdirs₂
      ((FileTree.get?_insert hsome _).trans ((if_neg hother).trans htarget))
  have hmove : FileTree.rename (FileTree.Path.temporary path) path t₂ = (.ok (),
      putFile t (t.workingDirectory ++ (names ++ [dir]) ++ [temp])
        (t.workingDirectory ++ (names ++ [dir]) ++ [name]) text.toUTF8.data) := by
    rw [FileTree.rename_found hfound (by simp), h.plain, hgoal]
    exact FileTree.moveTo_apply _ _ _ h.plain t₂
  rw [replaceFile, FileTree.bind_apply, makeParent_there h hdirs]
  dsimp only
  rw [FileTree.bind_apply, at_apply, hwrite]
  dsimp only
  rw [at_apply, hmove]

theorem replaceFile_blocked (text : String)
    (htemporary : t.get? (t.workingDirectory ++ (names ++ [dir]) ++ [temp])
      = some .directory) :
    replaceFile path text t = (.error ⟨FileTree.Path.temporary path, .isDirectory⟩, t) := by
  rw [replaceFile, FileTree.bind_apply, makeParent_there h hdirs]
  dsimp only
  rw [FileTree.bind_apply, at_apply, FileTree.writeFile_apply,
    FileTree.locate_directory h.temporary hdirs htemporary]

end Present

/-! ## Replacing files one after another -/

/-- A file and its temporary file are as they were. -/
def Untouched (root : String) (p : List String) (t t' : FileTree) : Prop :=
  ∀ q, Pair p q → fileAt? t' root q = fileAt? t root q

theorem Replaced.later {root : String} {p : List String} {text : String} {t t' : FileTree}
    (h : Replaced root p text t) (hsame : Untouched root p t t') : Replaced root p text t' :=
  ⟨(hsame p (.inl rfl)).trans h.target, (hsame _ (.inr rfl)).trans h.temporary⟩

theorem Leftover.earlier {root : String} {p : List String} {text : String} {f : WriteFailure}
    {t t₁ t' : FileTree} (h : Leftover root p text f t₁ t')
    (hsame : fileAt? t₁ root (temporaryOf p) = fileAt? t root (temporaryOf p)) :
    Leftover root p text f t t' := by
  cases h with
  | unmoved failed holds => exact .unmoved failed holds
  | torn failed part holds => exact .torn failed part holds
  | same failed kept => exact .same failed (kept.trans hsame)

theorem Unreplaced.earlier {root : String} {p : List String} {text : String} {f : WriteFailure}
    {t t₁ t' : FileTree} (h : Unreplaced root p text f t₁ t') (hsame : Untouched root p t t₁) :
    Unreplaced root p text f t t' :=
  ⟨h.target.trans (hsame p (.inl rfl)), h.temporary.earlier (hsame _ (.inr rfl))⟩

theorem Untouched.trans {root : String} {p : List String} {t t' t'' : FileTree}
    (h : Untouched root p t t') (h' : Untouched root p t' t'') : Untouched root p t t'' :=
  fun q hq => (h' q hq).trans (h q hq)

theorem Kept.untouched {root : String} {p : List String} {written : List String → Prop}
    {t t' : FileTree} (h : Kept root written t t') (hp : HasFileName p)
    (hwritten : ∀ q, Pair p q → ¬written q) : Untouched root p t t' :=
  fun q hq => h.files q (isFilePlace_of_pair hp hq) (hwritten q hq)

section Files

variable {t t' : FileTree} {root : String} {files : List (List String × String)}
  (hplain : PlainOutput t root) (hfiles : ∀ x ∈ files, IsSourceFile x.1)

include hplain hfiles

theorem writeFiles_kept :
    Kept root (fun q => ∃ x ∈ files, Pair x.1 q) t (writeFiles root files t).2 := by
  induction files generalizing t with
  | nil => exact .refl t
  | cons x files ih =>
    obtain ⟨t₁, hkept, hrun⟩ := replaceFile_cases x.2 hplain (hfiles x List.mem_cons_self)
    have hfirst : Kept root (fun q => ∃ y ∈ x :: files, Pair y.1 q) t t₁ :=
      hkept.mono fun q hq => ⟨x, List.mem_cons_self, hq⟩
    rw [writeFiles, FileTree.bind_apply]
    obtain ⟨hok, -⟩ | ⟨f, hfailed, -⟩ := hrun
    · rw [hok]
      refine hfirst.trans ((ih (hkept.plain hplain) fun y hy =>
        hfiles y (List.mem_cons_of_mem _ hy)).mono ?_)
      rintro q ⟨y, hy, hq⟩
      exact ⟨y, List.mem_cons_of_mem _ hy, hq⟩
    · rw [hfailed]
      exact hfirst

/-- The files before the one that failed stay replaced, those after it are not reached. -/
theorem writeFiles_stopped (hnodup : (files.map Prod.fst).Nodup) {f : WriteFailure}
    (h : writeFiles root files t = (.error f, t')) :
    ∃ before x after, files = before ++ x :: after
      ∧ (∀ y ∈ before, Replaced root y.1 y.2 t') ∧ Unreplaced root x.1 x.2 f t t'
      ∧ ∀ y ∈ after, Untouched root y.1 t t' := by
  induction files generalizing t with
  | nil => cases h
  | cons x files ih =>
    have hx : IsSourceFile x.1 := hfiles x List.mem_cons_self
    have hrest : ∀ y ∈ files, IsSourceFile y.1 := fun y hy => hfiles y (List.mem_cons_of_mem _ hy)
    rw [List.map_cons, List.nodup_cons] at hnodup
    have hname : ∀ y ∈ x :: files, HasFileName y.1 := fun y hy =>
      hasFileName_of_isSourceFile (hfiles y hy)
    have hx' : HasFileName x.1 := hname x List.mem_cons_self
    have hrest' : ∀ y ∈ files, HasFileName y.1 := fun y hy => hname y (List.mem_cons_of_mem _ hy)
    have hne : ∀ y ∈ files, y.1 ≠ x.1 := fun y hy he =>
      hnodup.1 (List.mem_map.mpr ⟨y, hy, he⟩)
    obtain ⟨t₁, hkept, hrun⟩ := replaceFile_cases x.2 hplain hx
    have hothers : ∀ y ∈ files, Untouched root y.1 t t₁ := fun y hy =>
      hkept.untouched (hrest' y hy) fun q hq => pair_apart (hrest' y hy) hx' (hne y hy) hq
    rw [writeFiles, FileTree.bind_apply] at h
    obtain ⟨hok, hreplaced⟩ | ⟨e, hfailed, hunreplaced⟩ := hrun
    · rw [hok] at h
      dsimp only at h
      have hplain₁ : PlainOutput t₁ root := hkept.plain hplain
      have hkept' := writeFiles_kept hplain₁ hrest
      obtain ⟨before, y, after, rfl, hbefore, hy, hafter⟩ := ih hplain₁ hrest hnodup.2 h
      rw [h] at hkept'
      have hstays : Untouched root x.1 t₁ t' := hkept'.untouched hx' fun q hq ⟨z, hz, hq'⟩ =>
        pair_apart hx' (hrest' z hz) (Ne.symm (hne z hz)) hq hq'
      refine ⟨x :: before, y, after, rfl, fun z hz => ?_,
        hy.earlier (hothers y (by simp)), fun z hz => ?_⟩
      · obtain rfl | hz := List.mem_cons.mp hz
        · exact hreplaced.later hstays
        · exact hbefore z hz
      · exact (hothers z (by simp [hz])).trans (hafter z hz)
    · rw [hfailed] at h
      cases h
      exact ⟨[], x, files, rfl, by simp, hunreplaced, hothers⟩

end Files

end Run

end RestForge
