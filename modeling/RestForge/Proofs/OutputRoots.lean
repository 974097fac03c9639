import RestForge.Proofs.MadeDirectories

/-!
# Where an output root leads

* `stem`: the pieces that all paths below a root begin with.
* `Reaches`: a root leads to a directory and from there along names; `Lands`: the first of them is
  free, so that the directories along them can be made.
* `Blocked`: something else than a directory is in the way.
* `NoReturn`: a root does not go back out of a directory that is not there; `lands_or_blocked`: then it
  is one or the other.
* `replaceFile_blocked`: where something is in the way, no file is written and no directory made.
-/

set_option autoImplicit false

namespace RestForge.FileTree

/-! ## The pieces of a root -/

namespace Path

/-- The pieces that all paths below a root begin with. -/
def stem (root : String) : List String := (pieces (base root)).dropLast

/-- A slash at the end of a root is not doubled. -/
theorem stem_cases (root : String) : root = "" ∧ base root = "" ∧ stem root = []
    ∨ ∃ prior, base root = prior ++ "/" ∧ stem root = pieces prior
      ∧ (root = prior ∨ root = prior ++ "/") := by
  have hempty : pieces "" = [""] := by decide
  have hprior : ∀ prior, (pieces (prior ++ "/")).dropLast = pieces prior := fun prior => by
    rw [← String.append_empty (s := prior ++ "/"), pieces_append, hempty, List.dropLast_concat]
  obtain ⟨rfl, hbase⟩ | ⟨prior, hbase, hroot⟩ := base_eq root
  · exact .inl ⟨rfl, hbase, by rw [stem, hbase, hempty]; rfl⟩
  · exact .inr ⟨prior, hbase, by rw [stem, hbase, hprior], hroot.imp_left And.left⟩

theorem pieces_below (root : String) {names : List String} (hne : names ≠ [])
    (hnames : ∀ n ∈ names, IsName n) : pieces (join root names) = stem root ++ names := by
  have htail : pieces (String.intercalate "/" names) = names :=
    Text.split_intercalate (fun n hn => (hnames n hn).noSlash) hne
  rw [join_eq root hne hnames]
  obtain ⟨-, hbase, hstem⟩ | ⟨prior, hbase, hstem, -⟩ := stem_cases root
  · rw [hbase, hstem, String.empty_append, htail, List.nil_append]
  · rw [hbase, hstem, pieces_append, htail]

theorem pieces_root (root : String) :
    ∃ tail, pieces root = stem root ++ tail ∧ ∀ p ∈ tail, isIdle p = true := by
  have hempty : pieces "" = [""] := by decide
  have hidle : ∀ p ∈ [""], isIdle p = true := by decide
  obtain ⟨rfl, -, hstem⟩ | ⟨prior, -, hstem, rfl | rfl⟩ := stem_cases root
  · exact ⟨[""], by rw [hstem, hempty, List.nil_append], hidle⟩
  · exact ⟨[], by rw [hstem, List.append_nil], by simp⟩
  · refine ⟨[""], ?_, hidle⟩
    rw [hstem, ← hempty, ← pieces_append, String.append_empty]

theorem noSlash_of_mem_stem {root piece : String} (h : piece ∈ stem root) : '/' ∉ piece.toList := by
  obtain ⟨tail, htail, -⟩ := pieces_root root
  have hmem : piece ∈ pieces root := htail ▸ List.mem_append_left tail h
  exact notMem_of_mem_pieces hmem

/-! ## Directories above a path -/

theorem parent?_trimmed {path parent : String} (h : parent? path = some parent) (hne : parent ≠ "") :
    Trimmed (pieces parent) ∨ parent = "/" := by
  unfold parent? at h
  split at h
  · cases h
  · split at h <;> cases h
    exact absurd rfl hne
  · rename_i first rest hrest hpieces
    split at h
    · exact .inr (Option.some.inj h).symm
    · rename_i hroot
      cases h
      have hwhole : first :: rest <+: pieces path := hpieces ▸ dropIdleEnd_prefix (pieces path)
      have hcut : dropIdleEnd (first :: rest.dropLast) <+: first :: rest.dropLast :=
        dropIdleEnd_prefix _
      have hlast : first :: rest.dropLast <+: first :: rest :=
        (List.cons_prefix_cons).mpr ⟨rfl, List.dropLast_prefix rest⟩
      obtain ⟨more, hmore⟩ := dropIdleEnd_cons first rest.dropLast
      refine .inl ?_
      rw [pieces_ofPieces (by rw [hmore]; simp) fun p hp =>
        notMem_of_mem_pieces (((hcut.trans hlast).trans hwhole).subset hp)]
      exact trimmed_dropIdleEnd _

/-- A path begins with its parent. -/
theorem parent?_append {path above : String} (h : parent? path = some above) (hne : above ≠ "") :
    ∃ more, path = above ++ more := by
  have hpath : pieces path ≠ [] := Text.split_ne_nil '/' path
  have habove : pieces above ≠ [] := Text.split_ne_nil '/' above
  obtain ⟨habsolute, ⟨mid, hmid⟩ | ⟨hroot, rfl⟩⟩ := parent?_pieces h hne
  · have hpieces : pieces path = pieces above ++ (mid ++ [(pieces path).getLast hpath]) := by
      rw [← List.append_assoc, hmid, List.dropLast_append_getLast]
    refine ⟨"/" ++ ofPieces (mid ++ [(pieces path).getLast hpath]), ?_⟩
    have hwhole := ofPieces_pieces path
    rw [hpieces, ofPieces_append habove (by simp), ofPieces_pieces, String.append_assoc] at hwhole
    exact hwhole.symm
  · obtain ⟨cs, hcs⟩ : ∃ cs, path.toList = '/' :: cs := by
      rw [isAbsolute, beq_iff_eq, List.head?_eq_some_iff] at hroot
      exact hroot
    refine ⟨String.ofList cs, String.toList_injective ?_⟩
    rw [hcs]
    simp

/-- A path that begins with the pieces of another and does not end in an idle piece, or the root. -/
def Above (whole : List String) (path : String) : Prop :=
  pieces path <+: whole ∧ Trimmed (pieces path) ∨ path = "/"

theorem above_of_parent {path parent : String} {whole : List String} (h : parent? path = some parent)
    (hne : parent ≠ "") (hpath : pieces path <+: whole) : Above whole parent := by
  obtain htrimmed | hroot := parent?_trimmed h hne
  · obtain ⟨-, hpieces | ⟨-, hroot⟩⟩ := parent?_pieces h hne
    · exact .inl ⟨(hpieces.trans (List.dropLast_prefix _)).trans hpath, htrimmed⟩
    · exact .inr hroot
  · exact .inr hroot

theorem above_of_ancestor {whole : List String} {path above : String} (h : above ∈ ancestors path)
    (hpath : Above whole path) : Above whole above ∧ (isAbsolute above = isAbsolute path) := by
  have hwithin : ∀ (fuel : Nat) (path : String), Above whole path →
      above ∈ ancestorsWithin fuel path → Above whole above ∧ isAbsolute above = isAbsolute path := by
    intro fuel
    induction fuel with
    | zero => exact fun path _ h => (List.not_mem_nil h).elim
    | succ fuel ih =>
      intro path hpath h
      rw [ancestorsWithin] at h
      split at h
      · cases h
      · obtain rfl | h := List.mem_cons.mp h
        · exact ⟨hpath, rfl⟩
        · split at h
          · rename_i parent hparent
            have hne : parent ≠ "" := by
              rintro rfl
              cases fuel <;> exact (List.not_mem_nil h).elim
            obtain ⟨hpieces, -⟩ | rfl := hpath
            · obtain ⟨habove, habsolute⟩ := ih parent (above_of_parent hparent hne hpieces) h
              exact ⟨habove, habsolute.trans (parent?_pieces hparent hne).1⟩
            · have hroot : parent? "/" = none := by decide
              cases hroot.symm.trans hparent
          · cases h
  exact hwithin _ path hpath h

end Path

/-! ## Where a root leads -/

/-- A root leads to a directory, and from there along names. -/
def Reaches (t : FileTree) (root : String) (here : Place) (names : List String) : Prop :=
  ∃ before rest left, Path.stem root = before ++ rest
    ∧ Passes t linkLimit (startOf t.workingDirectory root) before left here
    ∧ ".." ∉ rest ∧ namesOf rest = names

/-- A root leads to a directory, and from there along names of which the first is free. -/
structure Lands (t : FileTree) (root : String) (here : Place) (names : List String) : Prop where
  reaches : Reaches t root here names
  free : ∀ name ∈ names.head?, t.get? (here ++ [name]) = none

/-- Pieces lead to a directory in which the next one is no directory and cannot become one. -/
def Blocked (t : FileTree) (start : Place) (ps : List String) : Prop :=
  ∃ before piece after left here, ps = before ++ piece :: after
    ∧ Passes t linkLimit start before left here
    ∧ (nameLimit < piece.utf8ByteSize ∨ t.get? (here ++ [piece]) ≠ none)
    ∧ ∀ left' goal, ¬Passes t linkLimit start (before ++ [piece]) left' goal

/-- A root does not go back out of a directory that is not there. -/
def NoReturn (t : FileTree) (root : String) : Prop :=
  ∀ before after, Path.pieces root = before ++ ".." :: after →
    ¬Missing (t.walk true linkLimit (startOf t.workingDirectory root) before)

theorem noReturn_of_notMem {t : FileTree} {root : String} (h : ".." ∉ Path.pieces root) :
    NoReturn t root := fun before after he => absurd (by simp [he]) h

section Ways

variable {t t' : FileTree} {root path : String} {here start : Place} {names ps : List String}

theorem Reaches.mono (h : Reaches t root here names)
    (hdirectory : t'.workingDirectory = t.workingDirectory)
    (hdirs : ∀ p, t.get? p = some .directory → t'.get? p = some .directory)
    (hlinks : ∀ p target, t.get? p = some (.link target) → t'.get? p = some (.link target)) :
    Reaches t' root here names := by
  obtain ⟨before, rest, left, hstem, hpasses, hup, hnames⟩ := h
  refine ⟨before, rest, left, hstem, ?_, hup, hnames⟩
  rw [hdirectory]
  exact hpasses.mono hdirs hlinks

/-- Without names the root leads to the directory itself. -/
theorem Reaches.nameless (h : Reaches t root here []) : ∃ left,
    Passes t linkLimit (startOf t.workingDirectory root) (Path.stem root) left here := by
  obtain ⟨before, rest, left, hstem, hpasses, -, hrest⟩ := h
  have hidle : ∀ piece ∈ rest, Path.isIdle piece = true := fun piece hpiece => by
    simpa using List.filter_eq_nil_iff.mp hrest piece hpiece
  rw [hstem]
  exact ⟨left, hpasses.append (passes_idle hidle left here)⟩

theorem Reaches.named (h : Reaches t root here names) : Named names := by
  obtain ⟨before, rest, left, -, -, hup, rfl⟩ := h
  exact named_namesOf hup

/-- Paths below a root lead through its directory and along its names. -/
theorem Reaches.points (h : Reaches t root here names) {p : List String} (hne : p ≠ [])
    (hp : ∀ n ∈ p, Path.IsName n) : Points t (Path.join root p) here (names ++ p) := by
  obtain ⟨before, rest, left, hstem, hpasses, hup, rfl⟩ := h
  have hpieces := Path.pieces_below root hne hp
  have hidle : ∀ n ∈ p, Path.isIdle n = false := fun n hn => (hp n hn).not_idle
  refine ⟨⟨before, rest ++ p, left, ?_, ?_, ?_, ?_⟩, ?_⟩
  · rw [hpieces, hstem, List.append_assoc]
  · rwa [Path.startOf_join root hne hp]
  · rw [List.mem_append, not_or]
    exact ⟨hup, fun hmem => (hp _ hmem).notUp rfl⟩
  · rw [namesOf_append, namesOf_of_names hidle]
  · intro last hlast
    rw [hpieces, List.getLast?_append, List.getLast?_eq_some_getLast hne] at hlast
    exact hidle last (Option.some.inj hlast ▸ List.getLast_mem hne)

/-- Pieces lead to a directory, or up to the first that does not. -/
theorem passes_or_stops (t : FileTree) (start : Place) (ps : List String) :
    (∃ left here, Passes t linkLimit start ps left here)
    ∨ ∃ before piece after left here, ps = before ++ piece :: after
      ∧ Passes t linkLimit start before left here
      ∧ ∀ left' goal, ¬Passes t linkLimit start (before ++ [piece]) left' goal := by
  induction ps using List.reverseRecOn with
  | nil => exact .inl ⟨_, _, .here _ _⟩
  | append_singleton ps piece ih =>
    obtain ⟨left, here, hpasses⟩ | ⟨before, stop, after, left, here, rfl, hpasses, hstops⟩ := ih
    · by_cases hnext : ∃ left' goal, Passes t linkLimit start (ps ++ [piece]) left' goal
      · exact .inl hnext
      · refine .inr ⟨ps, piece, [], left, here, rfl, hpasses, fun left' goal h => ?_⟩
        exact hnext ⟨left', goal, h⟩
    · exact .inr ⟨before, stop, after ++ [piece], left, here, by simp, hpasses, hstops⟩

/-- A root leads to where directories can be made, or something is in the way. -/
theorem lands_or_blocked (hreturn : NoReturn t root) : (∃ here names, Lands t root here names)
    ∨ Blocked t (startOf t.workingDirectory root) (Path.stem root) := by
  obtain ⟨left, here, hpasses⟩ | ⟨before, piece, after, left, here, hstem, hpasses, hstops⟩ :=
    passes_or_stops t (startOf t.workingDirectory root) (Path.stem root)
  · exact .inl ⟨here, [], ⟨Path.stem root, [], left, (List.append_nil _).symm, hpasses, by simp, rfl⟩,
      by simp⟩
  · by_cases hlong : nameLimit < piece.utf8ByteSize
    · exact .inr ⟨before, piece, after, left, here, hstem, hpasses, .inl hlong, hstops⟩
    by_cases hthere : t.get? (here ++ [piece]) = none
    · have hidle : Path.isIdle piece = false := by
        rw [Bool.eq_false_iff]
        exact fun hidle => hstops left here (hpasses.append (.idle hidle (.here _ _)))
      have hup : piece ≠ ".." := by
        rintro rfl
        exact hstops left _ (hpasses.append (.up (.here _ _)))
      have hname : IsName piece := ⟨hidle, hup, by omega⟩
      have hnames : namesOf (piece :: after) = piece :: namesOf after :=
        List.filter_cons_of_pos (by simp [hidle])
      refine .inl ⟨here, namesOf (piece :: after), ⟨before, piece :: after, left, hstem, hpasses,
        fun hmem => ?_, rfl⟩, by simpa [hnames] using hthere⟩
      -- what comes before two dots would lead through the free name
      obtain ⟨tail, htail, -⟩ := Path.pieces_root root
      obtain ⟨mid, rest, hrest⟩ := List.append_of_mem hmem
      refine hreturn (before ++ mid) (rest ++ tail) ?_ ?_
      · rw [htail, hstem, hrest]
        simp
      · obtain ⟨rfl, -⟩ | ⟨mid, rfl⟩ : mid = [] ∧ piece = ".." ∨ ∃ mid', mid = piece :: mid' := by
          cases mid with
          | nil => exact .inl ⟨rfl, (List.cons.inj hrest).1⟩
          | cons first mid => exact .inr ⟨mid, by rw [(List.cons.inj hrest).1]⟩
        · exact absurd (List.cons.inj hrest).1 hup
        · rw [hpasses.walk (.inr rfl), walk_name hname, hthere]
          dsimp only
          split <;> trivial
    · exact .inr ⟨before, piece, after, left, here, hstem, hpasses, .inr hthere, hstops⟩

theorem Lands.noLinks (h : Lands t root here names) (hclosed : ClosedBelow t here)
    {more : List String} (hmore : names = [] → NoLinks t here more) :
    NoLinks t here (names ++ more) := by
  cases names with
  | nil => exact hmore rfl
  | cons name names =>
    have hfree : t.get? (here ++ [name]) = none := h.free name rfl
    intro q hq hpart target hget
    obtain ⟨first, rest, rfl⟩ := List.exists_cons_of_ne_nil hq
    obtain ⟨rfl, -⟩ := List.cons_prefix_cons.mp hpart
    by_cases hrest : rest = []
    · rw [hrest, hfree] at hget
      cases hget
    · have hbelow := hclosed.free (q := [first]) (by simp) (by rw [hfree]; simp) hrest
      rw [List.append_assoc, List.singleton_append, hget] at hbelow
      cases hbelow

/-! ## Something in the way -/

theorem Blocked.append (h : Blocked t start ps) (more : List String) : Blocked t start (ps ++ more) := by
  obtain ⟨before, piece, after, left, here, rfl, h⟩ := h
  exact ⟨before, piece, after ++ more, left, here, by simp, h⟩

/-- No directory above can be made. -/
theorem Blocked.unfree (h : Blocked t start ps) {qs : List String} (hqs : qs <+: ps)
    (htrimmed : Path.Trimmed qs) (place : Place) (b : Bool) :
    t.walk false linkLimit start qs ≠ .ok (.free place b) := by
  obtain ⟨before, piece, after, left, here, rfl, hpasses, hway, hstops⟩ := h
  have hfound : ∀ {rest left goal}, Passes t linkLimit start rest left goal →
      t.walk false linkLimit start rest ≠ .ok (.free place b) := by
    intro rest left goal hrest he
    obtain ⟨p, entry, hfound⟩ := hrest.found
    rw [hfound] at he
    cases he
  obtain ⟨more, rfl⟩ | ⟨more, rfl⟩ :=
    List.prefix_or_prefix_of_prefix hqs (List.prefix_append before (piece :: after))
  · obtain ⟨left', goal, hfirst, -⟩ := hpasses.split
    exact hfound hfirst
  cases more with
  | nil =>
    rw [List.append_nil]
    exact hfound hpasses
  | cons first more =>
    obtain ⟨rfl, -⟩ := List.cons_prefix_cons.mp ((List.prefix_append_right_inj before).mp hqs)
    cases more with
    | nil =>
      rw [hpasses.walk (.inl (by simp))]
      have hidle : ¬Path.isIdle first = true := fun hidle =>
        hstops left here (hpasses.append (.idle hidle (.here _ _)))
      have hup : ¬first = ".." := by
        rintro rfl
        exact hstops left _ (hpasses.append (.up (.here _ _)))
      by_cases hlong : nameLimit < first.utf8ByteSize
      · rw [walk, if_neg hidle, if_neg hup, if_pos hlong]
        simp
      · have hname := isName_of_not hidle hup hlong
        rw [walk_name hname]
        rcases hget : t.get? (here ++ [first]) with _ | (bytes | target | _)
        · exact absurd hget (hway.resolve_left hlong)
        · simp
        · simp
        · exact absurd (hpasses.append (.into hname hget (.here _ _))) (hstops _ _)
    | cons second more =>
      have hsome : (second :: more).all String.isEmpty = false := by
        rw [List.all_eq_false]
        refine ⟨(second :: more).getLast (by simp), List.getLast_mem _, fun hempty => ?_⟩
        have hlast : (before ++ first :: second :: more).getLast?
            = some ((second :: more).getLast (by simp)) := by
          rw [List.getLast?_append, List.getLast?_cons_cons, List.getLast?_eq_some_getLast (by simp)]
          rfl
        have hone := htrimmed _ hlast (by simp [Path.isIdle, hempty])
        have hlen := congrArg List.length hone
        simp only [List.length_append, List.length_cons, List.length_nil] at hlen
        omega
      have hsplit : before ++ first :: second :: more = (before ++ [first]) ++ second :: more := by simp
      obtain ⟨e, he⟩ := walk_stuck hstops hsome false
      rw [hsplit, he]
      simp

theorem Path.kept_cons {piece : String} {after kept : List String} (hidle : Path.isIdle piece = false)
    (hkept : kept <+: piece :: after) (hnames : namesOf kept = namesOf (piece :: after)) :
    ∃ kept', kept = piece :: kept' := by
  cases kept with
  | nil =>
    rw [namesOf, namesOf, List.filter_nil, List.filter_cons_of_pos (by simp [hidle])] at hnames
    cases hnames
  | cons first kept' => exact ⟨kept', by rw [(List.cons_prefix_cons.mp hkept).1]⟩

/-- Nothing can be written behind what is in the way. -/
theorem replaceFile_blocked {name : String}
    (h : Blocked t (startOf t.workingDirectory path) ps) (hpieces : Path.pieces path = ps ++ [name])
    (hname : Path.isIdle name = false) (text : String) :
    ∃ f, replaceFile path text t = (.error f, t) := by
  obtain ⟨before, piece, after, left, here, hps, hpasses, -, hstops⟩ := id h
  have hidle : Path.isIdle piece = false := by
    rw [Bool.eq_false_iff]
    exact fun hidle => hstops left here (hpasses.append (.idle hidle (.here _ _)))
  have hrest : namesOf (piece :: after) ≠ [] := by
    rw [namesOf, List.filter_cons_of_pos (by simp [hidle])]
    simp
  obtain ⟨above, kept, more, hparent, hkept, hsame, -, hsub, -, hne⟩ :=
    Path.parent?_named (hps ▸ hpieces) hname hrest
  obtain ⟨kept', rfl⟩ := Path.kept_cons hidle hsub hsame
  have hstart : ∀ {other}, Path.isAbsolute other = Path.isAbsolute path →
      startOf t.workingDirectory other = startOf t.workingDirectory path := fun he => by
    rw [startOf, startOf, he]
  have habsolute := (Path.parent?_pieces hparent hne).1
  have hwhole : Path.Above ps above := by
    obtain htrimmed | hroot := Path.parent?_trimmed hparent hne
    · refine .inl ⟨?_, htrimmed⟩
      rw [hkept, hps]
      exact (List.prefix_append_right_inj before).mpr hsub
    · exact .inr hroot
  have hunfree : ∀ p ∈ Path.ancestors above, ∀ place b,
      t.locate false p ≠ .ok (.free place b) := by
    intro p hp place b he
    obtain ⟨⟨hpart, htrimmed⟩ | rfl, hp'⟩ := Path.above_of_ancestor hp hwhole <;>
      rw [locate_eq] at he <;> split at he <;> try cases he
    · rw [hstart (hp'.trans habsolute)] at he
      exact h.unfree hpart htrimmed place b he
    · have hroot : ∀ here, Passes t linkLimit here (Path.pieces "/") linkLimit here :=
        passes_idle (by decide) linkLimit
      obtain ⟨p, entry, hfound⟩ := (hroot _).found
      rw [hfound] at he
      cases he
  obtain ⟨htree, hok⟩ := makeDirectoryIn_unfree hunfree
  have hnot : ¬t.isDirectory above = true := by
    intro hdir
    have hmade := (isDirectory_of_locate rfl).mp hdir
    obtain ⟨goal, hgoal⟩ := made_ok hmade
    rw [locate_eq] at hgoal
    split at hgoal
    · cases hgoal
    · rw [hstart habsolute] at hgoal
      obtain ⟨left', hthere⟩ := passes_of_walk hgoal
      have hsplit : Path.pieces above = (before ++ [piece]) ++ kept' := by rw [hkept]; simp
      rw [hsplit] at hthere
      obtain ⟨left'', goal', hfirst, -⟩ := hthere.split
      exact hstops _ _ hfirst
  have hempty : above.isEmpty = false := by simpa using hne
  have hparentFails : ∃ f, makeParent path t = (.error f, t) := by
    rw [makeParent, hparent]
    dsimp only
    rw [if_neg (by simp [hempty]), Access.at, makeDirectories]
    obtain ⟨outer, houter⟩ := ancestors_cons hne
    rw [houter] at htree hok ⊢
    rcases hrun : makeDirectoryIn (above :: outer) t with ⟨e | u, t'⟩ <;> rw [hrun] at htree hok
    · obtain rfl : t' = t := htree
      exact ⟨_, rfl⟩
    · exact absurd (hok rfl above rfl) hnot
  obtain ⟨f, hfails⟩ := hparentFails
  exact ⟨f, by rw [replaceFile, bind_apply, hfails]⟩

end Ways

end RestForge.FileTree
