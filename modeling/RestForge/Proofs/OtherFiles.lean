import RestForge.Proofs.NamePrograms
import RestForge.Proofs.RemovedFile
import RestForge.Run.Generate

/-!
# Reading the other files

All files of a run are read with one table of names, and what a file that fails has put there stays.
This file says what the others see of it.

* `headed`, `claimed?`: the document of a file and the dotted path it claims, without any name given.
* `readFile_eq`: a file that is no duplicate is read as its document.
* `readAll_owned`: a collision that is reported names an owner whom the table knows.
* `readAll_parallel`: with more names before, all files end the same up to the first that is refused a
  code name that it gets without them.
* `readAll_without`: reading with and without one file.
-/

set_option autoImplicit false

namespace RestForge.Run

open Naming Schema

/-! ## One file -/

/-- The dotted path and the document of a file, or the outcome of one that cannot be read so far. -/
def headed (tree : FileTree) (file : SchemaFile) : Except Outcome (String × Json) :=
  if file.isSkipped then .error .skipped
  else
    match Schema.load tree file.path with
    | .error e => .error (.errored none (.schema e))
    | .ok doc =>
      match readDottedPath doc with
      | .error e => .error (.errored none (.schema (.refused file.path e)))
      | .ok dotted => .ok (dotted, doc)

def claimed? (tree : FileTree) (file : SchemaFile) : Option String :=
  (headed tree file).toOption.map Prod.fst

def duplicate (file : SchemaFile) (dotted first : String) : Prepared :=
  stop (some dotted) (.refused file.path (.flawed (.duplicateResource dotted first)))

/-- A file that was stopped by a collision. -/
def collided (dotted : Option String) (path : String) (c : Collision) : Outcome :=
  .errored dotted (.schema (.refused path (.collides c)))

theorem readFile_eq (maxDepth : Nat) (tree : FileTree) (file : SchemaFile) (claims : Claims)
    (t : NameTable) : readFile maxDepth tree file claims t = match headed tree file with
      | .error outcome => (.done outcome, claims, t)
      | .ok (dotted, doc) =>
        match claims.lookup dotted with
        | some first => (duplicate file dotted first, claims, t)
        | none => ((readClaimed maxDepth file dotted doc t).1, (dotted, file.path) :: claims,
            (readClaimed maxDepth file dotted doc t).2) := by
  unfold readFile headed
  split
  · rfl
  · cases Schema.load tree file.path with
    | error e => rfl
    | ok doc =>
      dsimp only
      cases readDottedPath doc with
      | error e => rfl
      | ok dotted =>
        dsimp only
        cases claims.lookup dotted with
        | some first => rfl
        | none => rfl

theorem headed_congr {tree tree' : FileTree} {file : SchemaFile}
    (h : Schema.load tree' file.path = Schema.load tree file.path) :
    headed tree' file = headed tree file := by
  unfold headed
  rw [h]

theorem load_ok {tree : FileTree} {path text : String} {place : FileTree.Place} {members : Record}
    (hfile : tree.locate true path = .ok (.found place (.file text.toUTF8.data)))
    (hparse : Json.parse text = .ok (.object members)) :
    Schema.load tree path = .ok (.object members) := by
  unfold Schema.load documentOfText
  rw [FileTree.readText_found hfile]
  dsimp only
  rw [hparse]

theorem load_plain {tree : FileTree} {path path' : String} {e : SchemaError} {c : Collision}
    (h : Schema.load tree path = .error e) : e ≠ .refused path' (.collides c) := by
  rintro rfl
  unfold load at h
  cases hread : tree.readText path with
  | error fault =>
    rw [hread] at h
    cases h
  | ok text =>
    rw [hread] at h
    dsimp only [documentOfText] at h
    rcases hparse : Json.parse text with _ | (_ | _ | _ | _ | _ | _) <;> rw [hparse] at h <;> cases h

theorem plain_readDottedPath (doc : Json) : Plain (readDottedPath doc) :=
  plain_bind (plain_asObject _) fun _ => plain_bind (plain_readHeader _) fun _ => plain_ok _

theorem headed_error {tree : FileTree} {file : SchemaFile} {outcome : Outcome}
    (h : headed tree file = .error outcome) (d : Option String) (path : String) (c : Collision) :
    outcome ≠ collided d path c := by
  rintro rfl
  unfold headed at h
  split at h
  · cases h
  · cases hload : Schema.load tree file.path with
    | error e =>
      rw [hload] at h
      cases h
      exact load_plain hload rfl
    | ok doc =>
      rw [hload] at h
      dsimp only at h
      cases hdotted : readDottedPath doc with
      | error e =>
        rw [hdotted] at h
        cases h
        exact plain_readDottedPath doc c hdotted
      | ok dotted =>
        rw [hdotted] at h
        cases h

/-! ## Its document -/

section Document

variable {maxDepth : Nat} {file : SchemaFile} {dotted : String} {doc : Json} {t u : NameTable}

theorem readClaimed_snd :
    (readClaimed maxDepth file dotted doc t).2 = (readResource maxDepth doc t).2 := by
  unfold readClaimed
  rcases readResource maxDepth doc t with ⟨_ | _, _⟩ <;> rfl

theorem readClaimed_fst : (readClaimed maxDepth file dotted doc t).1
    = match (readResource maxDepth doc t).1 with
      | .ok r => .ready r
      | .error e => stop (some dotted) (.refused file.path e) := by
  unfold readClaimed
  rcases readResource maxDepth doc t with ⟨_ | _, _⟩ <;> rfl

theorem readClaimed_owned (ht : t.Sound) {d : Option String} {path : String} {c : Collision}
    (h : (readClaimed maxDepth file dotted doc t).1 = .done (collided d path c)) :
    Holds (readClaimed maxDepth file dotted doc t).2 c := by
  rw [readClaimed_fst] at h
  rw [readClaimed_snd]
  rcases hread : readResource maxDepth doc t with ⟨e | r, t'⟩ <;> rw [hread] at h <;> cases h
  exact (program_readResource maxDepth doc).owned ht hread

theorem readClaimed_parallel (maxDepth : Nat) (file : SchemaFile) (dotted : String) (doc : Json)
    (ht : t.Sound) (hu : u.Sound) (htu : t.Extends u) :
    ((readClaimed maxDepth file dotted doc u).1 = (readClaimed maxDepth file dotted doc t).1
      ∧ (readClaimed maxDepth file dotted doc t).2.Extends (readClaimed maxDepth file dotted doc u).2)
    ∨ ∃ c, (readClaimed maxDepth file dotted doc u).1 = .done (collided (some dotted) file.path c)
      ∧ Usurped (readClaimed maxDepth file dotted doc t).2 c := by
  simp only [readClaimed_fst, readClaimed_snd]
  obtain ⟨he, hext⟩ | ⟨c, he, husurped⟩ :=
    (program_readResource maxDepth doc).parallel ht hu htu
  · exact .inl ⟨by rw [he], hext⟩
  · exact .inr ⟨c, by rw [he]; rfl, husurped⟩

end Document

/-! ## What one file does to the table -/

section File

variable {maxDepth : Nat} {tree tree' : FileTree} {file : SchemaFile} {claims claims' : Claims}
  {t u : NameTable}

theorem readFile_keeps (maxDepth : Nat) (tree : FileTree) (file : SchemaFile) (claims : Claims)
    (ht : t.Sound) :
    t.Extends (readFile maxDepth tree file claims t).2.2
      ∧ (readFile maxDepth tree file claims t).2.2.Sound := by
  rw [readFile_eq]
  rcases headed tree file with outcome | ⟨dotted, doc⟩
  · exact ⟨.refl t, ht⟩
  · dsimp only
    cases claims.lookup dotted with
    | some first => exact ⟨.refl t, ht⟩
    | none =>
      dsimp only
      rw [readClaimed_snd]
      exact keeps_readResource maxDepth doc t ht

theorem readFile_sameTypes : SameTypes t (readFile maxDepth tree file claims t).2.2 := by
  rw [readFile_eq]
  rcases headed tree file with outcome | ⟨dotted, doc⟩
  · exact .refl t
  · dsimp only
    cases claims.lookup dotted with
    | some first => exact .refl t
    | none =>
      dsimp only
      rw [readClaimed_snd]
      exact (program_readResource maxDepth doc).sameTypes t

/-- A file claims the dotted path that it has, and nothing else. -/
theorem readFile_claims {d : String} (h : claimed? tree file ≠ some d) :
    (readFile maxDepth tree file claims t).2.1.lookup d = claims.lookup d := by
  rw [readFile_eq]
  unfold claimed? at h
  rcases hheaded : headed tree file with outcome | ⟨dotted, doc⟩
  · rfl
  · dsimp only
    cases claims.lookup dotted with
    | some first => rfl
    | none =>
      rw [hheaded] at h
      have hne : (d == dotted) = false := by
        rw [beq_eq_false_iff_ne]
        rintro rfl
        exact h rfl
      simp [List.lookup_cons, hne]

theorem readFile_owned (ht : t.Sound) {d : Option String} {path : String} {c : Collision}
    (h : (readFile maxDepth tree file claims t).1 = .done (collided d path c)) :
    Holds (readFile maxDepth tree file claims t).2.2 c := by
  rw [readFile_eq] at h ⊢
  rcases hheaded : headed tree file with outcome | ⟨dotted, doc⟩ <;> rw [hheaded] at h
  · cases h
    exact absurd rfl (headed_error hheaded d path c)
  · dsimp only at h ⊢
    cases hlookup : claims.lookup dotted with
    | some first =>
      rw [hlookup] at h
      cases h
    | none =>
      rw [hlookup] at h
      exact readClaimed_owned ht h

theorem readFile_parallel (maxDepth : Nat)
    (hload : Schema.load tree' file.path = Schema.load tree file.path)
    (hclaims : ∀ d, claimed? tree file = some d → claims.lookup d = claims'.lookup d)
    (ht : t.Sound) (hu : u.Sound) (htu : t.Extends u) :
    ((readFile maxDepth tree file claims' u).1 = (readFile maxDepth tree' file claims t).1
      ∧ (readFile maxDepth tree' file claims t).2.2.Extends
        (readFile maxDepth tree file claims' u).2.2
      ∧ ∀ d, claims.lookup d = claims'.lookup d →
        (readFile maxDepth tree' file claims t).2.1.lookup d
          = (readFile maxDepth tree file claims' u).2.1.lookup d)
    ∨ ∃ d c, (readFile maxDepth tree file claims' u).1 = .done (collided d file.path c)
      ∧ Usurped (readFile maxDepth tree' file claims t).2.2 c := by
  rw [readFile_eq, readFile_eq, headed_congr hload]
  unfold claimed? at hclaims
  rcases hheaded : headed tree file with outcome | ⟨dotted, doc⟩
  · exact .inl ⟨rfl, htu, fun d hd => hd⟩
  · dsimp only
    rw [hheaded] at hclaims
    rw [hclaims dotted rfl]
    cases claims'.lookup dotted with
    | some first => exact .inl ⟨rfl, htu, fun d hd => hd⟩
    | none =>
      obtain ⟨hsame, hext⟩ | ⟨c, hc, husurped⟩ :=
        readClaimed_parallel maxDepth file dotted doc ht hu htu
      · refine .inl ⟨hsame, hext, fun d hd => ?_⟩
        simp only [List.lookup_cons, hd]
      · exact .inr ⟨some dotted, c, hc, husurped⟩

end File

/-! ## All files -/

section Files

variable {maxDepth : Nat} {tree tree' : FileTree} {files : List SchemaFile} {claims claims' : Claims}
  {t u : NameTable}

theorem readAll_cons (file : SchemaFile) : readAll maxDepth tree (file :: files) claims t
    = ((file, (readFile maxDepth tree file claims t).1)
        :: (readAll maxDepth tree files (readFile maxDepth tree file claims t).2.1
          (readFile maxDepth tree file claims t).2.2).1,
      (readAll maxDepth tree files (readFile maxDepth tree file claims t).2.1
        (readFile maxDepth tree file claims t).2.2).2) := rfl

theorem readAll_files : (readAll maxDepth tree files claims t).1.map Prod.fst = files := by
  induction files generalizing claims t with
  | nil => rfl
  | cons file files ih => rw [readAll_cons, List.map_cons, ih]

theorem readAll_keeps (files : List SchemaFile) (claims : Claims) (ht : t.Sound) :
    t.Extends (readAll maxDepth tree files claims t).2
      ∧ (readAll maxDepth tree files claims t).2.Sound := by
  induction files generalizing claims t with
  | nil => exact ⟨.refl t, ht⟩
  | cons file files ih =>
    obtain ⟨hext, ht'⟩ := readFile_keeps maxDepth tree file claims ht
    obtain ⟨hext', hsound⟩ := ih (readFile maxDepth tree file claims t).2.1 ht'
    exact ⟨hext.trans hext', hsound⟩

/-- Reading documents gives no type a name. -/
theorem readAll_sameTypes : SameTypes t (readAll maxDepth tree files claims t).2 := by
  induction files generalizing claims t with
  | nil => exact .refl t
  | cons file files ih => exact readFile_sameTypes.trans ih

theorem readAll_owned (ht : t.Sound) {g : SchemaFile} {d : Option String} {path : String}
    {c : Collision}
    (h : (g, .done (collided d path c)) ∈ (readAll maxDepth tree files claims t).1) :
    Holds (readAll maxDepth tree files claims t).2 c := by
  induction files generalizing claims t with
  | nil => cases h
  | cons file files ih =>
    have ht' := (readFile_keeps maxDepth tree file claims ht).2
    rw [readAll_cons] at h ⊢
    obtain he | h := List.mem_cons.mp h
    · have hfile := (congrArg Prod.snd he).symm
      exact (readFile_owned ht hfile).extend (readAll_keeps _ _ ht').1
    · exact ih ht' h

theorem readAll_parallel (maxDepth : Nat)
    (hload : ∀ g ∈ files, Schema.load tree' g.path = Schema.load tree g.path)
    (hclaims : ∀ g ∈ files, ∀ d, claimed? tree g = some d → claims.lookup d = claims'.lookup d)
    (ht : t.Sound) (hu : u.Sound) (htu : t.Extends u) :
    (readAll maxDepth tree files claims' u).1 = (readAll maxDepth tree' files claims t).1
    ∨ ∃ g ∈ files, ∃ d c,
      (g, .done (collided d g.path c)) ∈ (readAll maxDepth tree files claims' u).1
        ∧ Usurped (readAll maxDepth tree' files claims t).2 c := by
  -- the claims need to agree only on the paths that are still to be claimed
  induction files generalizing claims claims' t u with
  | nil => exact .inl rfl
  | cons file files ih =>
    have ht' := (readFile_keeps maxDepth tree' file claims ht).2
    have hu' := (readFile_keeps maxDepth tree file claims' hu).2
    rw [readAll_cons, readAll_cons]
    obtain ⟨hsame, hext, hlookup⟩ | ⟨d, c, hc, husurped⟩ := readFile_parallel
      maxDepth (hload file List.mem_cons_self) (hclaims file List.mem_cons_self) ht hu
      htu
    · obtain hrest | ⟨g, hg, d, c, hmem, husurped⟩ := ih
        (fun g hg => hload g (List.mem_cons_of_mem _ hg))
        (fun g hg d hd => hlookup d (hclaims g (List.mem_cons_of_mem _ hg) d hd)) ht' hu' hext
      · exact .inl (by rw [hsame, hrest])
      · exact .inr ⟨g, List.mem_cons_of_mem _ hg, d, c, List.mem_cons_of_mem _ hmem, husurped⟩
    · refine .inr ⟨file, List.mem_cons_self, d, c, ?_, husurped.extend (readAll_keeps _ _ ht').1⟩
      rw [hc]
      exact List.mem_cons_self

/-- Without one file, either what is read of the others is the same, or some other file is refused,
only where the one is there, a code name that it gets without it. -/
theorem readAll_without (maxDepth : Nat) (claims : Claims) {file : SchemaFile}
    {before after : List SchemaFile}
    (honce : file ∉ before ++ after)
    (hload : ∀ g ∈ before ++ after, Schema.load tree' g.path = Schema.load tree g.path)
    (hclaim : ∀ d, claimed? tree file = some d → ∀ g ∈ before ++ after, claimed? tree g ≠ some d)
    (ht : t.Sound) :
    (readAll maxDepth tree' (before ++ after) claims t).1
      = (readAll maxDepth tree (before ++ file :: after) claims t).1.filter (·.1 ≠ file)
    ∨ ∃ g, g ≠ file ∧ ∃ d path c,
      (g, .done (collided d path c)) ∈ (readAll maxDepth tree (before ++ file :: after) claims t).1
        ∧ Usurped (readAll maxDepth tree' (before ++ after) claims t).2 c := by
  -- the tables are the same up to the file, and from there on one extends the other
  induction before generalizing claims t with
  | nil =>
    simp only [List.nil_append] at honce hload hclaim ⊢
    obtain ⟨hext, hu⟩ := readFile_keeps maxDepth tree file claims ht
    have hclaims : ∀ g ∈ after, ∀ d, claimed? tree g = some d → claims.lookup d
        = (readFile maxDepth tree file claims t).2.1.lookup d := by
      intro g hg d hd
      exact (readFile_claims fun hfile => hclaim d hfile g hg hd).symm
    rw [readAll_cons]
    obtain hsame | ⟨g, hg, d, c, hmem, husurped⟩ := readAll_parallel maxDepth hload
      hclaims ht hu hext
    · refine .inl ?_
      have hothers : ∀ x ∈ (readAll maxDepth tree' after claims t).1, decide (x.1 ≠ file) = true := by
        intro x hx
        rw [decide_eq_true_eq]
        rintro rfl
        have hx' := List.mem_map_of_mem (f := Prod.fst) hx
        rw [readAll_files] at hx'
        exact honce hx'
      dsimp only
      rw [List.filter_cons_of_neg (by simp), hsame, List.filter_eq_self.mpr hothers]
    · refine .inr ⟨g, ?_, d, g.path, c, List.mem_cons_of_mem _ hmem, husurped⟩
      rintro rfl
      exact honce hg
  | cons g before ih =>
    have hg : g ≠ file := by
      rintro rfl
      exact honce List.mem_cons_self
    have hfile : readFile maxDepth tree' g claims t = readFile maxDepth tree g claims t := by
      rw [readFile_eq, readFile_eq, headed_congr (hload g List.mem_cons_self)]
    have ht' := (readFile_keeps maxDepth tree g claims ht).2
    rw [List.cons_append, List.cons_append, readAll_cons, readAll_cons, hfile]
    obtain hsame | ⟨g', hg', d, path, c, hmem, husurped⟩ := ih
      (readFile maxDepth tree g claims t).2.1
      (fun hmem => honce (List.mem_cons_of_mem _ hmem))
      (fun g' hg' => hload g' (List.mem_cons_of_mem _ hg'))
      (fun d hd g' hg' => hclaim d hd g' (List.mem_cons_of_mem _ hg')) ht'
    · refine .inl ?_
      rw [hsame, List.filter_cons_of_pos (by simpa using hg)]
    · exact .inr ⟨g', hg', d, path, c, List.mem_cons_of_mem _ hmem, husurped⟩

end Files

end RestForge.Run
