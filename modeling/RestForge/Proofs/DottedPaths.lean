import RestForge.Proofs.RunAccounts

/-!
# Dotted paths and resources

A document belongs to the resource with its category and its segments, and a run knows a resource by
its dotted path, where the segments stand with dots between them. A segment may itself hold a dot.

* `HeaderOf`: the header of a document; `readDottedPath_ok_iff`: its dotted path.
* `Header.SameResource`, `Header.SamePieces`: two headers with the same segments, or with segments
  that fall into the same pieces at their dots.
* `Header.dottedPath_eq_iff`: equal dotted paths have the same pieces, and nothing more.
* `Defines`: the files of a run with a header; `readAll_defined`: what becomes of one of them.
* `duplicates_share_pieces`: what a dotted path tells, and the files that are refused as duplicates.
-/

set_option autoImplicit false

namespace RestForge.Schema

open Naming Text

/-! ## Documents and their dotted paths -/

def HeaderOf (doc : Json) (h : Header) : Prop := ∃ members, doc = .object members ∧ HasHeader members h

theorem HeaderOf.unique {doc : Json} {h h' : Header} (hh : HeaderOf doc h) (hh' : HeaderOf doc h') :
    h = h' := by
  obtain ⟨members, rfl, hmembers⟩ := hh
  obtain ⟨_, ⟨⟩, hmembers'⟩ := hh'
  exact hmembers.unique hmembers'

theorem readDottedPath_ok_iff {doc : Json} {d : String} :
    readDottedPath doc = .ok d ↔ ∃ h, HeaderOf doc h ∧ h.dottedPath = d := by
  unfold readDottedPath
  simp only [except_bind_ok_iff, readHeader_ok_iff]
  constructor
  · rintro ⟨members, hmembers, h, hheader, he⟩
    cases doc <;> cases hmembers
    exact ⟨h, ⟨members, rfl, hheader⟩, Except.ok.inj he⟩
  · rintro ⟨h, ⟨members, rfl, hheader⟩, rfl⟩
    exact ⟨members, rfl, h, hheader, rfl⟩

theorem HeaderOf.readDottedPath {doc : Json} {h : Header} (hh : HeaderOf doc h) :
    readDottedPath doc = .ok h.dottedPath := readDottedPath_ok_iff.mpr ⟨h, hh, rfl⟩

theorem HeaderOf.segments_ne_nil {doc : Json} {h : Header} (hh : HeaderOf doc h) :
    h.segments ≠ [] := by
  obtain ⟨members, -, hmembers⟩ := hh
  obtain ⟨raw, -, hpath⟩ := hmembers.path
  exact hpath.nonempty

/-! ## Headers -/

namespace Header

/-- The two headers are of one resource. -/
def SameResource (h h' : Header) : Prop := h.category = h'.category ∧ h.segments = h'.segments

/-- The segments fall into the same pieces where they hold dots. -/
def SamePieces (h h' : Header) : Prop :=
  h.category = h'.category ∧ h.segments.flatMap (split '.') = h'.segments.flatMap (split '.')

def Undotted (h : Header) : Prop := ∀ s ∈ h.segments, '.' ∉ s.toList

theorem pieces_of_undotted {h : Header} (hh : h.Undotted) :
    h.segments.flatMap (split '.') = h.segments := by
  have hsplit : h.segments.flatMap (split '.') = h.segments.flatMap fun s => [s] :=
    List.flatMap_congr fun s hs => split_of_notMem (hh s hs)
  rw [hsplit, List.flatMap_singleton']

theorem samePieces_iff_of_undotted {h h' : Header} (hh : h.Undotted) (hh' : h'.Undotted) :
    h.SamePieces h' ↔ h.SameResource h' := by
  rw [SamePieces, SameResource, pieces_of_undotted hh, pieces_of_undotted hh']

theorem split_dottedPath {h : Header} (hne : h.segments ≠ []) :
    split '.' h.dottedPath = h.category.text :: h.segments.flatMap (split '.') := by
  have hdot : String.singleton '.' = "." := rfl
  have hcategory : split '.' h.category.text = [h.category.text] := by
    cases h.category <;> exact split_of_notMem (by decide)
  rw [dottedPath, ← hdot, split_append, split_intercalate_flatMap '.' hne, hcategory]
  rfl

/-- A dotted path tells the pieces at its dots, and these are all that it tells. -/
theorem dottedPath_eq_iff {h h' : Header} (hne : h.segments ≠ []) (hne' : h'.segments ≠ []) :
    h.dottedPath = h'.dottedPath ↔ h.SamePieces h' := by
  have htext : h.category.text = h'.category.text ↔ h.category = h'.category := by
    cases h.category <;> cases h'.category <;> decide
  rw [SamePieces, ← htext, ← List.cons.injEq, ← split_dottedPath hne, ← split_dottedPath hne']
  exact ⟨congrArg (split '.'), split_injective '.'⟩

end Header

theorem readDottedPath_eq_iff {doc doc' : Json} {h h' : Header} (hh : HeaderOf doc h)
    (hh' : HeaderOf doc' h') : readDottedPath doc = readDottedPath doc' ↔ h.SamePieces h' := by
  rw [hh.readDottedPath, hh'.readDottedPath, Except.ok.injEq,
    Header.dottedPath_eq_iff hh.segments_ne_nil hh'.segments_ne_nil]

end RestForge.Schema

namespace RestForge.Run

open Naming Schema

/-! ## Files of a run -/

/-- The file is a candidate, it can be loaded, and its document has this header. -/
def Defines (tree : FileTree) (file : SchemaFile) (h : Header) : Prop :=
  ∃ dotted doc, headed tree file = .ok (dotted, doc) ∧ HeaderOf doc h

theorem claimed?_eq_some_iff {tree : FileTree} {file : SchemaFile} {d : String} :
    claimed? tree file = some d ↔ ∃ h, Defines tree file h ∧ h.dottedPath = d := by
  unfold claimed?
  constructor
  · intro hclaimed
    rcases hheaded : headed tree file with outcome | ⟨dotted, doc⟩ <;> rw [hheaded] at hclaimed <;>
      cases hclaimed
    obtain ⟨h, hh, hdotted⟩ := readDottedPath_ok_iff.mp (headed_ok hheaded)
    exact ⟨h, ⟨_, doc, hheaded, hh⟩, hdotted⟩
  · rintro ⟨h, ⟨dotted, doc, hheaded, hh⟩, rfl⟩
    have hdotted := (headed_ok hheaded).symm.trans hh.readDottedPath
    rw [hheaded, Except.ok.inj hdotted]
    rfl

section Files

variable {maxDepth : Nat} {tree : FileTree} {files : List SchemaFile}
  {before after : List (SchemaFile × Prepared)} {file : SchemaFile} {prepared : Prepared}
  {dotted : String} {doc : Json} {h : Header}

/-- The files that claim the dotted path of a document are those with its pieces. -/
theorem claimed?_iff_samePieces (hheaded : headed tree file = .ok (dotted, doc))
    (hh : HeaderOf doc h) {g : SchemaFile} {h' : Header} (hg : Defines tree g h') :
    claimed? tree g = some dotted ↔ h'.SamePieces h := by
  obtain ⟨other, doc', hother, hh'⟩ := hg
  have hclaimed : claimed? tree g = some other := by
    rw [claimed?, hother]
    rfl
  rw [hclaimed, ← readDottedPath_eq_iff hh' hh, headed_ok hother, headed_ok hheaded,
    Option.some_inj, Except.ok.injEq]

/-- What becomes of a file with a header, given the files before it. -/
theorem readAll_defined
    (hall : (readAll maxDepth tree files [] .empty).1 = before ++ (file, prepared) :: after)
    (hheaded : headed tree file = .ok (dotted, doc)) (hh : HeaderOf doc h) :
    (∃ g first h', g ∈ before.map Prod.fst ∧ Defines tree g h' ∧ h'.SamePieces h
        ∧ firstClaim? tree [] (before.map Prod.fst) dotted = some first
        ∧ prepared = duplicate file dotted first)
      ∨ (∀ g ∈ before.map Prod.fst, ∀ h', Defines tree g h' → ¬h'.SamePieces h)
        ∧ ∃ t, prepared = (readClaimed maxDepth file dotted doc t).1 := by
  obtain ⟨claims, t, hprepared, hclaims⟩ := readAll_at hall
  rw [readFile_eq, hheaded] at hprepared
  dsimp only at hprepared
  have hlookup := hclaims dotted
  cases hfirst : firstClaim? tree [] (before.map Prod.fst) dotted with
  | none =>
    rw [hfirst] at hlookup
    rw [hlookup] at hprepared
    have hnone : (before.map Prod.fst).find? (fun g => claimed? tree g == some dotted) = none := by
      simpa [firstClaim?] using hfirst
    refine .inr ⟨fun g hg h' hdefines hsame => ?_, t, hprepared⟩
    have hclaimed := (claimed?_iff_samePieces hheaded hh hdefines).mpr hsame
    exact List.find?_eq_none.mp hnone g hg (by simp [hclaimed])
  | some first =>
    rw [hfirst] at hlookup
    rw [hlookup] at hprepared
    obtain ⟨g, hg, -⟩ : ∃ g, (before.map Prod.fst).find? (fun g => claimed? tree g == some dotted)
        = some g ∧ g.path = first := by
      simpa [firstClaim?, Option.map_eq_some_iff] using hfirst
    have hclaimed : claimed? tree g = some dotted := by simpa using List.find?_some hg
    obtain ⟨h', hdefines, -⟩ := claimed?_eq_some_iff.mp hclaimed
    exact .inl ⟨g, first, h', List.mem_of_find?_eq_some hg, hdefines,
      (claimed?_iff_samePieces hheaded hh hdefines).mp hclaimed, rfl, hprepared⟩

end Files

/-- **A dotted path identifies a resource only up to the dots in its segments.** Two documents have
one dotted path exactly if they have the same category and their segments fall into the same pieces
at the dots; where no segment holds a dot, exactly if they are of the same resource. In a run a file
with a readable header is refused as a duplicate, naming the first, where a file before it has the
same pieces, and otherwise what becomes of it is what becomes of its document. -/
theorem duplicates_share_pieces {doc : Json} {h : Header} (hh : HeaderOf doc h) :
    (∀ doc' h', HeaderOf doc' h' →
      (readDottedPath doc = readDottedPath doc' ↔ h.SamePieces h')
      ∧ (h.Undotted → h'.Undotted →
        (readDottedPath doc = readDottedPath doc' ↔ h.SameResource h')))
    ∧ ∀ maxDepth tree files before file prepared after dotted,
      (readAll maxDepth tree files [] .empty).1 = before ++ (file, prepared) :: after →
      headed tree file = .ok (dotted, doc) →
      ((∃ g first h', g ∈ before.map Prod.fst ∧ Defines tree g h' ∧ h'.SamePieces h
          ∧ firstClaim? tree [] (before.map Prod.fst) dotted = some first
          ∧ prepared = duplicate file dotted first)
        ∨ (∀ g ∈ before.map Prod.fst, ∀ h', Defines tree g h' → ¬h'.SamePieces h)
          ∧ ∃ t, prepared = (readClaimed maxDepth file dotted doc t).1) := by
  refine ⟨fun doc' h' hh' => ⟨readDottedPath_eq_iff hh hh', fun hdots hdots' => ?_⟩, ?_⟩
  · exact (readDottedPath_eq_iff hh hh').trans (Header.samePieces_iff_of_undotted hdots hdots')
  · intro maxDepth tree files before file prepared after dotted hall hheaded
    exact readAll_defined hall hheaded hh

/-! ## A dot in a segment -/

def dotText : String := "\x7b\"category\":\"config\",\"path\":\"a.b\",\"methods\":[]\x7d"

def dotMembers : Record :=
  [("category", .string "config"), ("methods", .array []), ("path", .string "a.b")]

def dotHeader : Header := ⟨.config, ["a.b"], []⟩

def dotResource : Resource := ⟨.config, ["a.b"], ["a_b"], none, none, [], [], []⟩

def slashText : String := "\x7b\"category\":\"config\",\"path\":\"a/b\",\"methods\":[]\x7d"

def slashMembers : Record :=
  [("category", .string "config"), ("methods", .array []), ("path", .string "a/b")]

def slashHeader : Header := ⟨.config, ["a", "b"], []⟩

def dotFile : SchemaFile := ⟨"schemas/a.json", ["a.json"]⟩

def slashFile : SchemaFile := ⟨"schemas/b.json", ["b.json"]⟩

def dotTree : FileTree :=
  ⟨[], [(["schemas"], .directory), (["schemas", "a.json"], .file dotText.toUTF8.data),
    (["schemas", "b.json"], .file slashText.toUTF8.data)], []⟩

theorem headerOf_dotMembers : HeaderOf (.object dotMembers) dotHeader :=
  ⟨dotMembers, rfl, readHeader_ok_iff.mp rfl⟩

theorem headerOf_slashMembers : HeaderOf (.object slashMembers) slashHeader :=
  ⟨slashMembers, rfl, readHeader_ok_iff.mp rfl⟩

theorem headed_dotFile : headed dotTree dotFile = .ok ("config.a.b", .object dotMembers) := by
  have hlead : FileTree.LeadsTo dotFile.path ["schemas"] "a.json" := by decide
  have hread : readDottedPath (.object dotMembers) = .ok "config.a.b" := rfl
  have hload : Schema.load dotTree dotFile.path = .ok (.object dotMembers) :=
    load_ok (FileTree.locate_file hlead (by decide) rfl) rfl
  rw [headed, if_neg (by decide), hload]
  dsimp only
  rw [hread]

theorem headed_slashFile : headed dotTree slashFile = .ok ("config.a.b", .object slashMembers) := by
  have hlead : FileTree.LeadsTo slashFile.path ["schemas"] "b.json" := by decide
  have hread : readDottedPath (.object slashMembers) = .ok "config.a.b" := rfl
  have hload : Schema.load dotTree slashFile.path = .ok (.object slashMembers) :=
    load_ok (FileTree.locate_file hlead (by decide) rfl) rfl
  rw [headed, if_neg (by decide), hload]
  dsimp only
  rw [hread]

theorem dotMembers_read (room : Nat) : readResource room (.object dotMembers) .empty
    = (.ok dotResource, NameTable.empty.add (Scope.modules "config") "a.b" "a_b") := by
  have hmodules : readModules "config" ["a.b"] .empty
      = (.ok ["a_b"], NameTable.empty.add (Scope.modules "config") "a.b" "a_b") :=
    readModules_single (by decide) (by simp) (by simp)
  refine (lift_ok_bind rfl).trans ?_
  refine (lift_ok_bind (x := dotHeader) rfl).trans ?_
  refine (ok_bind hmodules).trans ?_
  cases room <;> rfl

theorem readAll_dotTree (room : Nat) : (readAll room dotTree [dotFile, slashFile] [] .empty).1
    = [(dotFile, .ready dotResource)]
      ++ (slashFile, duplicate slashFile "config.a.b" dotFile.path) :: [] := by
  have hfirst : readFile room dotTree dotFile [] .empty = (.ready dotResource,
      [("config.a.b", dotFile.path)], NameTable.empty.add (Scope.modules "config") "a.b" "a_b") := by
    rw [readFile_eq, headed_dotFile]
    dsimp only [List.lookup]
    rw [readClaimed, dotMembers_read]
  rw [readAll_cons, hfirst, readAll_cons, readFile_eq, headed_slashFile]
  rfl

/-- The second file is refused as a duplicate of a resource that is not its own. -/
theorem dot_refuses_another_resource :
    findFiles dryConfig dotTree = .ok [dotFile, slashFile]
      ∧ headed dotTree dotFile = .ok ("config.a.b", .object dotMembers)
      ∧ headed dotTree slashFile = .ok ("config.a.b", .object slashMembers)
      ∧ HeaderOf (.object dotMembers) dotHeader ∧ HeaderOf (.object slashMembers) slashHeader
      ∧ ¬dotHeader.SameResource slashHeader
      ∧ (slashFile, duplicate slashFile "config.a.b" dotFile.path)
        ∈ (readAll dryConfig.maxDepth dotTree [dotFile, slashFile] [] .empty).1 := by
  have hfiles : findFiles dryConfig dotTree = .ok [dotFile, slashFile] := by
    rw [findFiles_schemas (by decide) rfl rfl rfl]
    rfl
  refine ⟨hfiles, headed_dotFile, headed_slashFile, headerOf_dotMembers, headerOf_slashMembers,
    fun hsame => ?_, ?_⟩
  · exact absurd hsame.2 (by decide)
  · rw [readAll_dotTree]
    simp

theorem duplicates_share_pieces_dot :
    readDottedPath (.object dotMembers) = readDottedPath (.object slashMembers)
      ∧ dotHeader.SamePieces slashHeader
      ∧ ∃ g first h', g ∈ [dotFile] ∧ Defines dotTree g h' ∧ h'.SamePieces slashHeader
        ∧ firstClaim? dotTree [] [dotFile] "config.a.b" = some first
        ∧ duplicate slashFile "config.a.b" dotFile.path = duplicate slashFile "config.a.b" first := by
  have hsame : readDottedPath (.object dotMembers) = readDottedPath (.object slashMembers) :=
    (headed_ok headed_dotFile).trans (headed_ok headed_slashFile).symm
  have hpieces : dotHeader.SamePieces slashHeader :=
    ((duplicates_share_pieces headerOf_dotMembers).1 _ _ headerOf_slashMembers).1.mp hsame
  refine ⟨hsame, hpieces, ?_⟩
  obtain ⟨g, first, h', hg, hdefines, hsame', hfirst, hrefused⟩ | ⟨hnone, -⟩ :=
    (duplicates_share_pieces headerOf_slashMembers).2 _ _ _ _ _ _ _ _ (readAll_dotTree 4)
      headed_slashFile
  · exact ⟨g, first, h', hg, hdefines, hsame', hfirst, hrefused⟩
  · exact absurd hpieces (hnone _ (List.mem_singleton_self _) _
      ⟨_, _, headed_dotFile, headerOf_dotMembers⟩)

end RestForge.Run
