import Mathlib.Data.List.Basic
import RestForge.Run.Generate

/-!
# A schema file is taken away

* `locate_relative`, `walk_name`: how a path leads through directories to a file; `readText_found`: the
  text that is read there.
* `walk_erase`, `locate_erase`: paths that do not end at a file find the same without it.
* `relative?_eq_some_iff`: what leads from a directory to a place below it.
* `filesBelow_erase`: discovery finds the other files.
* `Removed`: one schema file is gone, and the others are found and read as before; `removed_erase`:
  so it is when the file is erased and no other schema file leads to it.
-/

set_option autoImplicit false

namespace RestForge

namespace FileTree

variable {t : FileTree} {place : Place} {bytes : Array UInt8}

/-! ## Following a path -/

/-- A name that can lead somewhere from a directory. -/
def IsName (piece : String) : Prop :=
  Path.isIdle piece = false ∧ piece ≠ ".." ∧ piece.utf8ByteSize ≤ nameLimit

instance (piece : String) : Decidable (IsName piece) := inferInstanceAs (Decidable (_ ∧ _ ∧ _))

/-- A path that can be looked up from the working directory. -/
def IsRelative (path : String) : Prop :=
  '\x00' ∉ path.toList ∧ path.isEmpty = false ∧ path.utf8ByteSize < pathLimit
    ∧ Path.isAbsolute path = false

instance (path : String) : Decidable (IsRelative path) :=
  inferInstanceAs (Decidable (_ ∧ _ ∧ _ ∧ _))

theorem locate_relative {follow : Bool} {path : String} (h : IsRelative path) :
    t.locate follow path = t.walk follow linkLimit t.workingDirectory (Path.pieces path) := by
  obtain ⟨htext, hsome, hshort, hrelative⟩ := h
  rw [locate, if_neg (by simpa using htext), if_neg (by simp [hsome]), if_neg (by omega),
    if_neg (by simp [hrelative])]

theorem walk_name {follow : Bool} {links : Nat} {here : Place} {piece : String} {rest : List String}
    (hname : IsName piece) : t.walk follow links here (piece :: rest)
      = match t.get? (here ++ [piece]) with
        | none =>
          if rest.all String.isEmpty then .ok (.free (here ++ [piece]) !rest.isEmpty)
          else .error .notFound
        | some .directory => t.walk follow links (here ++ [piece]) rest
        | some (.file bytes) =>
          if rest.isEmpty then .ok (.found (here ++ [piece]) (.file bytes)) else .error .notDirectory
        | some (.link target) =>
          if rest.isEmpty && !follow then .ok (.found (here ++ [piece]) (.link target))
          else
            match links with
            | 0 => .error .tooManyLinks
            | links + 1 =>
              t.walk follow links (if Path.isAbsolute target then [] else here)
                (Path.pieces target ++ rest) := by
  obtain ⟨hidle, hup, hshort⟩ := hname
  rw [walk, if_neg (by simp [hidle]), if_neg hup]
  exact if_neg (by omega)

theorem get?_erase_of_ne {other : Place} (h : other ≠ place) :
    (t.erase place).get? other = t.get? other := by
  unfold get?
  cases other with
  | nil => rfl
  | cons name rest =>
    simp only [erase]
    induction t.entries with
    | nil => rfl
    | cons e entries ih =>
      obtain ⟨p, entry⟩ := e
      by_cases hp : p = place
      · rw [List.filter_cons_of_neg (by simpa using hp), ih, KeyedList.get?_cons,
          if_neg fun he => h (he.trans hp)]
      · rw [List.filter_cons_of_pos (by simpa using hp), KeyedList.get?_cons, KeyedList.get?_cons, ih]

/-- A path runs through no file, so that only those that end at a file miss it. -/
theorem walk_erase (hfile : t.get? place = some (.file bytes)) {follow : Bool} {links : Nat}
    {here : Place} {todo : List String} {p : Place} {entry : Entry}
    (h : t.walk follow links here todo = .ok (.found p entry))
    (hother : ∀ bytes, entry = .file bytes → p ≠ place) :
    (t.erase place).walk follow links here todo = .ok (.found p entry) := by
  have hkept : ∀ {q e}, t.get? q = some e → e ≠ .file bytes → (t.erase place).get? q = some e := by
    intro q e hq he
    rw [get?_erase_of_ne, hq]
    rintro rfl
    exact he (Option.some.inj (hq.symm.trans hfile))
  -- the place held a file, so that every directory and every link on the way is still there
  fun_induction walk t follow links here todo with
  | case1 links here => rwa [walk]
  | case2 links here piece rest hidle ih =>
    rw [walk, if_pos hidle]
    exact ih h
  | case3 links here rest hidle ih =>
    rw [walk, if_neg hidle, if_pos rfl]
    exact ih h
  | case4 | case5 | case6 | case9 | case11 => cases h
  | case7 links here piece rest hidle hup hshort q hget ih =>
    have hget' : (t.erase place).get? (here ++ [piece]) = some .directory := hkept hget (by simp)
    rw [walk_name ⟨by simpa using hidle, hup, by omega⟩, hget']
    exact ih h
  | case8 links here piece rest hidle hup hshort q bytes' hget hlast =>
    obtain ⟨hp, he⟩ : q = p ∧ .file bytes' = entry := by simpa using h
    have hne : here ++ [piece] ≠ place := by
      rintro rfl
      exact hother bytes' he.symm hp.symm
    have hget' : (t.erase place).get? (here ++ [piece]) = some (.file bytes') :=
      (get?_erase_of_ne hne).trans hget
    rw [walk_name ⟨by simpa using hidle, hup, by omega⟩, hget']
    dsimp only
    rw [if_pos hlast]
    exact h
  | case10 links here piece rest hidle hup hshort q target hget hlast =>
    have hget' : (t.erase place).get? (here ++ [piece]) = some (.link target) :=
      hkept hget (by simp)
    rw [walk_name ⟨by simpa using hidle, hup, by omega⟩, hget']
    dsimp only
    rw [if_pos hlast]
    exact h
  | case12 here piece rest hidle hup hshort q target hget hlast links ih =>
    have hget' : (t.erase place).get? (here ++ [piece]) = some (.link target) :=
      hkept hget (by simp)
    rw [walk_name ⟨by simpa using hidle, hup, by omega⟩, hget']
    dsimp only
    rw [if_neg hlast]
    exact ih h

theorem locate_erase (hfile : t.get? place = some (.file bytes)) {follow : Bool} {path : String}
    {p : Place} {entry : Entry} (h : t.locate follow path = .ok (.found p entry))
    (hother : ∀ bytes, entry = .file bytes → p ≠ place) :
    (t.erase place).locate follow path = .ok (.found p entry) := by
  unfold locate at h ⊢
  split at h
  · cases h
  rename_i htext
  split at h
  · cases h
  rename_i hsome
  split at h
  · cases h
  rename_i hshort
  rw [if_neg htext, if_neg hsome, if_neg hshort]
  exact walk_erase hfile h hother

theorem directoryAt?_erase (hfile : t.get? place = some (.file bytes)) {path : String} {p : Place}
    (h : t.directoryAt? path = some p) : (t.erase place).directoryAt? path = some p := by
  have hfound : t.locate true path = .ok (.found p .directory) := by
    unfold directoryAt? entryAt? at h
    split at h
    · rename_i hentry
      split at hentry <;> cases hentry
      cases h
      assumption
    · cases h
  unfold directoryAt? entryAt?
  rw [locate_erase hfile hfound (by simp)]

/-- A text is read back from the bytes that it makes. -/
theorem readText_found {path text : String}
    (h : t.locate true path = .ok (.found place (.file text.toUTF8.data))) :
    t.readText path = .ok text := by
  have htext : String.fromUTF8? ⟨text.toUTF8.data⟩ = some text := by
    have hvalid : text.toUTF8.IsValidUTF8 := text.isValidUTF8
    unfold String.fromUTF8?
    rw [dif_pos hvalid]
    rfl
  have hbytes : t.readBytes path = .ok text.toUTF8.data := by
    unfold readBytes
    rw [h]
    rfl
  unfold readText
  rw [hbytes]
  simp only [bind, Except.bind, htext]

theorem readText_erase (hfile : t.get? place = some (.file bytes)) {path : String} {p : Place}
    {bytes' : Array UInt8} (h : t.locate true path = .ok (.found p (.file bytes'))) (hp : p ≠ place) :
    (t.erase place).readText path = t.readText path := by
  unfold readText readBytes
  rw [locate_erase hfile h fun _ _ => hp, h]

theorem relative?_eq_some_iff {directory place names : Place} :
    relative? directory place = some names ↔ place = directory ++ names ∧ names ≠ [] := by
  have hlonger : ∀ rest, directory.length < (directory ++ rest).length ↔ rest ≠ [] := by
    intro rest
    rw [List.length_append, ← List.length_pos_iff]
    omega
  unfold relative?
  constructor
  · intro h
    split at h
    · rename_i hbelow
      cases h
      rw [Bool.and_eq_true, List.isPrefixOf_iff_prefix, decide_eq_true_eq] at hbelow
      obtain ⟨⟨rest, rfl⟩, hmore⟩ := hbelow
      rw [List.drop_left]
      exact ⟨rfl, (hlonger rest).mp hmore⟩
    · cases h
  · rintro ⟨rfl, hne⟩
    rw [if_pos, List.drop_left]
    rw [Bool.and_eq_true, List.isPrefixOf_iff_prefix, decide_eq_true_eq]
    exact ⟨List.prefix_append directory names, (hlonger names).mpr hne⟩

theorem filesBelow_erase (directory names : Place) :
    (t.erase (directory ++ names)).filesBelow directory
      = (t.filesBelow directory).filter (· ≠ names) := by
  unfold filesBelow below erase
  rw [List.filterMap_filterMap, List.filterMap_filterMap, List.filterMap_filter,
    List.filter_filterMap]
  refine List.filterMap_congr fun e _ => ?_
  cases hpath : relative? directory e.1 with
  | none => simp
  | some path =>
    rw [(relative?_eq_some_iff.mp hpath).1]
    by_cases hnames : path = names <;> cases e.2 <;> simp [hnames, Option.filter]

end FileTree

namespace Run

open Schema

/-- One schema file is taken away; the others are found in the same order and read the same. -/
structure Removed (config : Config) (tree tree' : FileTree) (file : SchemaFile)
    (before after : List SchemaFile) : Prop where
  found : findFiles config tree = .ok (before ++ file :: after)
  left : findFiles config tree' = .ok (before ++ after)
  once : file ∉ before ++ after
  load : ∀ g ∈ before ++ after, Schema.load tree' g.path = Schema.load tree g.path

theorem findFiles_ok_iff {config : Config} {tree : FileTree} {files : List SchemaFile} :
    findFiles config tree = .ok files
      ↔ config.flaw? = none ∧ discover tree config.schemaRoot = some files := by
  unfold findFiles
  cases config.flaw? with
  | some flaw => simp
  | none =>
    cases discover tree config.schemaRoot <;> simp

/-- The names of a file tell which file it is. -/
theorem filter_without {root : String} {paths : List FileTree.Place} {file : SchemaFile}
    {before after : List SchemaFile}
    (hfiles : paths.map (fun names => (⟨FileTree.Path.join root names, names⟩ : SchemaFile))
      = before ++ file :: after)
    (honce : file ∉ before ++ after) :
    (before ++ file :: after).filter (·.names ≠ file.names) = before ++ after := by
  have hpath : ∀ g ∈ before ++ file :: after, g.path = FileTree.Path.join root g.names := by
    intro g hg
    rw [← hfiles] at hg
    obtain ⟨names, -, rfl⟩ := List.mem_map.mp hg
    rfl
  have hothers : ∀ g ∈ before ++ after, decide (g.names ≠ file.names) = true := by
    intro g hg
    rw [decide_eq_true_eq]
    intro hnames
    have hsame : g = file := by
      have hg' : g ∈ before ++ file :: after := by
        simp only [List.mem_append, List.mem_cons] at hg ⊢
        exact hg.imp_right .inr
      have hp := (hpath g hg').trans (congrArg _ hnames)
      rw [← hpath file (by simp)] at hp
      exact congrArg₂ SchemaFile.mk hp hnames
    exact honce (hsame ▸ hg)
  rw [List.filter_append, List.filter_cons_of_neg (by simp), ← List.filter_append,
    List.filter_eq_self.mpr hothers]

theorem removed_erase {config : Config} {tree : FileTree} {root : FileTree.Place}
    {bytes : Array UInt8} {file : SchemaFile} {before after : List SchemaFile}
    (hroot : tree.directoryAt? config.schemaRoot = some root)
    (hfound : findFiles config tree = .ok (before ++ file :: after))
    (honce : file ∉ before ++ after)
    (hfile : tree.get? (root ++ file.names) = some (.file bytes))
    (hothers : ∀ g ∈ before ++ after, ∃ place bytes,
      tree.locate true g.path = .ok (.found place (.file bytes)) ∧ place ≠ root ++ file.names) :
    Removed config tree (tree.erase (root ++ file.names)) file before after := by
  obtain ⟨hflaw, hdiscover⟩ := findFiles_ok_iff.mp hfound
  refine ⟨hfound, findFiles_ok_iff.mpr ⟨hflaw, ?_⟩, honce, fun g hg => ?_⟩
  · unfold discover at hdiscover ⊢
    rw [hroot] at hdiscover
    rw [FileTree.directoryAt?_erase hfile hroot, Option.map_some, FileTree.filesBelow_erase]
    rw [Option.map_some, Option.some_inj] at hdiscover
    rw [Option.some_inj, List.filter_comm, ← filter_without hdiscover honce, ← hdiscover,
      List.filter_map]
    rfl
  · obtain ⟨place, bytes', hlocate, hne⟩ := hothers g hg
    unfold Schema.load
    rw [FileTree.readText_erase hfile hlocate hne]

end Run

end RestForge
