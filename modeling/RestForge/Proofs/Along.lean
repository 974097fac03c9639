import RestForge.Proofs.Walks

/-!
# Along names without links

* `namesOf`: the pieces of a path that lead somewhere; `NoLinks`: no link lies along names.
* `walk_plain`: there the search depends on nothing but the names.
* `along`: what it finds; `Missing`: a free place.
* `along_step`: the first of the names; `along_append`, `along_fault`: what comes behind.
* `along_congr`: what was found stays found where directories and files stay.
-/

set_option autoImplicit false

namespace RestForge.FileTree

/-! ## Names alone -/

/-- The pieces that lead somewhere. -/
def namesOf (ps : List String) : List String := ps.filter fun p => !Path.isIdle p

/-- The last piece leads somewhere. -/
def EndsNamed (ps : List String) : Prop := ∀ last, ps.getLast? = some last → Path.isIdle last = false

/-- No link lies along names from a place. -/
def NoLinks (t : FileTree) (here : Place) (names : List String) : Prop :=
  ∀ q, q ≠ [] → q <+: names → ∀ target, t.get? (here ++ q) ≠ some (.link target)

section Names

variable {t t' : FileTree} {here : Place} {ps qs names : List String} {name : String}

theorem namesOf_append (ps qs : List String) : namesOf (ps ++ qs) = namesOf ps ++ namesOf qs :=
  List.filter_append _ _

theorem namesOf_idle (h : ∀ p ∈ ps, Path.isIdle p = true) : namesOf ps = [] :=
  List.filter_eq_nil_iff.mpr fun p hp => by simp [h p hp]

theorem not_idle_of_mem_namesOf (h : name ∈ namesOf ps) : Path.isIdle name = false := by
  simpa using (List.mem_filter.mp h).2

theorem namesOf_of_names (h : ∀ n ∈ names, Path.isIdle n = false) : namesOf names = names :=
  List.filter_eq_self.mpr fun n hn => by simp [h n hn]

theorem namesOf_concat (ps : List String) (h : Path.isIdle name = false) :
    namesOf (ps ++ [name]) = namesOf ps ++ [name] := by
  rw [namesOf_append]
  exact congrArg (namesOf ps ++ ·) (namesOf_of_names (by simpa using h))

theorem EndsNamed.tail {p : String} (h : EndsNamed (p :: ps)) : EndsNamed ps := by
  intro last hlast
  refine h last ?_
  rw [List.getLast?_cons, hlast]
  rfl

theorem endsNamed_concat : EndsNamed (ps ++ [name]) ↔ Path.isIdle name = false := by
  unfold EndsNamed
  simp

/-- Pieces that end in a name are all idle only if there are none. -/
theorem EndsNamed.isEmpty (h : EndsNamed ps) : (namesOf ps).isEmpty = ps.isEmpty
    ∧ (namesOf ps).all String.isEmpty = ps.all String.isEmpty := by
  rcases List.eq_nil_or_concat ps with rfl | ⟨front, last, rfl⟩
  · exact ⟨rfl, rfl⟩
  · have hlast : Path.isIdle last = false := h last (by simp)
    have hempty : last.isEmpty = false := by
      rw [Path.isIdle, Bool.or_eq_false_iff] at hlast
      exact hlast.1
    rw [List.concat_eq_append, namesOf_concat front hlast]
    exact ⟨by rw [List.isEmpty_eq_false_iff.mpr (by simp), List.isEmpty_eq_false_iff.mpr (by simp)],
      by simp [hempty]⟩

theorem NoLinks.tail (h : NoLinks t here (name :: names)) : NoLinks t (here ++ [name]) names := by
  intro q hq hpart target hget
  rw [List.append_assoc] at hget
  exact h ([name] ++ q) (by simp) ((List.cons_prefix_cons).mpr ⟨rfl, hpart⟩) target hget

theorem NoLinks.mono (h : NoLinks t here names) (hpart : qs <+: names) : NoLinks t here qs :=
  fun q hq hqs => h q hq (hqs.trans hpart)

/-- Where no link lies along the names, neither the links left nor the idle pieces matter. -/
theorem walk_plain (hup : ".." ∉ ps) (hlast : EndsNamed ps) (hlinks : NoLinks t here (namesOf ps))
    (follow : Bool) (links : Nat) :
    t.walk follow links here ps = t.walk false 0 here (namesOf ps) := by
  induction ps generalizing here with
  | nil => rw [namesOf, List.filter_nil, walk, walk]
  | cons p ps ih =>
    have hup' : ".." ∉ ps := fun hmem => hup (List.mem_cons_of_mem _ hmem)
    obtain ⟨hsome, hall⟩ := hlast.tail.isEmpty
    cases hidle : Path.isIdle p with
    | true =>
      have hnames : namesOf (p :: ps) = namesOf ps := List.filter_cons_of_neg (by simp [hidle])
      rw [hnames] at hlinks ⊢
      rw [walk, if_pos hidle]
      exact ih hup' hlast.tail hlinks
    | false =>
      have hnames : namesOf (p :: ps) = p :: namesOf ps := List.filter_cons_of_pos (by simp [hidle])
      have hne : p ≠ ".." := fun he => hup (he ▸ List.mem_cons_self)
      rw [hnames] at hlinks ⊢
      by_cases hshort : nameLimit < p.utf8ByteSize
      · rw [walk, walk, if_neg (by simp [hidle]), if_neg hne, if_pos hshort,
          if_neg (by simp [hidle]), if_neg hne, if_pos hshort]
      · have hname : IsName p := ⟨hidle, hne, by omega⟩
        have hlink := hlinks [p] (by simp) ((List.cons_prefix_cons).mpr ⟨rfl, List.nil_prefix⟩)
        rw [walk_name hname, walk_name hname]
        rcases hget : t.get? (here ++ [p]) with _ | (bytes | target | _)
        · dsimp only
          rw [hsome, hall]
        · dsimp only
          rw [hsome]
        · exact absurd hget (hlink target)
        · exact ih hup' hlast.tail hlinks.tail

end Names

/-! ## Along names -/

/-- What lies at the end of names from a place, where no link lies along them. -/
def along (t : FileTree) (here : Place) (names : List String) : Except Fault Spot :=
  t.walk false 0 here names

/-- The search comes to a free place. -/
def Missing : Except Fault Spot → Prop
  | .ok (.free _ _) => True
  | .error .notFound => True
  | _ => False

/-- Pieces that lead somewhere, of whatever length. -/
def Named (names : List String) : Prop := ∀ n ∈ names, Path.isIdle n = false ∧ n ≠ ".."

theorem named_append {names more : List String} :
    Named (names ++ more) ↔ Named names ∧ Named more := by
  unfold Named
  simp only [List.mem_append]
  exact ⟨fun h => ⟨fun n hn => h n (.inl hn), fun n hn => h n (.inr hn)⟩,
    fun h n hn => hn.elim (h.1 n) (h.2 n)⟩

theorem named_namesOf {ps : List String} (hup : ".." ∉ ps) : Named (namesOf ps) := fun _ hn =>
  ⟨not_idle_of_mem_namesOf hn, fun he => hup (he ▸ (List.mem_filter.mp hn).1)⟩

section Along

variable {t t' : FileTree} {here : Place} {name : String} {names more : List String}

theorem Named.tail (h : Named (name :: names)) : Named names :=
  fun n hn => h n (List.mem_cons_of_mem _ hn)

theorem along_nil (t : FileTree) (here : Place) : t.along here [] = .ok (.found here .directory) := by
  rw [along, walk]

theorem along_into (hname : IsName name) (hget : t.get? (here ++ [name]) = some .directory)
    (names : List String) : t.along here (name :: names) = t.along (here ++ [name]) names := by
  rw [along, walk_name hname, hget]
  rfl

/-- What the search does at the first of some names. -/
inductive Step (t : FileTree) (here : Place) (name : String) (names : List String) : Prop where
  | long (hlong : nameLimit < name.utf8ByteSize)
      (he : t.along here (name :: names) = .error .nameTooLong)
  | free (hshort : IsName name) (hget : t.get? (here ++ [name]) = none)
      (he : t.along here (name :: names)
        = if names = [] then .ok (.free (here ++ [name]) false) else .error .notFound)
  | file (hshort : IsName name) (bytes : Array UInt8)
      (hget : t.get? (here ++ [name]) = some (.file bytes))
      (he : t.along here (name :: names)
        = if names = [] then .ok (.found (here ++ [name]) (.file bytes)) else .error .notDirectory)
  | directory (hshort : IsName name) (hget : t.get? (here ++ [name]) = some .directory)
      (he : t.along here (name :: names) = t.along (here ++ [name]) names)

theorem along_step (hnamed : Named (name :: names)) (hlinks : NoLinks t here (name :: names)) :
    Step t here name names := by
  obtain ⟨hidle, hup⟩ := hnamed name List.mem_cons_self
  by_cases hlong : nameLimit < name.utf8ByteSize
  · refine .long hlong ?_
    rw [along, walk, if_neg (by simp [hidle]), if_neg hup, if_pos hlong]
  · have hname : IsName name := ⟨hidle, hup, by omega⟩
    rcases hget : t.get? (here ++ [name]) with _ | (bytes | target | _)
    · refine .free hname hget ?_
      rw [along, walk_name hname, hget]
      cases names with
      | nil => rfl
      | cons next names =>
        have hempty : next.isEmpty = false := by
          have hnext := (hnamed next (by simp)).1
          rw [Path.isIdle, Bool.or_eq_false_iff] at hnext
          exact hnext.1
        dsimp only
        rw [if_neg (by simp [hempty]), if_neg (by simp)]
    · refine .file hname bytes hget ?_
      rw [along, walk_name hname, hget]
      dsimp only
      simp only [List.isEmpty_iff]
    · exact absurd hget (hlinks [name] (by simp) ((List.cons_prefix_cons).mpr ⟨rfl, List.nil_prefix⟩)
        target)
    · exact .directory hname hget (along_into hname hget names)

theorem along_long (hnamed : Named [name]) (here : Place) :
    t.along here [name] = .error .nameTooLong ∨ IsName name := by
  obtain ⟨hidle, hup⟩ := hnamed name List.mem_cons_self
  by_cases hlong : nameLimit < name.utf8ByteSize
  · rw [along, walk, if_neg (by simp [hidle]), if_neg hup, if_pos hlong]
    exact .inl rfl
  · exact .inr ⟨hidle, hup, by omega⟩

/-- What is found along names lies at their end. -/
theorem along_found (hnamed : Named names) (hlinks : NoLinks t here names) {p : Place} {entry : Entry}
    (h : t.along here names = .ok (.found p entry)) : p = here ++ names
      ∧ (names ≠ [] → t.get? p = some entry) ∧ (names = [] → entry = .directory) := by
  induction names generalizing here with
  | nil =>
    rw [along_nil] at h
    cases h
    exact ⟨(List.append_nil _).symm, fun hne => absurd rfl hne, fun _ => rfl⟩
  | cons name names ih =>
    obtain ⟨-, he⟩ | ⟨-, hget, he⟩ | ⟨-, bytes, hget, he⟩ | ⟨-, hget, he⟩ := along_step hnamed hlinks
    · rw [he] at h
      cases h
    · rw [he] at h
      split at h <;> cases h
    · rw [he] at h
      split at h
      · rename_i hnil
        subst hnil
        cases h
        exact ⟨rfl, fun _ => hget, fun hnil => by cases hnil⟩
      · cases h
    · rw [he] at h
      obtain ⟨rfl, hsome, hnil⟩ := ih hnamed.tail hlinks.tail h
      refine ⟨by rw [List.append_assoc, List.singleton_append], fun _ => ?_, fun hnil => by cases hnil⟩
      by_cases hempty : names = []
      · rw [hnil hempty, hempty, List.append_nil, hget]
      · exact hsome hempty

/-- The search goes on where the names lead to a directory. -/
theorem along_append (hnamed : Named names) (hlinks : NoLinks t here names) {p : Place}
    (h : t.along here names = .ok (.found p .directory)) (more : List String) :
    t.along here (names ++ more) = t.along (here ++ names) more := by
  induction names generalizing here with
  | nil => rw [List.nil_append, List.append_nil]
  | cons name names ih =>
    obtain ⟨-, he⟩ | ⟨-, hget, he⟩ | ⟨-, bytes, hget, he⟩ | ⟨hname, hget, he⟩ :=
      along_step hnamed hlinks
    · rw [he] at h
      cases h
    · rw [he] at h
      split at h <;> cases h
    · rw [he] at h
      split at h <;> simp at h
    · rw [he] at h
      rw [List.cons_append, along_into hname hget, ih hnamed.tail hlinks.tail h, List.append_assoc,
        List.singleton_append]

/-- A fault on the way is met again whatever comes behind, unless something was missing. -/
theorem along_fault (hnamed : Named names) (hlinks : NoLinks t here (names ++ more)) {e : Fault}
    (hmore : Named more) (h : t.along here names = .error e) (hmissing : e ≠ .notFound) :
    t.along here (names ++ more) = .error e := by
  induction names generalizing here with
  | nil =>
    rw [along_nil] at h
    cases h
  | cons name names ih =>
    have hlinks' := hlinks.mono (List.prefix_append _ _)
    have hwhole : Step t here name (names ++ more) :=
      along_step (named_append.mpr ⟨hnamed, hmore⟩) hlinks
    obtain ⟨hlong, he⟩ | ⟨-, hget, he⟩ | ⟨hname, bytes, hget, he⟩ | ⟨hname, hget, he⟩ :=
      along_step hnamed hlinks' <;> rw [he] at h
    · obtain ⟨-, he'⟩ | ⟨hname, -⟩ | ⟨hname, -⟩ | ⟨hname, -⟩ := hwhole
      · rw [List.cons_append, he', ← h]
      · exact absurd hname.2.2 (by omega)
      · exact absurd hname.2.2 (by omega)
      · exact absurd hname.2.2 (by omega)
    · split at h <;> cases h
      exact absurd rfl hmissing
    · split at h <;> cases h
      rename_i hne
      rw [List.cons_append, along, walk_name hname, hget]
      dsimp only
      rw [if_neg (by simp [hne])]
    · rw [List.cons_append, along_into hname hget]
      exact ih hnamed.tail hlinks.tail h

/-- Where the search comes to a free place, one of the names is the first that is not there. -/
theorem along_missing (hnamed : Named names) (hlinks : NoLinks t here names)
    (h : Missing (t.along here names)) : ∃ before name after, names = before ++ name :: after
      ∧ IsName name ∧ t.along here before = .ok (.found (here ++ before) .directory)
      ∧ t.get? (here ++ before ++ [name]) = none := by
  induction names generalizing here with
  | nil =>
    rw [along_nil] at h
    exact h.elim
  | cons name names ih =>
    obtain ⟨-, he⟩ | ⟨hname, hget, he⟩ | ⟨-, bytes, hget, he⟩ | ⟨hname, hget, he⟩ :=
      along_step hnamed hlinks <;> rw [he] at h
    · exact h.elim
    · refine ⟨[], name, names, rfl, hname, ?_, by rw [List.append_nil, hget]⟩
      rw [along_nil, List.append_nil]
    · split at h <;> exact h.elim
    · obtain ⟨before, next, after, rfl, hnext, hdir, hfree⟩ := ih hnamed.tail hlinks.tail h
      refine ⟨name :: before, next, after, rfl, hnext, ?_, ?_⟩
      · rw [along_into hname hget, hdir, List.append_assoc, List.singleton_append]
      · rwa [← List.singleton_append, ← List.append_assoc]

/-- Names lead to a directory where no file is in the way and nothing is missing. -/
theorem along_clear (hshort : ∀ n ∈ names, IsName n) (hlinks : NoLinks t here names)
    (hfiles : ∀ q, q ≠ [] → q <+: names → ∀ bytes, t.get? (here ++ q) ≠ some (.file bytes))
    (h : ¬Missing (t.along here names)) :
    t.along here names = .ok (.found (here ++ names) .directory) := by
  induction names generalizing here with
  | nil => rw [along_nil, List.append_nil]
  | cons name names ih =>
    have hfirst : [name] <+: name :: names := (List.cons_prefix_cons).mpr ⟨rfl, List.nil_prefix⟩
    have hnamed : Named (name :: names) := fun n hn => ⟨(hshort n hn).1, (hshort n hn).2.1⟩
    obtain ⟨hlong, -⟩ | ⟨-, -, he⟩ | ⟨-, bytes, hget, -⟩ | ⟨-, -, he⟩ := along_step hnamed hlinks
    · exact absurd (hshort name List.mem_cons_self).2.2 (by omega)
    · rw [he] at h
      split at h <;> exact absurd trivial h
    · exact absurd hget (hfiles [name] (by simp) hfirst bytes)
    · rw [he] at h
      rw [he, ih (fun n hn => hshort n (List.mem_cons_of_mem _ hn)) hlinks.tail (fun q hq hpart => ?_) h,
        List.append_assoc, List.singleton_append]
      rw [List.append_assoc]
      exact hfiles ([name] ++ q) (by simp) ((List.cons_prefix_cons).mpr ⟨rfl, hpart⟩)

/-- What lies at the end of names still does where directories have stayed, and files along them. -/
theorem along_congr (hnamed : Named names) (hlinks : NoLinks t here names)
    (hdirs : ∀ p, t.get? p = some .directory → t'.get? p = some .directory)
    (hfiles : ∀ q, q ≠ [] → q <+: names → ∀ bytes, t.get? (here ++ q) = some (.file bytes) →
      t'.get? (here ++ q) = some (.file bytes)) (h : ¬Missing (t.along here names)) :
    t'.along here names = t.along here names := by
  induction names generalizing here with
  | nil => rw [along_nil, along_nil]
  | cons name names ih =>
    have hfirst : [name] <+: name :: names := (List.cons_prefix_cons).mpr ⟨rfl, List.nil_prefix⟩
    obtain ⟨hlong, he⟩ | ⟨-, -, he⟩ | ⟨hname, bytes, hget, he⟩ | ⟨hname, hget, he⟩ :=
      along_step hnamed hlinks <;> rw [he] at h
    · obtain ⟨hidle, hup⟩ := hnamed name List.mem_cons_self
      rw [he, along, walk, if_neg (by simp [hidle]), if_neg hup, if_pos hlong]
    · split at h <;> exact absurd trivial h
    · rw [he, along, walk_name hname, hfiles [name] (by simp) hfirst bytes hget]
      dsimp only
      simp only [List.isEmpty_iff]
    · rw [he, along_into hname (hdirs _ hget)]
      refine ih hnamed.tail hlinks.tail (fun q hq hpart bytes hfile => ?_) h
      rw [List.append_assoc] at hfile ⊢
      exact hfiles ([name] ++ q) (by simp) ((List.cons_prefix_cons).mpr ⟨rfl, hpart⟩) bytes hfile

end Along

end RestForge.FileTree
