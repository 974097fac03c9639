import RestForge.FileTree.Path
import RestForge.Proofs.Pieces

/-!
# Paths below a root

The files of a run are named by components below an output root. Whatever text the root is, the
components can be told from the path that they make, and the temporary file of a path lies beside it.

* `base`, `join_eq`: a joined path is a base that depends on the root alone, and the components with
  slashes between them.
* `join_injective`: different components make different paths.
* `temporary_join`: the temporary file differs from the file in the last component only.
-/

set_option autoImplicit false

namespace RestForge.FileTree.Path

open Text

/-- A name that leads from a directory to something in it. -/
structure IsName (name : String) : Prop where
  nonempty : name ≠ ""
  noSlash : '/' ∉ name.toList
  notDot : name ≠ "."
  notUp : name ≠ ".."

theorem IsName.not_idle {name : String} (h : IsName name) : isIdle name = false := by
  simp [isIdle, h.nonempty, h.notDot]

/-! ## Joining -/

/-- What stands in front of the names below a root. -/
def base (root : String) : String := push root ""

theorem push_eq (path name : String) : push path name = base path ++ name := by
  unfold base push
  split
  · simp
  · simp [String.append_assoc]

theorem push_append_name {name next : String} (prior : String) (h : IsName name) :
    push (prior ++ name) next = prior ++ name ++ "/" ++ next := by
  unfold push
  have hne : (prior ++ name).isEmpty = false := by
    simp [h.nonempty]
  have hlast : (prior ++ name).toList.getLast? ≠ some '/' := by
    intro hslash
    have hnil : name.toList ≠ [] := by simpa using h.nonempty
    rw [String.toList_append, List.getLast?_append, List.getLast?_eq_some_getLast hnil] at hslash
    have hmem := List.getLast_mem hnil
    rw [Option.some.inj hslash] at hmem
    exact h.noSlash hmem
  rw [hne, Bool.false_or, if_neg (by simpa using hlast)]

theorem join_append_name {name : String} (prior : String) (h : IsName name) (names : List String)
    (hnames : ∀ n ∈ names, IsName n) :
    join (prior ++ name) names = prior ++ String.intercalate "/" (name :: names) := by
  -- what stands before the last name goes into `prior`
  induction names generalizing prior name with
  | nil => simp [join]
  | cons next names ih =>
    have hnext : IsName next := hnames next (by simp)
    have hpush : push (prior ++ name) next = _ := push_append_name prior h
    rw [join, List.foldl_cons, ← join, hpush,
      ih (prior ++ name ++ "/") hnext fun n hn => hnames n (List.mem_cons_of_mem _ hn),
      String.intercalate_cons_cons]
    simp [String.append_assoc]

theorem join_eq (root : String) {names : List String} (hne : names ≠ [])
    (hnames : ∀ n ∈ names, IsName n) :
    join root names = base root ++ String.intercalate "/" names := by
  cases names with
  | nil => exact absurd rfl hne
  | cons name names =>
    rw [join, List.foldl_cons, ← join, push_eq]
    exact join_append_name _ (hnames name (by simp)) names fun n hn =>
      hnames n (List.mem_cons_of_mem _ hn)

theorem intercalate_injective {names names' : List String} (hne : names ≠ []) (hne' : names' ≠ [])
    (h : ∀ n ∈ names, IsName n) (h' : ∀ n ∈ names', IsName n)
    (he : String.intercalate "/" names = String.intercalate "/" names') : names = names' := by
  have hsplit : ∀ {l : List String}, (∀ n ∈ l, IsName n) → l ≠ [] →
      split '/' (String.intercalate "/" l) = l :=
    fun hl hnil => split_intercalate (fun n hn => (hl n hn).noSlash) hnil
  rw [← hsplit h hne, he, hsplit h' hne']

theorem join_injective (root : String) {names names' : List String} (hne : names ≠ [])
    (hne' : names' ≠ []) (h : ∀ n ∈ names, IsName n) (h' : ∀ n ∈ names', IsName n)
    (he : join root names = join root names') : names = names' := by
  rw [join_eq root hne h, join_eq root hne' h'] at he
  have htail : String.intercalate "/" names = String.intercalate "/" names' :=
    String.append_right_inj _ |>.mp he
  exact intercalate_injective hne hne' h h' htail

/-! ## Temporary files -/

/-- The name of the file that is written before it takes the place of the one named. -/
def temporaryName (name : String) : String := (cutExtension name).1 ++ "." ++ "tmp"

theorem dropIdleEnd_append {ps : List String} {name : String} (h : isIdle name = false) :
    dropIdleEnd (ps ++ [name]) = ps ++ [name] := by
  cases ps with
  | nil => rfl
  | cons p ps => simp [dropIdleEnd, h]

theorem base_cases (root : String) : base root = "" ∨ ∃ prior, base root = prior ++ "/" := by
  unfold base push
  split
  · rename_i h
    rw [Bool.or_eq_true, String.isEmpty_iff, beq_iff_eq] at h
    obtain rfl | h := h
    · exact .inl rfl
    · obtain ⟨cs, hcs⟩ := List.getLast?_eq_some_iff.mp h
      refine .inr ⟨String.ofList cs, ?_⟩
      apply String.toList_injective
      simp [hcs]
  · exact .inr ⟨root, by simp⟩

theorem ofPieces_pieces (path : String) : ofPieces (pieces path) = path := intercalate_split '/' path

/-- The pieces of a path that ends in a name, and how they are put together with another one. -/
theorem pieces_base_append (root : String) {name : String} (h : '/' ∉ name.toList) :
    ∃ ps, pieces (base root ++ name) = ps ++ [name]
      ∧ ∀ other, ofPieces (ps ++ [other]) = base root ++ other := by
  obtain hbase | ⟨prior, hbase⟩ := base_cases root
  · refine ⟨[], ?_, fun other => ?_⟩
    · rw [hbase, String.empty_append, pieces, split_of_notMem h, List.nil_append]
    · rw [hbase, String.empty_append, List.nil_append, ofPieces, String.intercalate_singleton]
  · have hslash : String.singleton '/' = "/" := rfl
    have hpieces := split_append '/' prior name
    rw [hslash, split_of_notMem h] at hpieces
    refine ⟨pieces prior, ?_, fun other => ?_⟩
    · rw [hbase, pieces, hpieces, ← pieces]
    · have hprior := ofPieces_pieces prior
      have hne : pieces prior ≠ [] := split_ne_nil '/' prior
      rw [ofPieces] at hprior
      rw [ofPieces, String.intercalate_append_of_ne_nil hne (by simp), hprior,
        String.intercalate_singleton, hbase]

theorem temporary_base_append (root : String) {name : String} (h : IsName name) :
    temporary (base root ++ name) = base root ++ temporaryName name := by
  obtain ⟨ps, hps, hjoin⟩ := pieces_base_append root h.noSlash
  have hdrop : dropIdleEnd (pieces (base root ++ name)) = ps ++ [name] := by
    rw [hps, dropIdleEnd_append h.not_idle]
  have hname : fileName? (base root ++ name) = some name := by
    rw [fileName?, hdrop, List.getLast?_concat]
    simp [h.not_idle, h.notUp]
  rw [temporary, withExtension, hname, hdrop, List.dropLast_concat]
  exact hjoin _

theorem temporary_join (root : String) (dir : List String) {name : String} (h : IsName name) :
    temporary (join root (dir ++ [name])) = join root (dir ++ [temporaryName name]) := by
  have hpush : ∀ n, join root (dir ++ [n]) = base (join root dir) ++ n := by
    intro n
    rw [← push_eq]
    exact List.foldl_append
  rw [hpush, hpush, temporary_base_append _ h]

end RestForge.FileTree.Path
