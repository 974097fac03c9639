import RestForge.Text.Split

/-!
# Pieces of a text

What cutting a text at a character gives, as far as paths need it.

* `splitChars_eq_splitOn`: cutting is the list function that the library knows.
* `split_append`, `split_intercalate`: cutting a text that was put together.
* `intercalate_split`: a text is its pieces with the character between them.
* `notMem_of_mem_split`: no piece holds the character.
* `lastPiece_append`, `lastPiece_eq_self_iff`: the last piece of a text, and when it is all of it.
-/

set_option autoImplicit false

namespace RestForge.Text

theorem splitChars_eq_splitOn (sep : Char) (cs : List Char) :
    splitChars sep cs = cs.splitOn sep := by
  induction cs with
  | nil => simp [splitChars]
  | cons c cs ih =>
    rw [splitChars, List.splitOn_cons_eq_if_modifyHead, ih]
    by_cases hc : c = sep
    · simp [hc]
    · obtain ⟨piece, pieces, hp⟩ := List.exists_cons_of_ne_nil (List.splitOn_ne_nil sep cs)
      simp [hc, hp]

theorem split_eq (sep : Char) (s : String) :
    split sep s = (s.toList.splitOn sep).map String.ofList := by
  rw [split, splitChars_eq_splitOn]

theorem split_ne_nil (sep : Char) (s : String) : split sep s ≠ [] := by
  simp [split_eq]

theorem split_append (sep : Char) (a b : String) :
    split sep (a ++ String.singleton sep ++ b) = split sep a ++ split sep b := by
  simp only [split_eq, String.toList_append, String.toList_singleton, List.append_assoc,
    List.singleton_append]
  rw [List.splitOn_append_cons_self, List.map_append]

theorem split_of_notMem {sep : Char} {s : String} (h : sep ∉ s.toList) : split sep s = [s] := by
  rw [split_eq, List.splitOn_eq_singleton h]
  simp

/-- Pieces without the separator are found again. -/
theorem split_intercalate {sep : Char} {pieces : List String}
    (h : ∀ p ∈ pieces, sep ∉ p.toList) (hne : pieces ≠ []) :
    split sep (String.intercalate (String.singleton sep) pieces) = pieces := by
  have hlists : ∀ l ∈ pieces.map String.toList, sep ∉ l := by
    intro l hl
    obtain ⟨p, hp, rfl⟩ := List.mem_map.mp hl
    exact h p hp
  rw [split_eq, String.toList_intercalate, String.toList_singleton,
    List.splitOn_intercalate sep hlists (by simpa using hne)]
  simp

/-- Pieces are cut further where they hold the separator. -/
theorem split_intercalate_flatMap (sep : Char) {parts : List String} (hne : parts ≠ []) :
    split sep (String.intercalate (String.singleton sep) parts) = parts.flatMap (split sep) := by
  induction parts with
  | nil => exact absurd rfl hne
  | cons part parts ih =>
    cases parts with
    | nil => simp
    | cons next parts =>
      rw [String.intercalate_cons_cons, split_append, ih (by simp), List.flatMap_cons (x := part)]

theorem mem_intercalate_iff {c : Char} {sep : String} (hsep : c ∉ sep.toList) (parts : List String) :
    c ∈ (String.intercalate sep parts).toList ↔ ∃ p ∈ parts, c ∈ p.toList := by
  induction parts with
  | nil => simp
  | cons part parts ih =>
    cases parts with
    | nil => simp
    | cons next parts =>
      rw [String.intercalate_cons_cons, String.toList_append, List.mem_append, ih]
      simp [hsep]

theorem notMem_intercalate {c : Char} {sep : String} {parts : List String} (hsep : c ∉ sep.toList)
    (hparts : ∀ p ∈ parts, c ∉ p.toList) : c ∉ (String.intercalate sep parts).toList := by
  rw [mem_intercalate_iff hsep]
  rintro ⟨p, hp, hc⟩
  exact hparts p hp hc

theorem intercalate_split (sep : Char) (s : String) :
    String.intercalate (String.singleton sep) (split sep s) = s := by
  apply String.toList_injective
  have hlists : (split sep s).map String.toList = s.toList.splitOn sep := by
    rw [split_eq, List.map_map]
    simp
  rw [String.toList_intercalate, String.toList_singleton, hlists]
  exact List.intercalate_splitOn sep

theorem split_injective (sep : Char) {s s' : String} (h : split sep s = split sep s') : s = s' := by
  rw [← intercalate_split sep s, h, intercalate_split sep s']

/-! ## The last piece -/

theorem lastPiece_append (sep : Char) (a b : String) :
    lastPiece sep (a ++ String.singleton sep ++ b) = lastPiece sep b := by
  rw [lastPiece, lastPiece, split_append, List.getLastD_eq_getLast?, List.getLastD_eq_getLast?,
    List.getLast?_append, List.getLast?_eq_some_getLast (split_ne_nil sep b)]
  rfl

theorem lastPiece_mem (sep : Char) (s : String) : lastPiece sep s ∈ split sep s := by
  rw [lastPiece, List.getLastD_eq_getLast?, List.getLast?_eq_some_getLast (split_ne_nil sep s)]
  exact List.getLast_mem (split_ne_nil sep s)

theorem notMem_of_mem_splitOn {sep : Char} {cs l : List Char} (h : l ∈ cs.splitOn sep) :
    sep ∉ l := by
  induction cs generalizing l with
  | nil =>
    rw [List.splitOn_nil, List.mem_singleton] at h
    simp [h]
  | cons c cs ih =>
    obtain ⟨piece, pieces, hp⟩ := List.exists_cons_of_ne_nil (List.splitOn_ne_nil sep cs)
    have hpiece : sep ∉ piece := ih (by simp [hp])
    have hpieces : ∀ l ∈ pieces, sep ∉ l := fun l hl => ih (by simp [hp, hl])
    rw [List.splitOn_cons_eq_if_modifyHead, hp] at h
    by_cases hc : c = sep
    · simp only [hc, beq_self_eq_true, if_true, List.mem_cons] at h
      obtain rfl | rfl | hl := h
      · simp
      · exact hpiece
      · exact hpieces l hl
    · simp only [beq_iff_eq, hc, if_false, List.modifyHead_cons, List.mem_cons] at h
      obtain rfl | hl := h
      · simp [hpiece, Ne.symm hc]
      · exact hpieces l hl

theorem notMem_of_mem_split {sep : Char} {s piece : String} (h : piece ∈ split sep s) :
    sep ∉ piece.toList := by
  rw [split_eq, List.mem_map] at h
  obtain ⟨l, hl, rfl⟩ := h
  rw [String.toList_ofList]
  exact notMem_of_mem_splitOn hl

theorem notMem_lastPiece (sep : Char) (s : String) : sep ∉ (lastPiece sep s).toList :=
  notMem_of_mem_split (lastPiece_mem sep s)

/-- Only a text without the separator is its own last piece. -/
theorem lastPiece_eq_self_iff {sep : Char} {s : String} :
    lastPiece sep s = s ↔ sep ∉ s.toList := by
  constructor
  · intro h
    rw [← h]
    exact notMem_lastPiece sep s
  · intro h
    rw [lastPiece, split_of_notMem h]
    rfl

end RestForge.Text
