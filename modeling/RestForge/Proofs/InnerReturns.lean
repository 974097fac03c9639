import Mathlib.Data.List.DropRight
import RestForge.Proofs.Pieces

/-!
# Carriage returns inside lines

A text is cut into lines and every line is trimmed. What is left holds a carriage return only if it
stands inside a line, between two visible characters.

* `mem_trimWhere_iff`: which blanks are left when a text is trimmed.
* `Visible`, `InnerReturn`: a visible character before the line ends; a carriage return that has one on
  either side.
* `innerReturn_iff_line`: so it is just when a trimmed line of the text holds a carriage return.
* `innerReturn_append_line`, `innerReturn_append_visible`: texts that are put together from lines, and
  at a visible character.
* `InnerReturnIn`, `innerReturn_marked`: a text between two visible characters, whichever they are.
-/

set_option autoImplicit false

namespace RestForge.Text

/-! ## Trimming -/

section Trim

variable {p : Char → Bool} {c : Char}

theorem exists_dropWhile_iff (hc : p c = true) (cs right : List Char) :
    (∃ left, cs.dropWhile p = left ++ c :: right)
      ↔ ∃ left, cs = left ++ c :: right ∧ ∃ x ∈ left, p x = false := by
  induction cs with
  | nil => simp
  | cons d cs ih =>
    cases hd : p d with
    | true =>
      rw [List.dropWhile_cons_of_pos hd, ih]
      constructor
      · rintro ⟨left, rfl, x, hx, hpx⟩
        exact ⟨d :: left, rfl, x, List.mem_cons_of_mem _ hx, hpx⟩
      · rintro ⟨_ | ⟨e, left⟩, he, x, hx, hpx⟩
        · cases hx
        · obtain ⟨rfl, rfl⟩ := List.cons.inj he
          refine ⟨left, rfl, x, (List.mem_cons.mp hx).resolve_left ?_, hpx⟩
          rintro rfl
          rw [hd] at hpx
          cases hpx
    | false =>
      rw [List.dropWhile_cons_of_neg (by simp [hd])]
      constructor
      · rintro ⟨_ | ⟨e, left⟩, he⟩
        · rw [(List.cons.inj he).1, hc] at hd
          cases hd
        · obtain ⟨rfl, rfl⟩ := List.cons.inj he
          exact ⟨d :: left, rfl, d, List.mem_cons_self, hd⟩
      · rintro ⟨left, he, -⟩
        exact ⟨left, he⟩

theorem mem_dropEndWhile_iff (hc : p c = true) (cs : List Char) :
    c ∈ dropEndWhile p cs ↔ ∃ left right, cs = left ++ c :: right ∧ ∃ y ∈ right, p y = false := by
  rw [dropEndWhile, List.mem_reverse, List.mem_iff_append]
  constructor
  · rintro ⟨after, before, he⟩
    obtain ⟨after, hsplit, hseen⟩ := (exists_dropWhile_iff hc cs.reverse before).mp ⟨after, he⟩
    refine ⟨before.reverse, after.reverse, ?_, by simpa using hseen⟩
    rw [← List.reverse_reverse cs, hsplit]
    simp
  · rintro ⟨left, right, rfl, hseen⟩
    obtain ⟨after, he⟩ := (exists_dropWhile_iff hc (left ++ c :: right).reverse left.reverse).mpr
      ⟨right.reverse, by simp, by simpa using hseen⟩
    exact ⟨after, left.reverse, he⟩

/-- A blank is left if there is something else on both sides of it. -/
theorem mem_trimWhere_iff (hc : p c = true) (s : String) :
    c ∈ (trimWhere p s).toList ↔ ∃ left right, s.toList = left ++ c :: right
      ∧ (∃ x ∈ left, p x = false) ∧ ∃ y ∈ right, p y = false := by
  rw [trimWhere, String.toList_ofList, mem_dropEndWhile_iff hc]
  constructor
  · rintro ⟨start, right, he, hright⟩
    obtain ⟨left, hs, hleft⟩ := (exists_dropWhile_iff hc _ right).mp ⟨start, he⟩
    exact ⟨left, right, hs, hleft, hright⟩
  · rintro ⟨left, right, hs, hleft, hright⟩
    obtain ⟨start, he⟩ := (exists_dropWhile_iff hc _ right).mpr ⟨left, hs, hleft⟩
    exact ⟨start, right, he, hright⟩

theorem mem_of_mem_trimWhere {s : String} (h : c ∈ (trimWhere p s).toList) : c ∈ s.toList := by
  rw [trimWhere, String.toList_ofList] at h
  exact (List.dropWhile_sublist p).subset ((List.rdropWhile_prefix p _).subset h)

theorem trimWhere_trimWhere (p : Char → Bool) (s : String) :
    trimWhere p (trimWhere p s) = trimWhere p s := by
  have hend : ∀ cs, dropEndWhile p (dropEndWhile p cs) = dropEndWhile p cs :=
    fun cs => List.rdropWhile_idempotent p cs
  have hstart : (dropEndWhile p (s.toList.dropWhile p)).dropWhile p
      = dropEndWhile p (s.toList.dropWhile p) := by
    obtain ⟨rest, hrest⟩ : dropEndWhile p (s.toList.dropWhile p) <+: s.toList.dropWhile p :=
      List.rdropWhile_prefix p _
    cases h : dropEndWhile p (s.toList.dropWhile p) with
    | nil => rfl
    | cons d cs =>
      -- what is trimmed begins with the character at which dropping has stopped
      have hdrop := List.dropWhile_idempotent p s.toList
      rw [← hrest, h] at hdrop
      cases hd : p d with
      | false => exact List.dropWhile_cons_of_neg (by simp [hd])
      | true =>
        rw [List.cons_append, List.dropWhile_cons_of_pos hd] at hdrop
        have hshort := (List.dropWhile_sublist p (l := cs ++ rest)).length_le
        rw [hdrop, List.length_cons] at hshort
        omega
  rw [trimWhere, trimWhere, String.toList_ofList, hstart, hend]

end Trim

/-! ## Lines -/

theorem exists_line_iff {P : String → Prop} (hP : ¬P "") (s : String) :
    (∃ line ∈ lines s, P line) ↔ ∃ piece ∈ split '\n' s, P piece := by
  rw [lines]
  split
  · rename_i hlast
    have hpieces := List.dropLast_append_getLast? "" hlast
    constructor
    · rintro ⟨line, hline, h⟩
      exact ⟨line, List.dropLast_subset _ hline, h⟩
    · rintro ⟨piece, hpiece, h⟩
      rw [← hpieces, List.mem_append, List.mem_singleton] at hpiece
      obtain hpiece | rfl := hpiece
      · exact ⟨piece, hpiece, h⟩
      · exact absurd h hP
  · rfl

theorem notMem_of_mem_lines {s line : String} (h : line ∈ lines s) : '\n' ∉ line.toList := by
  rw [lines] at h
  split at h
  · exact notMem_of_mem_split (List.dropLast_subset _ h)
  · exact notMem_of_mem_split h

/-! ## Visible characters -/

/-- There is a visible character before the line ends. -/
def Visible : List Char → Prop
  | [] => False
  | c :: cs => isBlank c = false ∨ c ≠ '\n' ∧ Visible cs

theorem isBlank_newline : isBlank '\n' = true := by decide

theorem isBlank_return : isBlank '\r' = true := by decide

theorem ne_of_isBlank {c : Char} (h : isBlank c = false) : c ≠ '\r' ∧ c ≠ '\n' := by
  constructor
  · rintro rfl
    rw [isBlank_return] at h
    cases h
  · rintro rfl
    rw [isBlank_newline] at h
    cases h

theorem visible_append_line (cs rest : List Char) : Visible (cs ++ '\n' :: rest) ↔ Visible cs := by
  induction cs with
  | nil => simp [Visible, isBlank_newline]
  | cons d cs ih => rw [List.cons_append, Visible, Visible, ih]

theorem visible_append_visible {c d : Char} (hc : isBlank c = false) (hd : isBlank d = false)
    (cs rest rest' : List Char) : Visible (cs ++ c :: rest) ↔ Visible (cs ++ d :: rest') := by
  induction cs with
  | nil => simp [Visible, hc, hd]
  | cons e cs ih => rw [List.cons_append, List.cons_append, Visible, Visible, ih]

theorem visible_of_line {cs : List Char} (h : '\n' ∉ cs) :
    Visible cs ↔ ∃ x ∈ cs, isBlank x = false := by
  induction cs with
  | nil => simp [Visible]
  | cons d cs ih =>
    rw [List.mem_cons, not_or] at h
    rw [Visible, ih h.2, List.exists_mem_cons_iff, and_iff_right (Ne.symm h.1)]

/-! ## Returns inside a line -/

/-- There is a carriage return with a visible character of its line before it and one behind it. -/
def InnerReturn (cs : List Char) : Prop :=
  ∃ left right, cs = left ++ '\r' :: right ∧ Visible left.reverse ∧ Visible right

theorem not_innerReturn {cs : List Char} (h : '\r' ∉ cs) : ¬InnerReturn cs := by
  rintro ⟨left, right, rfl, -⟩
  exact h (List.mem_append_right _ List.mem_cons_self)

theorem exists_return_iff {c : Char} (hc : c ≠ '\r') (cs rest : List Char)
    (P : List Char → List Char → Prop) :
    (∃ left right, cs ++ c :: rest = left ++ '\r' :: right ∧ P left right)
      ↔ (∃ left right, cs = left ++ '\r' :: right ∧ P left (right ++ c :: rest))
        ∨ ∃ left right, rest = left ++ '\r' :: right ∧ P (cs ++ c :: left) right := by
  constructor
  · rintro ⟨left, right, he, h⟩
    obtain ⟨mid, rfl, hmid⟩ | ⟨mid, rfl, hmid⟩ := List.append_eq_append_iff.mp he
    · cases mid with
      | nil => exact absurd (List.cons.inj hmid).1 hc
      | cons d mid =>
        obtain ⟨rfl, rfl⟩ := List.cons.inj hmid
        exact .inr ⟨mid, right, rfl, h⟩
    · cases mid with
      | nil => exact absurd (List.cons.inj hmid).1.symm hc
      | cons d mid =>
        obtain ⟨rfl, rfl⟩ := List.cons.inj hmid
        exact .inl ⟨left, mid, rfl, h⟩
  · rintro (⟨left, right, rfl, h⟩ | ⟨left, right, rfl, h⟩)
    · exact ⟨left, right ++ c :: rest, by simp, h⟩
    · exact ⟨cs ++ c :: left, right, by simp, h⟩

theorem innerReturn_append_line (cs rest : List Char) :
    InnerReturn (cs ++ '\n' :: rest) ↔ InnerReturn cs ∨ InnerReturn rest := by
  rw [InnerReturn, exists_return_iff (by decide)]
  simp only [List.reverse_append, List.reverse_cons, List.append_assoc, List.singleton_append,
    visible_append_line]
  rfl

/-- A visible character belongs to what stands before it and to what stands behind it. -/
theorem innerReturn_append_visible {c : Char} (hc : isBlank c = false) (cs rest : List Char) :
    InnerReturn (cs ++ c :: rest) ↔ InnerReturn (cs ++ [c]) ∨ InnerReturn (c :: rest) := by
  have hne := (ne_of_isBlank hc).1
  have hseen : ∀ cs rest, Visible (cs ++ c :: rest) ↔ Visible (cs ++ [c]) :=
    fun cs rest => visible_append_visible hc hc cs rest []
  have hfront := exists_return_iff hne cs [] fun left right => Visible left.reverse ∧ Visible right
  have hback : InnerReturn (c :: rest) ↔ _ :=
    exists_return_iff hne [] rest fun left right => Visible left.reverse ∧ Visible right
  rw [hback, InnerReturn, InnerReturn, exists_return_iff hne, hfront]
  simp only [List.reverse_append, List.reverse_cons, List.append_assoc, List.singleton_append,
    hseen _ rest, hseen _ cs.reverse]
  simp

theorem innerReturn_of_line {cs : List Char} (h : '\n' ∉ cs) :
    InnerReturn cs ↔ '\r' ∈ (trim (String.ofList cs)).toList := by
  rw [trim, mem_trimWhere_iff isBlank_return, String.toList_ofList]
  refine exists_congr fun left => exists_congr fun right => and_congr_right ?_
  rintro rfl
  rw [List.mem_append, List.mem_cons, not_or, not_or] at h
  rw [visible_of_line (by simpa using h.1), visible_of_line h.2.2]
  simp

theorem innerReturn_intercalate (parts : List (List Char)) :
    InnerReturn (List.intercalate ['\n'] parts) ↔ ∃ part ∈ parts, InnerReturn part := by
  induction parts with
  | nil =>
    have hempty : ¬InnerReturn [] := not_innerReturn (by simp)
    simpa using hempty
  | cons part parts ih =>
    cases parts with
    | nil => simp
    | cons next parts =>
      rw [List.intercalate_cons_cons, List.append_assoc, List.singleton_append,
        innerReturn_append_line, ih]
      simp only [List.exists_mem_cons_iff]

/-- A trimmed line holds a carriage return just when the text has one inside a line. -/
theorem innerReturn_iff_line (s : String) :
    InnerReturn s.toList ↔ ∃ line ∈ lines s, '\r' ∈ (trim line).toList := by
  have hjoined : List.intercalate ['\n'] (s.toList.splitOn '\n') = s.toList :=
    List.intercalate_splitOn '\n'
  rw [exists_line_iff (by decide), ← hjoined, innerReturn_intercalate, split_eq]
  simp only [List.mem_map, exists_exists_and_eq_and]
  refine exists_congr fun line => and_congr_right fun hline => ?_
  exact innerReturn_of_line (notMem_of_mem_splitOn hline)

/-! ## Texts between visible characters -/

/-- There is a carriage return inside a line of a text that stands between two visible characters. -/
def InnerReturnIn (s : String) : Prop := InnerReturn ('`' :: (s.toList ++ ['`']))

theorem innerReturnIn_iff {c d : Char} (hc : isBlank c = false) (hd : isBlank d = false) (s : String) :
    InnerReturn (c :: (s.toList ++ [d])) ↔ InnerReturnIn s := by
  have htick : isBlank '`' = false := by decide
  have hends : ∀ c d : Char, isBlank c = false → isBlank d = false →
      (InnerReturn (c :: (s.toList ++ [d])) ↔ ∃ left right, s.toList = left ++ '\r' :: right
        ∧ Visible (left.reverse ++ ['`']) ∧ Visible (right ++ ['`'])) := by
    intro c d hc hd
    rw [InnerReturn, ← List.nil_append (c :: _), exists_return_iff (ne_of_isBlank hc).1,
      exists_return_iff (ne_of_isBlank hd).1]
    simp only [List.reverse_append, List.reverse_cons, List.append_assoc, List.singleton_append,
      visible_append_visible hc htick _ _ [], visible_append_visible hd htick _ _ []]
    simp
  rw [InnerReturnIn, hends c d hc hd, hends _ _ htick htick]

/-- What stands before the text holds no carriage return. -/
theorem innerReturn_marked {pre : List Char} (hpre : '\r' ∉ pre) {c d : Char} (hc : isBlank c = false)
    (hd : isBlank d = false) (s : String) (post : List Char) :
    InnerReturn (pre ++ c :: (s.toList ++ d :: post)) ↔ InnerReturnIn s ∨ InnerReturn (d :: post) := by
  have hfront : ¬InnerReturn (pre ++ [c]) :=
    not_innerReturn (by simp [hpre, Ne.symm (ne_of_isBlank hc).1])
  rw [innerReturn_append_visible hc, or_iff_right hfront, ← List.cons_append,
    innerReturn_append_visible hd, List.cons_append, innerReturnIn_iff hc hd]

theorem innerReturnIn_append {c : Char} (hc : isBlank c = false) (a b : String) :
    InnerReturnIn (a ++ String.singleton c ++ b) ↔ InnerReturnIn a ∨ InnerReturnIn b := by
  have htick : isBlank '`' = false := by decide
  have hempty : '\r' ∉ ([] : List Char) := by simp
  have hmarked := innerReturn_marked hempty htick hc a (b.toList ++ ['`'])
  rw [innerReturnIn_iff hc htick] at hmarked
  rw [← hmarked, InnerReturnIn]
  simp

theorem mem_of_innerReturnIn {s : String} (h : InnerReturnIn s) : '\r' ∈ s.toList := by
  by_contra hs
  exact not_innerReturn (by simp [hs]) h

end RestForge.Text
