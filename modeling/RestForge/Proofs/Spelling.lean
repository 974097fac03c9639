import RestForge.Naming.Identifier

/-!
# How code names are spelled

Every wire name, whatever its characters, asks for a code name that may stand in generated source.

* `CodeName`: a word of small letters, digits and underscores that begins with no digit and is no
  keyword.
* `codeName_identifier`, `identifier_notMem_reserved`: the identifier of a wire name is such a word and
  none of the words reserved in its scope.
* `identifier_eq_self_iff`: these words, and no others, ask for themselves; `identifier_settled`: so the
  identifier of a name asks for itself.
* `valuesConstant_injective`: code names are told apart by their constants.
-/

set_option autoImplicit false

namespace RestForge.Naming

/-- A legal name in small letters. -/
structure CodeName (name : String) : Prop where
  chars : ∀ c ∈ name.toList, isNameChar c = true
  start : ∃ c cs, name.toList = c :: cs ∧ (c.isLower = true ∨ c = '_')
  free : name ∉ keywords

/-! ## Characters -/

theorem isNameChar_foldChar (c : Char) : isNameChar (foldChar c) = true := by
  unfold foldChar
  split
  · assumption
  · decide

theorem starts_of_isNameChar {c : Char} (h : isNameChar c = true) (hd : c.isDigit = false) :
    c.isLower = true ∨ c = '_' := by
  simpa [isNameChar, hd] using h

theorem toNat_lt_of_isNameChar {c : Char} (h : isNameChar c = true) : c.toNat < 128 := by
  have hlower : c.isLower = true → c.toNat < 128 := by
    intro hc
    obtain ⟨-, hle⟩ := Bool.and_eq_true_iff.mp hc
    have hnat : c.toNat ≤ 'z'.toNat := UInt32.le_iff_toNat_le.mp (of_decide_eq_true hle)
    exact Nat.lt_of_le_of_lt hnat (by decide)
  have hdigit : c.isDigit = true → c.toNat < 128 := by
    intro hc
    obtain ⟨-, hle⟩ := Bool.and_eq_true_iff.mp hc
    have hnat : c.toNat ≤ '9'.toNat := UInt32.le_iff_toNat_le.mp (of_decide_eq_true hle)
    exact Nat.lt_of_le_of_lt hnat (by decide)
  simp only [isNameChar, Bool.or_eq_true, beq_iff_eq] at h
  obtain (h | h) | rfl := h
  · exact hlower h
  · exact hdigit h
  · decide

theorem CodeName.notMem {name : String} (h : CodeName name) {c : Char}
    (hc : isNameChar c = false) : c ∉ name.toList := by
  intro hmem
  rw [h.chars c hmem] at hc
  cases hc

theorem CodeName.ne_empty {name : String} (h : CodeName name) : name ≠ "" := by
  rintro rfl
  obtain ⟨c, cs, he, -⟩ := h.start
  cases he

/-! ## Keywords -/

/-- Only the lone underscore is a keyword that ends in one. -/
theorem append_underscore_notMem_keywords {name : String} (h : name ≠ "") :
    name ++ "_" ∉ keywords := by
  intro hmem
  have hlast : ∀ k ∈ keywords, k.toList.getLast? = some '_' → k = "_" := by decide
  have he := hlast _ hmem (by simp [String.toList_append])
  have hlen := congrArg (fun s => s.toList.length) he
  simp only [String.toList_append, List.length_append] at hlen
  apply h
  apply String.toList_injective
  exact List.eq_nil_of_length_eq_zero (by simpa using hlen)

theorem n_append_notMem_keywords (name : String) : "n" ++ name ∉ keywords := by
  intro hmem
  have hhead : ∀ k ∈ keywords, k.toList.head? ≠ some 'n' := by decide
  exact hhead _ hmem (by simp [String.toList_append])

/-! ## The identifier of a wire name -/

/-- The steps of `identifier`: a nonempty word of name characters, made free, then begun well. -/
theorem codeName_of_start {name : String} (hne : name ≠ "") (hfree : name ∉ keywords)
    (hchars : ∀ c ∈ name.toList, isNameChar c = true) :
    CodeName (if startsWithDigit name then "n" ++ name else name) := by
  obtain ⟨c, cs, hc⟩ := List.exists_cons_of_ne_nil
    (fun h => hne (String.toList_injective h) : name.toList ≠ [])
  by_cases hd : startsWithDigit name = true
  · rw [if_pos hd]
    refine ⟨fun d hmem => ?_, ⟨'n', name.toList, ?_, .inl (by decide)⟩,
      n_append_notMem_keywords name⟩
    · rw [String.toList_append] at hmem
      obtain hmem | hmem := List.mem_append.mp hmem
      · rw [List.mem_singleton.mp hmem]
        decide
      · exact hchars d hmem
    · rw [String.toList_append]
      rfl
  · rw [if_neg hd]
    refine ⟨hchars, ⟨c, cs, hc, ?_⟩, hfree⟩
    apply starts_of_isNameChar (hchars c (by simp [hc]))
    simpa [startsWithDigit, hc] using hd

theorem codeName_identifier (kind : ScopeKind) (wire : String) :
    CodeName (identifier kind wire) := by
  unfold identifier
  dsimp only
  generalize hfold : String.ofList (wire.toList.map foldChar) = folded
  have hfolded : ∀ c ∈ folded.toList, isNameChar c = true := by
    rw [← hfold, String.toList_ofList]
    intro c hc
    obtain ⟨d, -, rfl⟩ := List.mem_map.mp hc
    exact isNameChar_foldChar d
  generalize hnamed : (if folded.isEmpty then "_" else folded) = named
  have hchars : ∀ c ∈ named.toList, isNameChar c = true := by
    rw [← hnamed]
    split
    · intro c hc
      rw [List.mem_singleton.mp hc]
      decide
    · exact hfolded
  have hne : named ≠ "" := by
    rw [← hnamed]
    split
    · decide
    · rename_i hempty
      rwa [String.isEmpty_iff] at hempty
  by_cases hr : isReserved kind named = true
  · rw [if_pos hr]
    refine codeName_of_start (fun h => ?_) (append_underscore_notMem_keywords hne) fun c hc => ?_
    · have hlen := congrArg (fun s => s.toList.length) h
      simp [String.toList_append] at hlen
    · rw [String.toList_append] at hc
      obtain hc | hc := List.mem_append.mp hc
      · exact hchars c hc
      · rw [List.mem_singleton.mp hc]
        decide
  · rw [if_neg hr]
    refine codeName_of_start hne (fun hmem => hr ?_) hchars
    simp [isReserved, hmem]

/-- No reserved word begins with the letter or ends in the underscore that are added to others. -/
theorem identifier_notMem_reserved (kind : ScopeKind) (wire : String) :
    identifier kind wire ∉ kind.reserved := by
  have hreserved : ∀ k ∈ kind.reserved, k.toList.head? ≠ some 'n' ∧ k.toList.getLast? ≠ some '_' := by
    cases kind <;> decide
  have hfree : ∀ named : String,
      (if isReserved kind named then named ++ "_" else named) ∉ kind.reserved := by
    intro named hmem
    split at hmem
    · exact (hreserved _ hmem).2 (by simp [String.toList_append])
    · rename_i hr
      simp [isReserved, hmem] at hr
  unfold identifier
  dsimp only
  generalize (if (String.ofList (wire.toList.map foldChar)).isEmpty then "_"
    else String.ofList (wire.toList.map foldChar)) = named
  have hnamed := hfree named
  generalize (if isReserved kind named then named ++ "_" else named) = free at hnamed
  by_cases hd : startsWithDigit free = true
  · rw [if_pos hd]
    intro hmem
    exact (hreserved _ hmem).1 (by simp [String.toList_append])
  · rwa [if_neg hd]

/-! ## Names that stay as they are -/

theorem foldChar_of_isNameChar {c : Char} (h : isNameChar c = true) : foldChar c = c := by
  have hall : ∀ n : Fin 128, isNameChar (Char.ofNat n) = true →
      foldChar (Char.ofNat n) = Char.ofNat n := by decide
  have hc := hall ⟨c.toNat, toNat_lt_of_isNameChar h⟩
  simp only [Char.ofNat_toNat] at hc
  exact hc h

theorem CodeName.map_foldChar {name : String} (h : CodeName name) :
    String.ofList (name.toList.map foldChar) = name := by
  have hchars : name.toList.map foldChar = name.toList.map id :=
    List.map_congr_left fun c hc => foldChar_of_isNameChar (h.chars c hc)
  rw [hchars, List.map_id, String.ofList_toList]

theorem CodeName.not_startsWithDigit {name : String} (h : CodeName name) :
    startsWithDigit name = false := by
  obtain ⟨c, cs, hc, hstart⟩ := h.start
  rw [startsWithDigit, hc]
  obtain hlower | rfl := hstart
  · -- small letters lie behind the digits
    obtain ⟨hlow, -⟩ := Bool.and_eq_true_iff.mp hlower
    have hnat : 'a'.toNat ≤ c.toNat := UInt32.le_iff_toNat_le.mp (of_decide_eq_true hlow)
    refine Bool.eq_false_iff.mpr fun hdigit => ?_
    obtain ⟨-, hhigh⟩ := Bool.and_eq_true_iff.mp hdigit
    have hnat' : c.toNat ≤ '9'.toNat := UInt32.le_iff_toNat_le.mp (of_decide_eq_true hhigh)
    exact absurd (Nat.le_trans hnat hnat') (by decide)
  · rfl

/-- None of the three rules changes a legal name that its scope leaves free. -/
theorem identifier_eq_self_iff {kind : ScopeKind} {name : String} :
    identifier kind name = name ↔ CodeName name ∧ name ∉ kind.reserved := by
  constructor
  · intro h
    exact ⟨h ▸ codeName_identifier kind name, h ▸ identifier_notMem_reserved kind name⟩
  · rintro ⟨hname, hfree⟩
    have hsome : name.isEmpty = false := by simpa using hname.ne_empty
    have hreserved : isReserved kind name = false := by simp [isReserved, hname.free, hfree]
    have hstart := hname.not_startsWithDigit
    unfold identifier
    dsimp only
    rw [hname.map_foldChar, hsome, if_neg Bool.false_ne_true, hreserved, if_neg Bool.false_ne_true,
      hstart, if_neg Bool.false_ne_true]

/-- Whatever the wire name and its characters, its identifier is a legal name in small letters, no
keyword and not reserved in its scope, and it is its own identifier. -/
theorem identifier_settled (kind : ScopeKind) (wire : String) :
    CodeName (identifier kind wire) ∧ identifier kind wire ∉ kind.reserved
      ∧ identifier kind (identifier kind wire) = identifier kind wire := by
  have hname := codeName_identifier kind wire
  have hfree := identifier_notMem_reserved kind wire
  exact ⟨hname, hfree, identifier_eq_self_iff.mpr ⟨hname, hfree⟩⟩

/-! ## Constants of code names -/

theorem toLower_toUpper {c : Char} (h : isNameChar c = true) : c.toUpper.toLower = c := by
  have hall : ∀ n : Fin 128, isNameChar (Char.ofNat n) = true →
      (Char.ofNat n).toUpper.toLower = Char.ofNat n := by decide
  have hc := hall ⟨c.toNat, toNat_lt_of_isNameChar h⟩
  simp only [Char.ofNat_toNat] at hc
  exact hc h

theorem CodeName.map_toLower_toUpper {name : String} (h : CodeName name) :
    (name.toList.map Char.toUpper).map Char.toLower = name.toList := by
  rw [List.map_map]
  exact (List.map_congr_left fun c hc => toLower_toUpper (h.chars c hc)).trans (List.map_id _)

/-- Capitals keep code names apart. -/
theorem valuesConstant_injective {a b : String} (ha : CodeName a) (hb : CodeName b)
    (h : valuesConstant a = valuesConstant b) : a = b := by
  have hlists := congrArg String.toList h
  simp only [valuesConstant, String.toList_append, String.toList_ofList] at hlists
  have hupper := congrArg (List.map Char.toLower) (List.append_cancel_right hlists)
  rw [ha.map_toLower_toUpper, hb.map_toLower_toUpper] at hupper
  exact String.toList_injective hupper

/-- The constant of a field is none of the constants that every table has. -/
theorem valuesConstant_ne {name constant : String}
    (h : ¬ "_VALUES".toList <:+ constant.toList) : valuesConstant name ≠ constant := by
  rintro rfl
  apply h
  rw [valuesConstant, String.toList_append]
  exact List.suffix_append _ _

end RestForge.Naming
