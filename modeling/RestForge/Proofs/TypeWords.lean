import RestForge.Proofs.Spelling

/-!
# How type names are spelled

A type name is the camel case of code names, so all that can be wrong with it is a digit in front.

* `camelRun`: camel case of small letters, digits and underscores, character by character.
* `camelCase_eq`: cutting into words comes to the same.
* `TypeWord`: a word of letters, digits and underscores that begins with a capital letter or a digit.
* `DigitFirst`: code names whose first character, underscores apart, is a digit.
* `typeWord_typeName`, `startsWithDigit_typeName`: the type name of code names.
* `TypeWord.isLegalType_iff`: which of these words may stand as the name of a type.
-/

set_option autoImplicit false

namespace RestForge.Text

open Naming (isNameChar toNat_lt_of_isNameChar)

/-! ## Characters -/

/-- The characters of names can be tried one by one. -/
theorem nameChar_all {P : Char → Prop}
    (hall : ∀ n : Fin 128, isNameChar (Char.ofNat n) = true → P (Char.ofNat n)) {c : Char}
    (h : isNameChar c = true) : P c := by
  have hc := hall ⟨c.toNat, toNat_lt_of_isNameChar h⟩
  simp only [Char.ofNat_toNat] at hc
  exact hc h

theorem isAlphanumeric_of_nameChar {c : Char} (h : isNameChar c = true) :
    isAlphanumeric c = (c != '_') := by
  rw [isAlphanumeric, if_pos (toNat_lt_of_isNameChar h)]
  exact nameChar_all (P := fun c => c.isAlphanum = (c != '_')) (by decide) h

theorem isUppercase_of_nameChar {c : Char} (h : isNameChar c = true) : isUppercase c = false := by
  rw [isUppercase, if_pos (toNat_lt_of_isNameChar h)]
  exact nameChar_all (P := fun c => c.isUpper = false) (by decide) h

theorem toUppercase_of_nameChar {c : Char} (h : isNameChar c = true) :
    toUppercase c = [c.toUpper] := by
  rw [toUppercase, if_pos (toNat_lt_of_isNameChar h)]

theorem toLowercase_of_nameChar {c : Char} (h : isNameChar c = true) : toLowercase c = [c] := by
  rw [toLowercase, if_pos (toNat_lt_of_isNameChar h)]
  exact nameChar_all (P := fun c => [c.toLower] = [c]) (by decide) h

/-! ## Words of small letters -/

/-- Nothing but an underscore ends a word where there are no capitals. -/
theorem humps_of_nameChars (casing : Casing) (word piece : List Char)
    (h : ∀ c ∈ piece, isNameChar c = true) :
    humps casing word piece = if piece.isEmpty then [] else [word.reverse ++ piece] := by
  induction piece generalizing casing word with
  | nil => rfl
  | cons c piece ih =>
    cases piece with
    | nil => simp [humps]
    | cons next rest =>
      have hc := isUppercase_of_nameChar (h c (by simp))
      have hnext := isUppercase_of_nameChar (h next (by simp))
      rw [humps, hc, hnext]
      simp only [Bool.and_false, Bool.false_and, Bool.false_eq_true, if_false]
      rw [ih _ _ fun d hd => h d (List.mem_cons_of_mem _ hd)]
      simp

theorem lowercaseWord_of_nameChars {cs : List Char} (h : ∀ c ∈ cs, isNameChar c = true) :
    lowercaseWord cs = cs := by
  induction cs with
  | nil => rfl
  | cons c cs ih =>
    have hc := h c (by simp)
    cases cs with
    | nil =>
      have hsigma : c ≠ 'Σ' := by
        rintro rfl
        exact absurd hc (by decide)
      rw [lowercaseWord, if_neg hsigma, toLowercase_of_nameChar hc]
    | cons next rest =>
      rw [lowercaseWord, toLowercase_of_nameChar hc, ih fun d hd => h d (List.mem_cons_of_mem _ hd)]
      rfl

theorem capitalize_of_nameChars {c : Char} {cs : List Char}
    (h : ∀ d ∈ c :: cs, isNameChar d = true) : capitalize (c :: cs) = c.toUpper :: cs := by
  rw [capitalize, toUppercase_of_nameChar (h c (by simp)),
    lowercaseWord_of_nameChars fun d hd => h d (List.mem_cons_of_mem _ hd)]
  rfl

/-- Camel case in one pass; `fresh` at the beginning of a word. -/
def camelRun : Bool → List Char → List Char
  | _, [] => []
  | fresh, c :: cs =>
    if c = '_' then camelRun true cs
    else (if fresh then c.toUpper else c) :: camelRun false cs

/-- The first piece is the word that is still going on. -/
theorem alphanumericPieces_camelRun {cs : List Char} (h : ∀ c ∈ cs, isNameChar c = true) :
    ∃ piece pieces, alphanumericPieces cs = piece :: pieces
      ∧ (∀ p ∈ piece :: pieces, ∀ c ∈ p, isNameChar c = true)
      ∧ camelRun false cs = piece ++ pieces.flatMap capitalize
      ∧ camelRun true cs = (piece :: pieces).flatMap capitalize := by
  induction cs with
  | nil => exact ⟨[], [], rfl, by simp, rfl, rfl⟩
  | cons c cs ih =>
    obtain ⟨piece, pieces, hpieces, hchars, hfalse, htrue⟩ :=
      ih fun d hd => h d (List.mem_cons_of_mem _ hd)
    have hc := h c (by simp)
    have halnum := isAlphanumeric_of_nameChar hc
    by_cases hunder : c = '_'
    · refine ⟨[], piece :: pieces, ?_, ?_, ?_, ?_⟩
      · rw [alphanumericPieces, halnum, hunder, hpieces]
        rfl
      · exact List.forall_mem_cons.mpr ⟨by simp, hchars⟩
      · rw [camelRun, if_pos hunder, htrue]
        rfl
      · rw [camelRun, if_pos hunder, htrue]
        rfl
    · have hword : ∀ d ∈ c :: piece, isNameChar d = true :=
        List.forall_mem_cons.mpr ⟨hc, hchars piece (by simp)⟩
      refine ⟨c :: piece, pieces, ?_, ?_, ?_, ?_⟩
      · rw [alphanumericPieces, halnum, if_pos (by simpa using hunder), hpieces]
      · exact List.forall_mem_cons.mpr ⟨hword, fun p hp => hchars p (List.mem_cons_of_mem _ hp)⟩
      · rw [camelRun, if_neg hunder, hfalse]
        rfl
      · rw [camelRun, if_neg hunder, hfalse, List.flatMap_cons, capitalize_of_nameChars hword]
        rfl

theorem camelCase_eq {s : String} (h : ∀ c ∈ s.toList, isNameChar c = true) :
    camelCase s = String.ofList (camelRun true s.toList) := by
  obtain ⟨piece, pieces, hpieces, hchars, -, htrue⟩ := alphanumericPieces_camelRun h
  have hhumps : ∀ p ∈ piece :: pieces, (humps .uncased [] p).flatMap capitalize = capitalize p := by
    intro p hp
    rw [humps_of_nameChars _ _ _ (hchars p hp)]
    cases p <;> simp [capitalize]
  rw [camelCase, words, hpieces, htrue, List.flatMap_assoc, List.flatMap_def,
    List.map_congr_left hhumps, ← List.flatMap_def]

/-! ## The characters of camel case -/

theorem camelRun_chars {fresh : Bool} {cs : List Char} (h : ∀ c ∈ cs, isNameChar c = true) :
    ∀ d ∈ camelRun fresh cs, d.isAlphanum = true := by
  induction cs generalizing fresh with
  | nil => simp [camelRun]
  | cons c cs ih =>
    have hrest := fun d hd => h d (List.mem_cons_of_mem _ hd)
    rw [camelRun]
    split
    · exact ih hrest
    · rename_i hunder
      have hletter : ∀ fresh : Bool, (if fresh then c.toUpper else c).isAlphanum = true :=
        nameChar_all (P := fun c => c ≠ '_' → ∀ fresh : Bool,
          (if fresh then c.toUpper else c).isAlphanum = true) (by decide) (h c (by simp)) hunder
      exact List.forall_mem_cons.mpr ⟨hletter fresh, ih hrest⟩

theorem head?_camelRun (cs : List Char) :
    (camelRun true cs).head? = (cs.find? (· != '_')).map Char.toUpper := by
  induction cs with
  | nil => rfl
  | cons c cs ih =>
    rw [camelRun]
    by_cases hunder : c = '_'
    · simp [hunder, ih]
    · have hfound : (c != '_') = true := by simpa using hunder
      simp [hunder, hfound]

end RestForge.Text

namespace RestForge.Naming

open Text

/-! ## Words for types -/

structure TypeWord (name : String) : Prop where
  chars : ∀ c ∈ name.toList, c.isAlphanum = true ∨ c = '_'
  start : ∃ c cs, name.toList = c :: cs ∧ (c.isUpper = true ∨ c.isDigit = true)
  free : name ≠ "Self"

/-- A name that may be given to a type: an identifier and no keyword, in capitals neither. -/
def IsLegalType (name : String) : Prop := isIdentifier name = true ∧ name ∉ "Self" :: keywords

/-- Underscores apart, the first character of the code names is a digit. -/
def DigitFirst (parts : List String) : Prop :=
  ∃ c, (String.intercalate "_" parts).toList.find? (· != '_') = some c ∧ c.isDigit = true

theorem TypeWord.notMem_keywords {name : String} (h : TypeWord name) : name ∉ keywords := by
  intro hmem
  have hall : keywords.all (fun k => k.toList.head?.all fun c => !c.isUpper && !c.isDigit) = true := by
    decide
  obtain ⟨c, cs, he, hstart⟩ := h.start
  have hfirst := List.all_eq_true.mp hall name hmem
  rw [he, List.head?_cons, Option.all_some, Bool.and_eq_true, Bool.not_eq_true', Bool.not_eq_true']
    at hfirst
  obtain ⟨hupper, hdigit⟩ := hfirst
  obtain hstart | hstart := hstart
  · rw [hupper] at hstart
    cases hstart
  · rw [hdigit] at hstart
    cases hstart

theorem not_isAlpha_of_isDigit {c : Char} (h : c.isDigit = true) : c.isAlpha = false := by
  have hname : isNameChar c = true := by simp [isNameChar, h]
  exact nameChar_all (P := fun c => c.isDigit = true → c.isAlpha = false) (by decide) hname h

theorem TypeWord.isIdentifier_iff {name : String} (h : TypeWord name) :
    isIdentifier name = true ↔ startsWithDigit name = false := by
  obtain ⟨c, cs, he, hstart⟩ := h.start
  have hrest : (cs.all fun d => d.isAlphanum || d == '_') = true := by
    rw [List.all_eq_true]
    intro d hd
    simpa using h.chars d (by simp [he, hd])
  rw [isIdentifier, startsWithDigit, he]
  simp only [hrest, Bool.and_true]
  obtain hupper | hdigit := hstart
  · have halpha : c.isAlpha = true := (Bool.or_eq_true ..).mpr (.inl hupper)
    have hdigit : c.isDigit = false := by
      refine Bool.eq_false_iff.mpr fun hdigit => ?_
      rw [not_isAlpha_of_isDigit hdigit] at halpha
      cases halpha
    simp [halpha, hdigit]
  · have hunder : c ≠ '_' := by
      rintro rfl
      cases hdigit
    simp [not_isAlpha_of_isDigit hdigit, hdigit, hunder]

theorem TypeWord.isLegalType_iff {name : String} (h : TypeWord name) :
    IsLegalType name ↔ startsWithDigit name = false := by
  have hfree : name ∉ "Self" :: keywords := by
    rw [List.mem_cons, not_or]
    exact ⟨h.free, h.notMem_keywords⟩
  rw [IsLegalType, h.isIdentifier_iff]
  exact and_iff_left hfree

theorem TypeWord.client {name : String} (h : TypeWord name) : TypeWord (name ++ "Client") := by
  obtain ⟨c, cs, he, hstart⟩ := h.start
  refine ⟨fun d hd => ?_, ⟨c, cs ++ "Client".toList, by rw [String.toList_append, he]; rfl, hstart⟩,
    fun hself => ?_⟩
  · rw [String.toList_append] at hd
    obtain hd | hd := List.mem_append.mp hd
    · exact h.chars d hd
    · have hall : "Client".toList.all Char.isAlphanum = true := by decide
      exact .inl (List.all_eq_true.mp hall d hd)
  · have hlen := congrArg (fun s => s.toList.length) hself
    simp [String.toList_append] at hlen

theorem startsWithDigit_client {name : String} (h : TypeWord name) :
    startsWithDigit (name ++ "Client") = startsWithDigit name := by
  obtain ⟨c, cs, he, -⟩ := h.start
  rw [startsWithDigit, startsWithDigit, String.toList_append, he]
  rfl

/-! ## The type name of code names -/

theorem nameChars_intercalate {parts : List String} (h : ∀ p ∈ parts, CodeName p) :
    ∀ c ∈ (String.intercalate "_" parts).toList, isNameChar c = true := by
  induction parts with
  | nil => simp
  | cons p parts ih =>
    have hp := (h p (by simp)).chars
    cases parts with
    | nil => simpa using hp
    | cons q parts =>
      have hrest := ih fun q hq => h q (List.mem_cons_of_mem _ hq)
      intro c hc
      rw [String.intercalate_cons_cons, String.toList_append, String.toList_append] at hc
      obtain hc | hc := List.mem_append.mp hc
      · obtain hc | hc := List.mem_append.mp hc
        · exact hp c hc
        · rw [List.mem_singleton.mp hc]
          rfl
      · exact hrest c hc

/-- What stands in front of a type name if the code names consist of underscores. -/
def firstLetter (parts : List String) : Char :=
  match (String.intercalate "_" parts).toList.find? (· != '_') with
  | some c => c.toUpper
  | none => 'R'

/-- The name before it gets out of the way of a reserved one. -/
def bareName (parts : List String) : String :=
  let camel := camelCase (String.intercalate "_" parts)
  if camel.isEmpty then "Resource" else camel

theorem typeName_eq (parts : List String) : typeName parts
    = if reservedTypes.contains (bareName parts) then bareName parts ++ "_" else bareName parts :=
  rfl

section CodeNames

variable {parts : List String} (h : ∀ p ∈ parts, CodeName p)

include h

theorem bareName_chars : ∀ c ∈ (bareName parts).toList, c.isAlphanum = true := by
  unfold bareName
  dsimp only
  split
  · exact List.all_eq_true.mp (by decide)
  · rw [camelCase_eq (nameChars_intercalate h), String.toList_ofList]
    exact camelRun_chars (nameChars_intercalate h)

theorem bareName_start : ∃ cs, (bareName parts).toList = firstLetter parts :: cs := by
  have hhead := head?_camelRun (String.intercalate "_" parts).toList
  unfold bareName firstLetter
  rw [camelCase_eq (nameChars_intercalate h)]
  cases hrun : camelRun true (String.intercalate "_" parts).toList with
  | nil =>
    rw [hrun] at hhead
    rw [Option.map_eq_none_iff.mp hhead.symm]
    exact ⟨"esource".toList, rfl⟩
  | cons c cs =>
    rw [hrun] at hhead
    obtain ⟨d, hd, hc⟩ := Option.map_eq_some_iff.mp hhead.symm
    refine ⟨cs, ?_⟩
    rw [hd]
    dsimp only
    rw [hc, if_neg (by simp), String.toList_ofList]

theorem firstLetter_spec : (firstLetter parts).isUpper = true ∧ ¬ DigitFirst parts
    ∨ (firstLetter parts).isDigit = true ∧ DigitFirst parts := by
  unfold firstLetter DigitFirst
  cases hfind : (String.intercalate "_" parts).toList.find? (· != '_') with
  | none => exact .inl ⟨rfl, by simp⟩
  | some c =>
    have hc := nameChars_intercalate h c (List.mem_of_find?_eq_some hfind)
    have hunder : c ≠ '_' := by simpa using List.find?_some hfind
    have hcase : c.toUpper.isUpper = true ∧ c.isDigit = false
        ∨ c.toUpper.isDigit = true ∧ c.isDigit = true :=
      nameChar_all (P := fun c => c ≠ '_' → c.toUpper.isUpper = true ∧ c.isDigit = false
        ∨ c.toUpper.isDigit = true ∧ c.isDigit = true) (by decide) hc hunder
    simpa using hcase

theorem typeName_start : ∃ cs, (typeName parts).toList = firstLetter parts :: cs := by
  obtain ⟨cs, hstart⟩ := bareName_start h
  rw [typeName_eq]
  split
  · exact ⟨cs ++ ['_'], by rw [String.toList_append, hstart]; rfl⟩
  · exact ⟨cs, hstart⟩

theorem typeWord_typeName : TypeWord (typeName parts) := by
  obtain ⟨cs, hstart⟩ := typeName_start h
  have hletter : (firstLetter parts).isUpper = true ∨ (firstLetter parts).isDigit = true :=
    (firstLetter_spec h).imp And.left And.left
  -- a reserved name has an underscore behind it, and no other name has one
  refine ⟨?_, ⟨_, cs, hstart, hletter⟩, ?_⟩ <;> rw [typeName_eq] <;> split
  · intro c hc
    rw [String.toList_append] at hc
    exact (List.mem_append.mp hc).imp (bareName_chars h c) List.mem_singleton.mp
  · exact fun c hc => .inl (bareName_chars h c hc)
  · intro hself
    have hlast := congrArg (fun s => s.toList.getLast?) hself
    simp [String.toList_append] at hlast
  · rename_i hreserved
    intro hself
    rw [hself] at hreserved
    exact hreserved rfl

/-- A type name begins with a digit exactly if its code names do so behind their underscores: the
underscores that keep a code name from beginning with a digit are lost. -/
theorem startsWithDigit_typeName : startsWithDigit (typeName parts) = true ↔ DigitFirst parts := by
  obtain ⟨cs, hstart⟩ := typeName_start h
  have hfirst : startsWithDigit (typeName parts) = (firstLetter parts).isDigit := by
    rw [startsWithDigit, hstart]
  rw [hfirst]
  obtain ⟨hupper, hnot⟩ | ⟨hdigit, hfirst⟩ := firstLetter_spec h
  · have hletter : (firstLetter parts).isAlpha = true := (Bool.or_eq_true ..).mpr (.inl hupper)
    refine iff_of_false (fun hdigit => ?_) hnot
    rw [not_isAlpha_of_isDigit hdigit] at hletter
    cases hletter
  · exact iff_of_true hdigit hfirst

end CodeNames

end RestForge.Naming
