import Mathlib.Data.List.Basic
import RestForge.Crate.Manifest

/-!
# The path in the manifest

The manifest of a crate names the place of the runtime library as a string between double quotes.
How such a string is read is fixed by the format of manifests, which knows other escapes than the
quoted texts of messages.

* `shortEscapes`, `codePoint?`: what may stand behind a backslash.
* `Spells`: the characters of a string, and the content that they stand for; `IsBasicString`: the
  whole string.
* `spells_escapeChar_iff`, `isBasicString_quote_iff`: which quoted texts are such strings.
* `IsCarried`: the characters that a path may have; `path_carried_iff`: the paths that the manifest
  carries.
-/

set_option autoImplicit false

namespace RestForge.Crate

open Text (escapeChar hexEscape quote isPrintable isJoiningMark)

/-! ## Strings of a manifest -/

/-- No control character stands for itself. -/
def IsControl (c : Char) : Prop := c.toNat < 0x20 ∨ c.toNat = 0x7F

/-- The letter behind a backslash, and what the two stand for. -/
def shortEscapes : List (Char × Char) :=
  [('b', '\x08'), ('t', '\t'), ('n', '\n'), ('f', '\x0c'), ('r', '\r'), ('"', '"'), ('\\', '\\')]

def hexValue? (c : Char) : Option Nat :=
  if '0' ≤ c ∧ c ≤ '9' then some (c.toNat - '0'.toNat)
  else if 'A' ≤ c ∧ c ≤ 'F' then some (c.toNat - 'A'.toNat + 10)
  else if 'a' ≤ c ∧ c ≤ 'f' then some (c.toNat - 'a'.toNat + 10)
  else none

/-- The character with a code point, if there is one. -/
def codePoint? (digits : List Char) : Option Char := do
  let value ← digits.foldlM (fun n d => (hexValue? d).map (16 * n + ·)) 0
  if value.isValidChar then some (Char.ofNat value) else none

/-- What is written between the quotes, and the content that it stands for. -/
inductive Spells : List Char → List Char → Prop where
  | nil : Spells [] []
  | raw {c : Char} {written content : List Char} (hcontrol : ¬IsControl c) (hquote : c ≠ '"')
      (hbackslash : c ≠ '\\') (later : Spells written content) :
      Spells (c :: written) (c :: content)
  | short {letter c : Char} {written content : List Char} (hletter : (letter, c) ∈ shortEscapes)
      (later : Spells written content) : Spells ('\\' :: letter :: written) (c :: content)
  | four {digits : List Char} {c : Char} {written content : List Char}
      (hlength : digits.length = 4) (hdigits : codePoint? digits = some c)
      (later : Spells written content) :
      Spells ('\\' :: 'u' :: (digits ++ written)) (c :: content)
  | eight {digits : List Char} {c : Char} {written content : List Char}
      (hlength : digits.length = 8) (hdigits : codePoint? digits = some c)
      (later : Spells written content) :
      Spells ('\\' :: 'U' :: (digits ++ written)) (c :: content)

/-- A string of a manifest that stands for the content. -/
def IsBasicString (value content : String) : Prop :=
  ∃ written, value = String.ofList ('"' :: written ++ ['"']) ∧ Spells written content.toList

/-! ## One character -/

/-- Characters that can be read back from the manifest. -/
def IsCarried (c : Char) : Prop :=
  c ∈ ['\n', '\r', '\t'] ∨ isPrintable c = true ∧ isJoiningMark c = false

section Reading

variable {c letter : Char} {written content : List Char}

theorem Spells.of_raw (h : Spells (c :: written) content) (hbackslash : c ≠ '\\') :
    ∃ later, content = c :: later ∧ Spells written later := by
  cases h with
  | raw _ _ _ later => exact ⟨_, rfl, later⟩
  | short | four | eight => exact absurd rfl hbackslash

/-- Behind a backslash stands a letter of its own, or the digits of a code point. -/
theorem Spells.of_escape (h : Spells ('\\' :: letter :: written) content) :
    (∃ c later, (letter, c) ∈ shortEscapes ∧ content = c :: later ∧ Spells written later)
    ∨ (letter = 'u' ∨ letter = 'U') ∧ ∃ digit digits rest, written = digit :: digits ++ rest
      ∧ (codePoint? (digit :: digits)).isSome := by
  cases h with
  | raw _ _ hbackslash _ => exact absurd rfl hbackslash
  | short hletter later => exact .inl ⟨_, _, hletter, rfl, later⟩
  | @four digits c _ _ hlength hdigits later =>
    obtain ⟨digit, digits, rfl⟩ := List.exists_cons_of_length_pos (l := digits) (by omega)
    exact .inr ⟨.inl rfl, digit, digits, _, rfl, by rw [hdigits]; rfl⟩
  | @eight digits c _ _ hlength hdigits later =>
    obtain ⟨digit, digits, rfl⟩ := List.exists_cons_of_length_pos (l := digits) (by omega)
    exact .inr ⟨.inr rfl, digit, digits, _, rfl, by rw [hdigits]; rfl⟩

theorem spells_raw_iff (hcontrol : ¬IsControl c) (hquote : c ≠ '"') (hbackslash : c ≠ '\\') :
    Spells (c :: written) content ↔ ∃ later, content = c :: later ∧ Spells written later := by
  refine ⟨fun h => h.of_raw hbackslash, ?_⟩
  rintro ⟨later, rfl, h⟩
  exact .raw hcontrol hquote hbackslash h

/-- A letter stands for one character, and is none of those before a code point. -/
theorem shortEscapes_unique : ∀ p ∈ shortEscapes,
    (p.1 ≠ 'u' ∧ p.1 ≠ 'U') ∧ ∀ q ∈ shortEscapes, q.1 = p.1 → q.2 = p.2 := by decide

theorem spells_short_iff (hletter : (letter, c) ∈ shortEscapes) :
    Spells ('\\' :: letter :: written) content
      ↔ ∃ later, content = c :: later ∧ Spells written later := by
  obtain ⟨⟨hu, hU⟩, hunique⟩ := shortEscapes_unique _ hletter
  constructor
  · intro h
    obtain ⟨c', later, hletter', rfl, hlater⟩ | ⟨hcode | hcode, -⟩ := h.of_escape
    · obtain rfl : c' = c := hunique _ hletter' rfl
      exact ⟨later, rfl, hlater⟩
    · exact absurd hcode hu
    · exact absurd hcode hU
  · rintro ⟨later, rfl, h⟩
    exact .short hletter h

theorem not_spells_nul : ¬Spells ('\\' :: '0' :: written) content := by
  intro h
  have hnone : ∀ p ∈ shortEscapes, p.1 ≠ '0' := by decide
  obtain ⟨c, later, hletter, -⟩ | ⟨h | h, -⟩ := h.of_escape
  · exact hnone _ hletter rfl
  · exact absurd h (by decide)
  · exact absurd h (by decide)

/-- A brace is no digit. -/
theorem not_spells_hexEscape : ¬Spells (hexEscape c ++ written) content := by
  intro h
  obtain ⟨c', later, hletter, -⟩ | ⟨-, digit, digits, rest, hwritten, hsome⟩ := h.of_escape
  · exact (shortEscapes_unique _ hletter).1.1 rfl
  · obtain rfl : '{' = digit := (List.cons.inj hwritten).1
    cases hsome

theorem not_isControl_of_isPrintable (h : isPrintable c = true) : ¬IsControl c := by
  unfold isPrintable at h
  unfold IsControl
  split at h
  · rw [Bool.and_eq_true, decide_eq_true_eq, decide_eq_true_eq] at h
    omega
  · omega

/-- A character is read back as it is, or not at all. -/
theorem spells_escapeChar_iff (c : Char) : Spells (escapeChar c ++ written) content
    ↔ IsCarried c ∧ ∃ later, content = c :: later ∧ Spells written later := by
  have hcarried : ∀ letter, (letter, c) ∈ shortEscapes → IsCarried c →
      (Spells ('\\' :: letter :: written) content
        ↔ IsCarried c ∧ ∃ later, content = c :: later ∧ Spells written later) :=
    fun letter hletter hc => (spells_short_iff hletter).trans (and_iff_right hc).symm
  unfold escapeChar
  by_cases hquote : c = '"'
  · subst hquote
    exact hcarried '"' (by decide) (.inr (by decide))
  by_cases hbackslash : c = '\\'
  · subst hbackslash
    exact hcarried '\\' (by decide) (.inr (by decide))
  by_cases hline : c = '\n'
  · subst hline
    exact hcarried 'n' (by decide) (.inl (by decide))
  by_cases hreturn : c = '\r'
  · subst hreturn
    exact hcarried 'r' (by decide) (.inl (by decide))
  by_cases htab : c = '\t'
  · subst htab
    exact hcarried 't' (by decide) (.inl (by decide))
  have hblank : c ∉ ['\n', '\r', '\t'] := by simp [hline, hreturn, htab]
  rw [if_neg hquote, if_neg hbackslash, if_neg hline, if_neg hreturn, if_neg htab]
  by_cases hnul : c = '\x00'
  · subst hnul
    have hnot : ¬IsCarried '\x00' := by
      rintro (h | ⟨h, -⟩)
      · exact hblank h
      · exact absurd h (by decide)
    exact iff_of_false not_spells_nul fun h => hnot h.1
  rw [if_neg hnul]
  split
  · rename_i hplain
    rw [Bool.and_eq_true, Bool.not_eq_true'] at hplain
    exact (spells_raw_iff (not_isControl_of_isPrintable hplain.1) hquote hbackslash).trans
      (and_iff_right (.inr hplain)).symm
  · rename_i hplain
    rw [Bool.and_eq_true, Bool.not_eq_true'] at hplain
    exact iff_of_false not_spells_hexEscape fun h => h.1.elim hblank hplain

end Reading

/-! ## Whole texts -/

theorem spells_escaped_iff (cs content : List Char) :
    Spells (cs.flatMap escapeChar) content ↔ content = cs ∧ ∀ c ∈ cs, IsCarried c := by
  induction cs generalizing content with
  | nil =>
    constructor
    · intro h
      cases h
      exact ⟨rfl, by simp⟩
    · rintro ⟨rfl, -⟩
      exact .nil
  | cons c cs ih =>
    rw [List.flatMap_cons, spells_escapeChar_iff, List.forall_mem_cons]
    simp only [ih]
    constructor
    · rintro ⟨hc, later, rfl, rfl, hcs⟩
      exact ⟨rfl, hc, hcs⟩
    · rintro ⟨rfl, hc, hcs⟩
      exact ⟨hc, cs, rfl, rfl, hcs⟩

theorem isBasicString_quote_iff (s content : String) :
    IsBasicString (quote s) content ↔ content = s ∧ ∀ c ∈ s.toList, IsCarried c := by
  rw [← String.toList_inj, ← spells_escaped_iff]
  constructor
  · rintro ⟨written, hquote, h⟩
    have hwritten : written = s.toList.flatMap escapeChar := by
      have hlist := String.ofList_injective hquote
      exact (List.append_cancel_right (List.cons.inj hlist).2).symm
    exact hwritten ▸ h
  · intro h
    exact ⟨_, rfl, h⟩

/-- The lines above the one of the runtime library do not depend on its path. -/
theorem manifest_eq (name : String) : ∃ before, ∀ path, manifest name (some path)
    = before ++ "stencil = \x7b path = " ++ quote path ++ " \x7d\n\n[workspace]\n" := by
  refine ⟨String.join (((manifestLines name none).take 10).map (· ++ "\n")), fun path => ?_⟩
  have hlines : manifestLines name (some path) = (manifestLines name none).take 10
      ++ ["stencil = " ++ ("\x7b path = " ++ quote path ++ " \x7d"), "", "[workspace]"] := rfl
  have hhead : "stencil = " ++ "\x7b path = " = "stencil = \x7b path = " := rfl
  rw [manifest, hlines, List.map_append, String.join_append, ← hhead]
  simp only [List.map_cons, List.map_nil, String.join_cons, String.join_nil, String.append_assoc]
  rfl

/-- **What the manifest carries.** Whatever the path is, the text that the manifest holds for it is
a string of the manifest format just when every character of the path is printable and no joining
mark, or a line feed, a carriage return or a tab; and then it stands for the path and nothing
else. -/
theorem path_carried_iff (name : String) : ∃ before, ∀ path, ∃ value,
    manifest name (some path)
        = before ++ "stencil = \x7b path = " ++ value ++ " \x7d\n\n[workspace]\n"
      ∧ ∀ content, IsBasicString value content
        ↔ content = path ∧ ∀ c ∈ path.toList, IsCarried c := by
  obtain ⟨before, hmanifest⟩ := manifest_eq name
  exact ⟨before, fun path => ⟨quote path, hmanifest path, isBasicString_quote_iff path⟩⟩

/-- An accent that is a character of its own makes the path unreadable. -/
theorem accented_path_lost : ∃ before, manifest "stencil-api" (some "/home/rene\u0301")
      = before ++ "stencil = \x7b path = " ++ "\"/home/rene\\u\x7b301\x7d\""
        ++ " \x7d\n\n[workspace]\n"
    ∧ ∀ content, ¬IsBasicString "\"/home/rene\\u\x7b301\x7d\"" content := by
  have hquote : quote "/home/rene\u0301" = "\"/home/rene\\u\x7b301\x7d\"" := by decide +kernel
  obtain ⟨before, hmanifest⟩ := manifest_eq "stencil-api"
  refine ⟨before, ?_, fun content h => ?_⟩
  · rw [hmanifest, hquote]
  · rw [← hquote, isBasicString_quote_iff] at h
    have hnot : ¬IsCarried '\u0301' := by
      unfold IsCarried
      decide +kernel
    exact hnot (h.2 '\u0301' (by decide))

end RestForge.Crate
