import RestForge.Text.Quoted

/-!
# String literals read back

A text is written into source code between double quotes, some of its characters in escaped form. The
literal can be read back, and what is read is the text.

* `readLiteral`: reading a literal behind its opening quote; `unquote?`: a whole literal.
* `readLiteral_hexEscape`, `readLiteral_escapeChar`: one escaped character.
* `unquote?_literal`: a literal stands for the text that it was made of.
-/

set_option autoImplicit false

namespace RestForge.Text

/-! ## Reading -/

def hexDigit? (c : Char) : Option Nat := (List.range 16).find? fun d => d.digitChar == c

/-- Where a reader is: between characters, behind a backslash, or in the braces of a code point that
has this value so far. -/
inductive LiteralState where
  | plain
  | escape
  | code (value : Nat)

/-- What a literal stands for, from its opening quote to its closing one. -/
def readLiteral : LiteralState → List Char → Option (List Char)
  | .plain, ['"'] => some []
  | .plain, '"' :: _ => none
  | .plain, '\\' :: cs => readLiteral .escape cs
  | .plain, c :: cs => (c :: ·) <$> readLiteral .plain cs
  | .escape, '"' :: cs => ('"' :: ·) <$> readLiteral .plain cs
  | .escape, '\\' :: cs => ('\\' :: ·) <$> readLiteral .plain cs
  | .escape, 'n' :: cs => ('\n' :: ·) <$> readLiteral .plain cs
  | .escape, 'r' :: cs => ('\r' :: ·) <$> readLiteral .plain cs
  | .escape, 't' :: cs => ('\t' :: ·) <$> readLiteral .plain cs
  | .escape, '0' :: cs => ('\x00' :: ·) <$> readLiteral .plain cs
  | .escape, 'x' :: a :: b :: cs => do
    let high ← hexDigit? a
    let low ← hexDigit? b
    (Char.ofNat (16 * high + low) :: ·) <$> readLiteral .plain cs
  | .escape, 'u' :: '{' :: cs => readLiteral (.code 0) cs
  | .code value, '}' :: cs => (Char.ofNat value :: ·) <$> readLiteral .plain cs
  | .code value, c :: cs => do
    let digit ← hexDigit? c
    readLiteral (.code (16 * value + digit)) cs
  | _, _ => none

/-- The text that a whole literal stands for. -/
def unquote? (literal : String) : Option String :=
  match literal.toList with
  | '"' :: cs => String.ofList <$> readLiteral .plain cs
  | _ => none

/-! ## Code points -/

theorem hexDigit?_digitChar : ∀ d < 16, hexDigit? d.digitChar = some d := by decide

theorem digitChar_ne_brace : ∀ d < 16, d.digitChar ≠ '}' := by decide

theorem readLiteral_digit {value d : Nat} (hd : d < 16) (cs : List Char) :
    readLiteral (.code value) (d.digitChar :: cs) = readLiteral (.code (16 * value + d)) cs := by
  rw [readLiteral, hexDigit?_digitChar d hd]
  · rfl
  · exact digitChar_ne_brace d hd

/-- The digits come from the highest to the lowest, so that those before the last are read first. -/
theorem readLiteral_toDigits (n : Nat) (cs : List Char) :
    readLiteral (.code 0) (Nat.toDigits 16 n ++ cs) = readLiteral (.code n) cs := by
  induction n using Nat.strongRecOn generalizing cs with
  | ind n ih =>
    by_cases hn : n < 16
    · rw [Nat.toDigits_of_lt_base hn, List.singleton_append, readLiteral_digit hn, Nat.mul_zero,
        Nat.zero_add]
    · rw [Nat.toDigits_of_base_le (by decide) (Nat.le_of_not_lt hn), List.append_assoc,
        ih (n / 16) (by omega), List.singleton_append, readLiteral_digit (Nat.mod_lt n (by decide)),
        Nat.div_add_mod]

theorem readLiteral_hexEscape (c : Char) (cs : List Char) :
    readLiteral .plain (hexEscape c ++ cs) = (c :: ·) <$> readLiteral .plain cs := by
  have hcode : readLiteral .plain (hexEscape c ++ cs)
      = readLiteral (.code 0) (Nat.toDigits 16 c.toNat ++ ('}' :: cs)) := by
    simp [hexEscape, readLiteral]
  rw [hcode, readLiteral_toDigits, readLiteral, Char.ofNat_toNat]

/-! ## Texts -/

theorem readLiteral_self {c : Char} (hquote : c ≠ '"') (hbackslash : c ≠ '\\') (cs : List Char) :
    readLiteral .plain (c :: cs) = (c :: ·) <$> readLiteral .plain cs := by
  rw [readLiteral]
  · exact fun h _ => hquote h
  · exact hquote
  · exact hbackslash

theorem readLiteral_escapeChar (c : Char) (cs : List Char) :
    readLiteral .plain (escapeChar c ++ cs) = (c :: ·) <$> readLiteral .plain cs := by
  by_cases hquote : c = '"'
  · subst hquote
    rfl
  by_cases hbackslash : c = '\\'
  · subst hbackslash
    rfl
  by_cases hline : c = '\n'
  · subst hline
    rfl
  by_cases hreturn : c = '\r'
  · subst hreturn
    rfl
  by_cases htab : c = '\t'
  · subst htab
    rfl
  by_cases hnul : c = '\x00'
  · subst hnul
    rfl
  rw [escapeChar, if_neg hquote, if_neg hbackslash, if_neg hline, if_neg hreturn, if_neg htab,
    if_neg hnul]
  split
  · exact readLiteral_self hquote hbackslash cs
  · exact readLiteral_hexEscape c cs

theorem readLiteral_escapeLiteral (cs : List Char) :
    readLiteral .plain (escapeLiteral cs ++ ['"']) = some cs := by
  induction cs with
  | nil => rfl
  | cons c cs ih =>
    rw [escapeLiteral, List.append_assoc]
    split
    · rename_i hnul
      rw [Bool.and_eq_true, decide_eq_true_eq] at hnul
      obtain ⟨rfl, -⟩ := hnul
      have hzero : hexDigit? '0' = some 0 := by decide
      simp [readLiteral, hzero, ih]
    · rw [readLiteral_escapeChar, ih]
      rfl

/-- A literal stands for the text that it was made of. -/
theorem unquote?_literal (s : String) : unquote? (literal s) = some s := by
  rw [unquote?, literal, String.toList_ofList]
  have hread := readLiteral_escapeLiteral s.toList
  show String.ofList <$> readLiteral .plain (escapeLiteral s.toList ++ ['"']) = some s
  rw [hread]
  exact congrArg some String.ofList_toList

end RestForge.Text
