import Mathlib.Data.String.Basic

/-!
# The order of texts by their bytes

* `utf8`: a text in UTF-8.
* `encode_lt`: the bytes of a later character come later, whatever follows.
* `utf8_lt_iff`: the order of texts is the order of their bytes.
-/

set_option autoImplicit false

namespace RestForge.Text

/-- A text in UTF-8. -/
def utf8 (text : String) : List UInt8 := text.toUTF8.data.toList

theorem utf8_eq (text : String) : utf8 text = text.toList.flatMap String.utf8EncodeChar := by
  have hutf8 : text.toUTF8 = text.toList.utf8Encode := by
    rw [← String.toByteArray_ofList, String.ofList_toList]
    rfl
  rw [utf8, hutf8, List.utf8Encode, List.data_toByteArray]

/-! ## One character -/

/-- Bytes are compared as the numbers they stand for. -/
theorem ofNat_cons_lt {a b : Nat} {as bs : List UInt8} (hb : b < 256) (hle : a ≤ b)
    (hrest : a = b → as < bs) : UInt8.ofNat a :: as < UInt8.ofNat b :: bs := by
  refine List.cons_lt_cons_iff.mpr ?_
  obtain hlt | rfl := hle.lt_or_eq
  · refine .inl (UInt8.lt_iff_toNat_lt.mpr ?_)
    rwa [UInt8.toNat_ofNat_of_lt' (hlt.trans hb), UInt8.toNat_ofNat_of_lt' hb]
  · exact .inr ⟨rfl, hrest rfl⟩

theorem encode_lt {c d : Char} (h : c < d) (as bs : List UInt8) :
    String.utf8EncodeChar c ++ as < String.utf8EncodeChar d ++ bs := by
  have hval : c.val.toNat < d.val.toNat := UInt32.lt_iff_toNat_lt.mp h
  have hmax : d.val.toNat < 1114112 := by
    obtain hlow | ⟨-, hhigh⟩ := d.valid
    · exact hlow.trans (by decide)
    · exact hhigh
  unfold String.utf8EncodeChar
  generalize c.val.toNat = v at hval ⊢
  generalize d.val.toNat = w at hval hmax ⊢
  dsimp only
  -- Longer encodings begin with a greater byte; those of one length are compared digit by digit.
  split_ifs <;> try omega
  all_goals
    simp only [List.cons_append, List.nil_append]
    repeat refine ofNat_cons_lt (by omega) (by omega) fun _ => ?_
    omega

/-! ## Texts -/

theorem flatMap_encode_lt {cs ds : List Char} (h : cs < ds) :
    cs.flatMap String.utf8EncodeChar < ds.flatMap String.utf8EncodeChar := by
  induction cs generalizing ds with
  | nil =>
    obtain _ | ⟨d, ds⟩ := ds
    · exact absurd h (List.lt_irrefl [])
    · obtain ⟨first, more, hd⟩ := List.exists_cons_of_ne_nil (String.utf8EncodeChar_ne_nil (c := d))
      rw [List.flatMap_cons, hd]
      exact List.nil_lt_cons _ _
  | cons c cs ih =>
    obtain _ | ⟨d, ds⟩ := ds
    · exact absurd h (List.not_lt_nil _)
    · rw [List.flatMap_cons, List.flatMap_cons]
      obtain hlt | ⟨rfl, hrest⟩ := List.cons_lt_cons_iff.mp h
      · exact encode_lt hlt _ _
      · exact List.append_left_lt (ih hrest)

theorem utf8_lt {a b : String} (h : a < b) : utf8 a < utf8 b := by
  rw [utf8_eq, utf8_eq]
  exact flatMap_encode_lt (String.lt_iff_toList_lt.mp h)

theorem utf8_lt_iff {a b : String} : utf8 a < utf8 b ↔ a < b := by
  refine ⟨fun h => ?_, utf8_lt⟩
  obtain hlt | rfl | hgt := lt_trichotomy a b
  · exact hlt
  · exact absurd h (List.lt_irrefl _)
  · exact absurd h (List.lt_asymm (utf8_lt hgt))

theorem map_utf8_lt {names names' : List String} (h : names < names') :
    names.map utf8 < names'.map utf8 :=
  List.map_lt (fun _ _ => utf8_lt) h

end RestForge.Text
