import RestForge.Rest.Endpoint

/-!
# Paths of keys

* `Segment`: what a key may look like in a path: plain characters, and percent signs with two digits.
* `segment_encode`, `decode?_encode`: a key is written so, and its bytes are read back.
* `Segment.notMem`: nothing in it ends a segment, or the path.
* `keyPath_unambiguous`: the paths of the keys of an endpoint, and its own, are all different.
-/

set_option autoImplicit false

namespace RestForge.Rest

namespace KeySegment

/-! ## Segments -/

/-- The letters among the digits are capitals. -/
def IsHexDigit (c : Char) : Prop := '0' ≤ c ∧ c ≤ '9' ∨ 'A' ≤ c ∧ c ≤ 'F'

instance (c : Char) : Decidable (IsHexDigit c) :=
  inferInstanceAs (Decidable ('0' ≤ c ∧ c ≤ '9' ∨ 'A' ≤ c ∧ c ≤ 'F'))

inductive Segment : List Char → Prop where
  | nil : Segment []
  | plain {c : Char} {cs : List Char} (hplain : isPlain c = true) (later : Segment cs) :
      Segment (c :: cs)
  | escaped {high low : Char} {cs : List Char} (hhigh : IsHexDigit high) (hlow : IsHexDigit low)
      (later : Segment cs) : Segment ('%' :: high :: low :: cs)

theorem Segment.notMem {cs : List Char} (h : Segment cs) {c : Char} (hplain : isPlain c = false)
    (hpercent : c ≠ '%') (hdigit : ¬IsHexDigit c) : c ∉ cs := by
  induction h with
  | nil => exact List.not_mem_nil
  | plain hfirst later ih =>
    rw [List.mem_cons, not_or]
    refine ⟨?_, ih⟩
    rintro rfl
    exact Bool.false_ne_true (hplain.symm.trans hfirst)
  | escaped hhigh hlow later ih =>
    simp only [List.mem_cons, not_or]
    refine ⟨hpercent, ?_, ?_, ih⟩
    · rintro rfl
      exact hdigit hhigh
    · rintro rfl
      exact hdigit hlow

/-! ## Digits -/

theorem isHexDigit_hexDigit {n : Nat} (h : n < 16) : IsHexDigit (hexDigit n) := by
  have hall : ∀ n : Fin 16, IsHexDigit (hexDigit n) := by decide
  exact hall ⟨n, h⟩

theorem hexDigit?_hexDigit {n : Nat} (h : n < 16) : hexDigit? (hexDigit n) = some n := by
  have hall : ∀ n : Fin 16, hexDigit? (hexDigit n) = some n.val := by decide
  exact hall ⟨n, h⟩

/-! ## Bytes -/

theorem toNat_div_lt (b : UInt8) : b.toNat / 16 < 16 := by
  have hb := b.toNat_lt
  omega

theorem toNat_mod_lt (b : UInt8) : b.toNat % 16 < 16 := Nat.mod_lt _ (by decide)

/-- The character of a byte has the number of the byte. -/
theorem ofNat_toNat_char (b : UInt8) : UInt8.ofNat (Char.ofNat b.toNat).toNat = b := by
  have hb := b.toNat_lt
  have hvalid : b.toNat.isValidChar := .inl (by omega)
  have hchar : (Char.ofNat b.toNat).toNat = b.toNat := by
    rw [Char.ofNat, dif_pos hvalid]
    rfl
  rw [hchar, UInt8.ofNat_toNat]

theorem decodeChars_plain {c : Char} (h : isPlain c = true) (rest : List Char) :
    decodeChars (c :: rest) = (decodeChars rest).map (UInt8.ofNat c.toNat :: ·) := by
  have hpercent : c ≠ '%' := by
    rintro rfl
    revert h
    decide
  rw [decodeChars.eq_3 _ _ fun _ _ _ hc => absurd hc hpercent, if_pos h]
  cases decodeChars rest <;> rfl

theorem decodeChars_escaped {high low : Char} {h l : Nat} (hhigh : hexDigit? high = some h)
    (hlow : hexDigit? low = some l) (rest : List Char) :
    decodeChars ('%' :: high :: low :: rest)
      = (decodeChars rest).map (UInt8.ofNat (16 * h + l) :: ·) := by
  rw [decodeChars, hhigh, hlow]
  cases decodeChars rest <;> rfl

theorem decodeChars_encodeByte (b : UInt8) (rest : List Char) :
    decodeChars (encodeByte b ++ rest) = (decodeChars rest).map (b :: ·) := by
  unfold encodeByte
  dsimp only
  split
  · rename_i hplain
    rw [List.singleton_append, decodeChars_plain hplain, ofNat_toNat_char]
  · simp only [List.cons_append, List.nil_append]
    rw [decodeChars_escaped (hexDigit?_hexDigit (toNat_div_lt b))
      (hexDigit?_hexDigit (toNat_mod_lt b)), Nat.div_add_mod, UInt8.ofNat_toNat]

theorem segment_encodeByte (b : UInt8) {rest : List Char} (h : Segment rest) :
    Segment (encodeByte b ++ rest) := by
  unfold encodeByte
  dsimp only
  split
  · rename_i hplain
    exact .plain hplain h
  · exact .escaped (isHexDigit_hexDigit (toNat_div_lt b)) (isHexDigit_hexDigit (toNat_mod_lt b)) h

/-! ## Keys -/

theorem segment_encode (key : String) : Segment (encode key).toList := by
  rw [encode, String.toList_ofList]
  induction key.toUTF8.data.toList with
  | nil => exact .nil
  | cons b bytes ih => exact segment_encodeByte b ih

/-- The bytes of a key are read back from its segment. -/
theorem decode?_encode (key : String) : decode? (encode key) = some key.toUTF8.data.toList := by
  rw [decode?, encode, String.toList_ofList]
  induction key.toUTF8.data.toList with
  | nil => rfl
  | cons b bytes ih =>
    rw [List.flatMap_cons, decodeChars_encodeByte, ih]
    rfl

theorem encode_injective {key key' : String} (h : encode key = encode key') : key = key' := by
  have hbytes := (decode?_encode key).symm.trans ((congrArg decode? h).trans (decode?_encode key'))
  have hdata : key.toUTF8.data = key'.toUTF8.data := Array.toList_inj.mp (Option.some.inj hbytes)
  exact String.toByteArray_inj.mp (ByteArray.ext hdata)

end KeySegment

/-! ## Endpoints -/

namespace Endpoint

variable (e : Endpoint)

theorem keyPath_some (key : String) :
    e.keyPath (some key) = e.path ++ ("/" ++ KeySegment.encode key) := String.append_assoc ..

theorem keyPath_injective : Function.Injective e.keyPath := by
  have hslash : ∀ key, e.keyPath (some key) ≠ e.keyPath none := by
    intro key h
    rw [keyPath_some, keyPath, String.append_eq_left_iff] at h
    have hlen := congrArg String.length h
    simp at hlen
  rintro (_ | key) (_ | key') h
  · rfl
  · exact absurd h.symm (hslash key')
  · exact absurd h (hslash key)
  · rw [keyPath_some, keyPath_some] at h
    have hsegment := String.append_right_inj _ |>.mp (String.append_right_inj _ |>.mp h)
    rw [KeySegment.encode_injective hsegment]

/-- The path of a key is the path of the endpoint, a slash and a segment from which the bytes of the
key are read back. The segment holds no sign that ends a segment or the path, and no two keys have one
path, which is never the path of the endpoint. -/
theorem keyPath_unambiguous : e.keyPath none = e.path
    ∧ (∀ key, ∃ segment, e.keyPath (some key) = e.path ++ "/" ++ segment
      ∧ KeySegment.Segment segment.toList
      ∧ KeySegment.decode? segment = some key.toUTF8.data.toList
      ∧ ∀ c ∈ ['/', '?', '#'], c ∉ segment.toList)
    ∧ Function.Injective e.keyPath := by
  have hends : ∀ c ∈ ['/', '?', '#'],
      KeySegment.isPlain c = false ∧ c ≠ '%' ∧ ¬KeySegment.IsHexDigit c := by
    simp only [List.mem_cons, List.not_mem_nil, or_false]
    rintro c (rfl | rfl | rfl) <;> decide
  refine ⟨rfl, fun key => ?_, keyPath_injective e⟩
  have hsegment := KeySegment.segment_encode key
  refine ⟨KeySegment.encode key, rfl, hsegment, KeySegment.decode?_encode key, fun c hc => ?_⟩
  obtain ⟨hplain, hpercent, hdigit⟩ := hends c hc
  exact hsegment.notMem hplain hpercent hdigit

end Endpoint

end RestForge.Rest
