import RestForge.Proofs.ClientOperations
import RestForge.Proofs.ModelTypes
import RestForge.Proofs.SamplePayload

/-!
# The smallest payload as a model

The tests make the smallest payload as a model of the root, from expressions in the source.

* `Sample.Fits`: a sample is a value of a type of fields, and is read back as that value.
* `write_payloadSlots`, `read_payloadRecord`: the model is written as the smallest payload, and read
  back from it.
* `run_payloadHelper`: the function of the tests that makes it.
-/

set_option autoImplicit false

namespace RestForge.Emit

open Source Naming Schema
open Rest (FieldShape FieldValue ModelShape ModelValue setFields)

/-! ## Samples -/

/-- What a sample is in a test. -/
def Sample.datum : Sample → Datum
  | integer n => .integer n
  | boolean b => .boolean b
  | noRows => .list []
  | text s => .text s
  | emptyText => .text ""

/-- What a sample is in a slot. -/
def Sample.value : Sample → FieldValue
  | integer n => .integer n
  | boolean b => .boolean b
  | noRows => .rows []
  | text s => .text s
  | emptyText => .text ""

structure Sample.Fits (s : Sample) (shape : FieldShape) : Prop where
  slot : slot? shape s.datum = some s.value
  write : shape.write s.value = s.json
  read : shape.read s.json = .ok s.value

theorem Sample.Fits.restores {s : Sample} {shape : FieldShape} (h : s.Fits shape) :
    shape.Restores s.value := by
  refine ⟨?_, ?_⟩ <;> rw [h.write]
  · exact s.isNull_json
  · exact h.read

/-- The samples are small enough for whole numbers of the source. -/
theorem fits_integer {n : Nat} (h : n ≤ 1) : (Sample.integer n).Fits .integer := by
  refine ⟨rfl, rfl, ?_⟩
  have hbounds : (-9223372036854775808 : Int) ≤ n ∧ (n : Int) ≤ 9223372036854775807 := by omega
  have hread : Rest.Reader.int64 (.number (.whole n)) = .ok (n : Int) := if_pos hbounds
  rw [FieldShape.read]
  exact congrArg (Except.map FieldValue.integer) hread

theorem fits_placeholder {f : Field} {shape : FieldShape} (h : HasShape f.type shape) :
    (placeholder f).Fits shape := by
  rw [placeholder]
  generalize f.type = type at h
  cases h with
  | integer => exact fits_integer (Nat.zero_le _)
  | boolean => exact ⟨rfl, rfl, rfl⟩
  | rows m => exact ⟨rfl, rfl, rfl⟩
  | text h => cases type <;> first | exact ⟨rfl, rfl, rfl⟩ | exact absurd h (by decide)

theorem fits_keySample {f : Field} {shape : FieldShape} (h : HasShape f.type shape)
    (htable : f.isTable = false) : (keySample f).payload.Fits shape := by
  rw [Field.isTable] at htable
  rw [keySample]
  generalize f.type = type at h htable
  cases h with
  | integer => exact fits_integer (Nat.le_refl _)
  | boolean => exact ⟨rfl, rfl, rfl⟩
  | rows m => cases htable
  | text h => cases type <;> first | exact ⟨rfl, rfl, rfl⟩ | exact absurd h (by decide)

theorem isTable_of_isKey {p : PlacedTable} (hp : WellNamed p.fields p.children)
    (hkey : KeyAmong p.mkey (p.fields.map column)) {f : Field} (hf : f ∈ p.fields)
    (h : isKey p f = true) : f.isTable = false := by
  obtain ⟨type, hmem, htype⟩ := hkey _ (beq_iff_eq.mp h).symm
  obtain ⟨g, hg, he⟩ := List.mem_map.mp hmem
  have hsame : g = f := List.inj_on_of_nodup_map hp.wires hg hf (congrArg Prod.fst he)
  rw [hsame] at he
  cases he
  exact beq_eq_false_iff_ne.mpr htype

theorem fits_payloadSample {limit : Nat} {p : PlacedTable} (hp : WellFormed limit p) {f : Field}
    (hf : f ∈ p.fields) {shape : FieldShape} (h : HasShape f.type shape) :
    (payloadSample p f).Fits shape := by
  rw [payloadSample]
  split
  · exact fits_keySample h (isTable_of_isKey hp.names hp.key hf ‹_›)
  · exact fits_placeholder h

/-! ## Slots -/

/-- The slot of a field in the smallest payload. -/
def payloadSlot (p : PlacedTable) (f : Field) : Option FieldValue :=
  if f.required || isKey p f then some (payloadSample p f).value else none

def payloadSlots (p : PlacedTable) : ModelValue := p.fields.map (payloadSlot p)

section Slots

variable {limit : Nat} {p : PlacedTable} (hp : WellFormed limit p) {m : ModelType}
  (hm : List.Forall₂ Modelled p.fields m.fields)

include hp hm

/-- The model is written as the smallest payload. -/
theorem write_payloadSlots : m.shape.write (payloadSlots p) = payloadRecord p := by
  have hset : ∀ (fs : List Field) (ms : List ModelField), List.Forall₂ Modelled fs ms → fs ⊆ p.fields →
      (setFields (ms.map fun f => (f.wire, f.shape)) (fs.map (payloadSlot p))).map
          (fun e => (e.1.1, e.1.2.write e.2))
        = (fs.filter fun f => f.required || isKey p f).map
          fun f => (f.wireName, (payloadSample p f).json) := by
    intro fs ms h hfs
    induction h with
    | nil => rfl
    | @cons f field fs ms hfield _ ih =>
      rw [List.cons_subset] at hfs
      have hfits := fits_payloadSample hp hfs.1 hfield.shape
      have hbelow := ih hfs.2
      rw [setFields] at hbelow
      cases hgiven : (f.required || isKey p f) <;>
        simp [setFields, payloadSlot, hgiven, hbelow, hfield.wire, hfits.write]
  rw [ModelType.shape, Rest.write_eq, payloadSlots, hset _ _ hm (List.Subset.refl _), payloadRecord,
    payloadMembers, payloadSamples, List.map_map]
  rfl

/-- The model is read back from the smallest payload. -/
theorem read_payloadRecord :
    m.shape.read (.object (payloadRecord p)) = .ok (payloadSlots p) := by
  rw [← write_payloadSlots hp hm]
  refine Rest.read_write ?_ ?_
  · have hwires : m.fields.map ModelField.wire = p.fields.map Field.wireName := by
      rw [← List.forall₂_eq_eq_eq, List.forall₂_map_left_iff, List.forall₂_map_right_iff]
      exact hm.flip.imp fun _ _ h => h.wire
    rw [List.map_map]
    change (m.fields.map ModelField.wire).Nodup
    rw [hwires]
    exact hp.names.wires
  · rw [payloadSlots, List.forall₂_map_left_iff, List.forall₂_map_right_iff]
    refine List.forall₂_iff_zip.mpr ⟨hm.length_eq.symm, fun {field f} hzip v hv => ?_⟩
    have hmodelled := (List.forall₂_iff_zip.mp hm.flip).2 hzip
    have hf : f ∈ p.fields := (List.of_mem_zip hzip).2
    rw [payloadSlot] at hv
    split at hv
    · obtain rfl := Option.some.inj hv
      exact (fits_payloadSample hp hf hmodelled.shape).restores
    · cases hv

end Slots

/-! ## The function that makes it -/

theorem mapM_of_forall₂ {α β γ : Type} {f : β → Option γ} {g : α → γ} {xs : List α} {ys : List β}
    (h : List.Forall₂ (fun x y => f y = some (g x)) xs ys) : ys.mapM f = some (xs.map g) := by
  induction h with
  | nil => rfl
  | cons hxy _ ih => simp [List.mapM_cons, hxy, ih]

/-- The fields that the tests give a value. -/
def payloadInits (p : PlacedTable) : List (String × Datum) :=
  (payloadFields p).map fun f => (f.codeName, .present (payloadSample p f).datum)

section Build

variable {limit : Nat} {p : PlacedTable} (hp : WellFormed limit p) {m : ModelType}
  (hm : List.Forall₂ Modelled p.fields m.fields)

include hp

theorem lookup_payloadInits {f : Field} (hf : f ∈ p.fields) :
    (payloadInits p).lookup f.codeName
      = if f.required || isKey p f then some (.present (payloadSample p f).datum) else none := by
  have hcodes : ((payloadInits p).map Prod.fst).Sublist (p.fields.map Field.codeName) := by
    rw [payloadInits, List.map_map]
    exact List.filter_sublist.map _
  split
  · have hmem : f ∈ payloadFields p := List.mem_filter.mpr ⟨hf, ‹_›⟩
    exact lookup_of_mem (hp.names.codes.sublist hcodes) (List.mem_map.mpr ⟨f, hmem, rfl⟩)
  · rename_i hnot
    refine List.lookup_eq_none_iff.mpr fun e he => ?_
    obtain ⟨g, hg, rfl⟩ := List.mem_map.mp he
    rw [bne_iff_ne]
    rintro hcode
    have hsame := List.inj_on_of_nodup_map hp.names.codes (List.mem_of_mem_filter hg) hf hcode.symm
    exact hnot (hsame ▸ (List.mem_filter.mp hg).2)

include hm

/-- The record expression of the tests leaves the other fields at their defaults, if there are any. -/
theorem build?_payloadInits :
    m.build? (payloadInits p) (decide ((payloadSamples p).length < p.fields.length))
      = some (.model m.shape (payloadSlots p)) := by
  have hcodes : m.fields.map ModelField.code = p.fields.map Field.codeName := by
    rw [← List.forall₂_eq_eq_eq, List.forall₂_map_left_iff, List.forall₂_map_right_iff]
    exact hm.flip.imp fun _ _ h => h.code
  have hsublist : ((payloadInits p).map Prod.fst).Sublist (p.fields.map Field.codeName) := by
    rw [payloadInits, List.map_map]
    exact List.filter_sublist.map _
  have hslots : m.fields.mapM (ModelField.slot? (payloadInits p)
      (decide ((payloadSamples p).length < p.fields.length))) = some (payloadSlots p) := by
    refine mapM_of_forall₂ (List.forall₂_iff_zip.mpr ⟨hm.length_eq, fun {f field} hzip => ?_⟩)
    have hf : f ∈ p.fields := (List.of_mem_zip hzip).1
    have hmodelled := (List.forall₂_iff_zip.mp hm).2 hzip
    rw [ModelField.slot?, hmodelled.code, lookup_payloadInits hp hf, payloadSlot]
    by_cases hgiven : (f.required || isKey p f) = true
    · rw [if_pos hgiven, if_pos hgiven]
      exact congrArg (Option.map some) (fits_payloadSample hp hf hmodelled.shape).slot
    · rw [if_neg hgiven, if_neg hgiven]
      have hfewer : (payloadSamples p).length < p.fields.length := by
        rw [payloadSamples, List.length_map, payloadFields, List.length_filter_lt_length_iff_exists]
        exact ⟨f, hf, hgiven⟩
      simp [hfewer]
  rw [ModelType.build?, hcodes, if_pos ⟨hp.names.codes.sublist hsublist, hsublist.subset⟩, hslots,
    Option.map_some]

end Build

section Runs

variable {r : Resource} {names : TypeNames} (runs : Program.Runs) (site : Site)

theorem eval_sample (s : Sample) :
    eval ((program r names).names runs site) [] s.expr = pure s.datum := by
  cases s with
  | integer n => exact eval_int _ _ n
  | boolean b => cases b <;> exact eval_var _ _ _
  | noRows => simp [Sample.expr, eval_call, evalAll_nil, Sample.datum]
  | text s =>
    rw [Sample.expr, eval_method _ _ (by decide), eval_text, evalAll_nil]
    simp [Program.method, Sample.datum]
  | emptyText => simp [Sample.expr, eval_call, evalAll_nil, Sample.datum]

theorem evalFields_payload (p : PlacedTable) :
    evalFields ((program r names).names runs site) []
      ((payloadSamples p).map fun s => .value s.1.codeName (callName "Some" [s.2.expr]))
      = pure (payloadInits p) := by
  rw [payloadSamples, payloadInits]
  induction payloadFields p with
  | nil => rfl
  | cons f fs ih =>
    have hvalue : eval ((program r names).names runs site) []
        (callName "Some" [(payloadSample p f).expr]) = pure (.present (payloadSample p f).datum) := by
      simp [callName, eval_call, evalAll_cons, evalAll_nil, eval_sample]
    simp only [List.map_cons, evalFields, hvalue, ih, pure_bind]

theorem run_payloadHelper {limit : Nat} (hp : WellFormed limit (.ofResource r)) {m : ModelType}
    (hmodel : (program r names).model? names.rootModel = some m)
    (hm : List.Forall₂ Modelled r.fields m.fields) :
    enter ((program r names).names runs site)
        (payloadHelper (.ofResource r) (testPaths r names)) []
      = pure (.model m.shape (payloadSlots (.ofResource r))) := by
  have hplace : (program r names).place? site (testPaths r names).model
      = some ⟨.model, [names.rootModel]⟩ := by
    have hpath : (testPaths r names).model
        = .rel ((resourceModule r).names ++ ArtifactKind.model.moduleName :: [names.rootModel]) := by
      simp [testPaths, Path.child, Path.rel, resourceModule, ArtifactKind.moduleName]
    rw [hpath]
    exact place?_inside r names site .model _
  have hrecord : (program r names).record? site (testPaths r names).model
      (payloadInits (.ofResource r))
      (decide ((payloadSamples (.ofResource r)).length < (PlacedTable.ofResource r).fields.length))
      = some (.model m.shape (payloadSlots (.ofResource r))) := by
    rw [Program.record?, hplace]
    change ((program r names).model? names.rootModel).bind _ = _
    rw [hmodel]
    exact build?_payloadInits hp hm
  change Run.returning (execBody _ _ [] [.result _]) = _
  rw [execBody_result]
  change Run.returning (eval _ [] (.record _ _ _)) = _
  rw [eval_record, evalFields_payload, pure_bind, Program.names_record?, hrecord, Run.given_some,
    Run.returning_pure]

end Runs

end RestForge.Emit
