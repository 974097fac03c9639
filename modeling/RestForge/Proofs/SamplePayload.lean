import RestForge.Emit.SmokeTests
import RestForge.Proofs.ModelRecords
import RestForge.Proofs.ResourceNames
import RestForge.Proofs.ResourceShape
import RestForge.Proofs.Validation

/-!
# The payloads of the generated tests

The tests of a table are generated apart from its checks. They put little into a payload: nothing,
one enum value, or the values of the required fields and of the key.

* `Schema.exists_wellFormed`: the tables of a resource that was read in a run are well formed.
* `payloadRecord`: the smallest payload as a record; `passes_payloadRecord`: it passes.
* `undeclaredFrom_notMem`: the value that stands for an undeclared one is not declared.
* `visits_of_rowless`: a check looks at the payload alone if no member of it holds rows.
-/

set_option autoImplicit false

namespace RestForge.Schema

theorem exists_wellFormed {steps : List NamingStep} {r : Resource} (h : r ∈ resourcesRead steps) :
    ∃ limit, ∀ p ∈ r.tables, WellFormed limit p := by
  obtain ⟨limit, doc, t, t', hread⟩ := Run.exists_read_of_mem_resourcesFrom h
  obtain ⟨_, _, _, _, _, -, -, -, -, -, -, -, -, -, hreads, -, hkey⟩ := readResource_ok_iff.mp hread
  exact ⟨limit, wellFormed_walk hreads.deeplyTidy (PlacedTable.isNamed_ofResource h) hkey
    (by simp [PlacedTable.ofResource])⟩

end RestForge.Schema

namespace RestForge.Emit

open Source Naming Schema
open Rest (tableRows requireFields rowOf?)

/-! ## The smallest payload -/

/-- The value that a sample gives a member of the payload. -/
def Sample.json : Sample → Json
  | integer n => .nat n
  | boolean b => .bool b
  | noRows => .array []
  | text s => .string s
  | emptyText => .string ""

def payloadMembers (p : PlacedTable) : List (String × Json) :=
  (payloadSamples p).map fun s => (s.1.wireName, s.2.json)

def payloadRecord (p : PlacedTable) : Record := Record.ofList (payloadMembers p)

theorem payloadMembers_keys (p : PlacedTable) :
    (payloadMembers p).map Prod.fst = (payloadFields p).map Field.wireName := by
  simp [payloadMembers, payloadSamples, Function.comp_def]

theorem Sample.isNull_json (s : Sample) : s.json.isNull = false := by
  cases s <;> rfl

theorem Sample.json_rowless (s : Sample) {items : List Json} (h : s.json = .array items) :
    items = [] := by
  cases s <;> cases h
  rfl

section Payload

variable {p : PlacedTable} (hp : WellNamed p.fields p.children)

include hp

theorem nodup_payloadMembers : ((payloadMembers p).map Prod.fst).Nodup := by
  rw [payloadMembers_keys]
  exact hp.wires.sublist (List.filter_sublist.map _)

theorem get?_payloadRecord {f : Field} (hf : f ∈ payloadFields p) :
    (payloadRecord p).get? f.wireName = some (payloadSample p f).json := by
  rw [payloadRecord, Record.get?, Record.ofList, KeyedList.get?_ofList]
  refine lookup_of_mem ?_ (List.mem_reverse.mpr ?_)
  · rw [List.map_reverse, List.nodup_reverse]
    exact nodup_payloadMembers hp
  · exact List.mem_map.mpr ⟨(f, payloadSample p f), List.mem_map.mpr ⟨f, hf, rfl⟩, rfl⟩

omit hp in
theorem json_of_get?_payloadRecord {key : String} {value : Json}
    (h : (payloadRecord p).get? key = some value) :
    ∃ f ∈ payloadFields p, f.wireName = key ∧ value = (payloadSample p f).json := by
  rw [payloadRecord, Record.get?, Record.ofList, KeyedList.get?_ofList] at h
  obtain ⟨before, after, he, -⟩ := List.lookup_eq_some_iff.mp h
  have hmem : (key, value) ∈ payloadMembers p := by
    rw [← List.mem_reverse, he]
    exact List.mem_append_right _ List.mem_cons_self
  obtain ⟨s, hs, he⟩ := List.mem_map.mp hmem
  obtain ⟨f, hf, rfl⟩ := List.mem_map.mp hs
  cases he
  exact ⟨f, hf, rfl, rfl⟩

end Payload

/-! ## What passes -/

/-- An enum field of the payload has its first declared value. -/
theorem payloadSample_enum {p : PlacedTable} (hp : Tidy p.fields) {f : Field} (hf : f ∈ p.fields)
    (henum : f.isEnum = true) : ∃ v ∈ f.values, payloadSample p f = .text v := by
  have htype : f.type = .enum := beq_iff_eq.mp henum
  obtain ⟨v, vs, hvalues⟩ := List.exists_cons_of_ne_nil ((hp.enums f hf).mpr henum)
  refine ⟨v, by simp [hvalues], ?_⟩
  cases hkey : isKey p f <;>
    simp [payloadSample, hkey, keySample, placeholder, htype, firstValue, hvalues]

theorem passes_payloadRecord {limit : Nat} {p : PlacedTable} (hp : WellFormed limit p)
    (check : Check) : Passes check p (payloadRecord p) := by
  refine ⟨fun _ f hf hrequired => ?_, fun f hf henum value hvalue _ => ?_⟩
  · have hmem : f ∈ payloadFields p := List.mem_filter.mpr ⟨hf, by simp [hrequired]⟩
    rw [hasValue, get?_payloadRecord hp.names hmem]
    simp [Sample.isNull_json]
  · obtain ⟨g, hg, hwire, rfl⟩ := json_of_get?_payloadRecord hvalue
    have he : g = f :=
      List.inj_on_of_nodup_map hp.names.wires (List.mem_of_mem_filter hg) hf hwire
    obtain ⟨v, hv, hsample⟩ := payloadSample_enum hp.tidy hf henum
    rw [he, hsample]
    exact hv

/-! ## Payloads without rows -/

/-- No member of the payload holds rows. -/
def Rowless (payload : Record) : Prop := ∀ field, tableRows payload field = []

theorem rowless_iff {payload : Record} : Rowless payload ↔
    ∀ field items, payload.get? field = some (.array items) → items.filterMap rowOf? = [] := by
  refine forall_congr' fun field => ⟨fun h items hget => ?_, fun h => ?_⟩
  · rwa [tableRows, hget] at h
  · rw [tableRows]
    split
    · exact h _ ‹_›
    · rfl

theorem rowless_nil : Rowless [] := fun _ => rfl

theorem rowless_single (key text : String) : Rowless [(key, .string text)] := by
  refine rowless_iff.mpr fun field items h => ?_
  rw [Record.get?, KeyedList.get?_cons] at h
  split at h
  · cases h
  · cases h

theorem rowless_payloadRecord (p : PlacedTable) : Rowless (payloadRecord p) := by
  refine rowless_iff.mpr fun field items h => ?_
  obtain ⟨f, -, -, he⟩ := json_of_get?_payloadRecord h
  rw [(payloadSample p f).json_rowless he.symm]
  rfl

theorem visits_of_rowless {p : PlacedTable} {payload : Record} (h : Rowless payload) :
    visits p payload = [(p, payload)] := by
  have hbelow : ∀ c, (tableRows payload c.segment).flatMap (visits c) = [] := fun c => by
    rw [h c.segment, List.flatMap_nil]
  rw [visits_eq]
  simp [hbelow]

/-- So the check of a table says what it says of the payload alone. -/
theorem call_of_rowless {p : PlacedTable} (hp : p.IsNamed) {payload : Record} (h : Rowless payload)
    (check : Check) :
    call (validatorItems p) check.name payload = some (rowVerdict check p payload) := by
  rw [call_validatorItems check p hp, visits_of_rowless h, firstFault]
  split <;> simp_all [firstFault]

/-! ## Undeclared values -/

/-- A declared candidate is longer than all before it, so that each try uses up a declared value. -/
theorem undeclaredFrom_notMem {declared : List String} {tries : Nat} {value : String}
    (h : (declared.filter fun v => value.length ≤ v.length).length ≤ tries) :
    undeclaredFrom declared value tries ∉ declared := by
  induction tries generalizing value with
  | zero =>
    intro hmem
    have hnil := List.length_eq_zero_iff.mp (Nat.le_zero.mp h)
    exact absurd (List.filter_eq_nil_iff.mp hnil value hmem) (by simp)
  | succ tries ih =>
    rw [undeclaredFrom]
    split
    · rename_i hdeclared
      have hfewer : declared.filter (fun v => (value ++ "_").length ≤ v.length)
          = (declared.filter fun v => value.length ≤ v.length).filter
              fun v => (value ++ "_").length ≤ v.length := by
        rw [List.filter_filter]
        refine List.filter_congr fun v _ => ?_
        simp [String.length_append]
        omega
      refine ih (Nat.le_of_lt_succ (Nat.lt_of_lt_of_le ?_ h))
      rw [hfewer, List.length_filter_lt_length_iff_exists]
      exact ⟨value, List.mem_filter.mpr ⟨by simpa using hdeclared, by simp⟩, by
        simp [String.length_append]⟩
    · rename_i hfree
      simpa using hfree

theorem undeclaredValue_notMem (f : Field) : undeclaredValue f ∉ f.values := by
  rw [← mem_distinctValues]
  exact undeclaredFrom_notMem (List.length_filter_le _ _)

end RestForge.Emit
