import RestForge.Emit.Validators
import RestForge.Proofs.CheckMeaning

/-!
# What a check demands of a payload

A check of a table looks at the payload, and then at the rows below it, table by table and row by
row, each with all that is below it before the next. The first row with a fault decides.

* `visits`: the rows that are looked at, in order, each with the table it belongs to.
* `Passes`, `Fault`: what a check demands of one row, and the error of a row that does not pass.
* `rowVerdict_of_passes`, `rowVerdict_of_fault`: the runtime library says the same of one row.
* `firstFault_ok_iff`, `firstFault_error_iff`: many rows, up to the first fault.
-/

set_option autoImplicit false

namespace RestForge.Emit

open Source
open Rest (ValidationError EnumField requireFields checkEnums tableRows isUnset enumText? undeclared?)

/-! ## Visited rows -/

/-- The payload of a table and all rows below it. -/
def visits : PlacedTable → Record → List (PlacedTable × Record) :=
  PlacedTable.fold fun p below payload =>
    (p, payload) :: (List.zipWith (fun c visit => (tableRows payload c.segment).flatMap visit)
      p.childTables below).flatten

theorem visits_eq (p : PlacedTable) (payload : Record) :
    visits p payload = (p, payload) :: p.childTables.flatMap fun c =>
      (tableRows payload c.segment).flatMap (visits c) := by
  have hfold : visits p payload = (p, payload) :: (List.zipWith
      (fun c visit => (tableRows payload c.segment).flatMap visit) p.childTables
      (p.childTables.map visits)).flatten := by
    rw [visits, PlacedTable.fold_eq]
  rw [hfold, List.zipWith_map_right, List.zipWith_self, List.flatMap_def]

/-! ## One row -/

def writtenText : Json → String
  | .string s => s
  | other => other.compact

def hasValue (row : Record) (field : String) : Bool :=
  match row.get? field with
  | some value => !value.isNull
  | none => false

/-- The required fields without a value, in the order of the schema. -/
def missingFields (p : PlacedTable) (row : Record) : List String :=
  (p.fields.filter fun f => f.required && !hasValue row f.wireName).map Field.wireName

/-- If the field has a value, its text is a declared one. -/
def IsDeclared (row : Record) (f : Field) : Prop :=
  ∀ value, row.get? f.wireName = some value → value.isNull = false → writtenText value ∈ f.values

/-- What a check demands of a row. Only a create payload needs its required fields. -/
structure Passes (check : Check) (p : PlacedTable) (row : Record) : Prop where
  required : check = .create → ∀ f ∈ p.fields, f.required = true → hasValue row f.wireName = true
  declared : ∀ f ∈ p.fields, f.isEnum = true → IsDeclared row f

/-- The error of a row that does not pass: all missing required fields in the order of the schema,
or else the first enum field with a value that is not declared. -/
inductive Fault (check : Check) (p : PlacedTable) (row : Record) : ValidationError → Prop where
  | missing (create : check = .create) (some : missingFields p row ≠ []) :
      Fault check p row (.missingRequired p.dotted (missingFields p row))
  | undeclared (f : Field) (before after : List Field) (value : Json)
      (required : check = .create → ∀ g ∈ p.fields, g.required = true →
        hasValue row g.wireName = true)
      (fields : p.fields = before ++ f :: after)
      (first : ∀ g ∈ before, g.isEnum = true → IsDeclared row g) (enum : f.isEnum = true)
      (present : row.get? f.wireName = some value) (notNull : value.isNull = false)
      (other : writtenText value ∉ f.values) :
      Fault check p row (.invalidEnum p.dotted f.wireName (writtenText value) f.distinctValues)

def declaredFields (fields : List Field) : List EnumField :=
  (fields.filter Field.isEnum).map fun f => ⟨f.wireName, f.distinctValues⟩

/-- What the check of a table says of one row, leaving out the rows below it. -/
def rowVerdict (check : Check) (p : PlacedTable) (row : Record) : Verdict :=
  match check with
  | .create =>
    match requireFields p.dotted row (p.requiredFields.map Field.wireName) with
    | .ok () => checkEnums p.dotted row (declaredFields p.fields)
    | .error e => .error e
  | .update => checkEnums p.dotted row (declaredFields p.fields)

theorem isUnset_eq (row : Record) (field : String) : isUnset row field = !hasValue row field := by
  unfold isUnset hasValue
  cases row.get? field with
  | none => rfl
  | some value => simp

theorem mem_distinctValues {f : Field} {v : String} : v ∈ f.distinctValues ↔ v ∈ f.values := by
  -- the fold holds what it began with and every value it has passed
  have hfold : ∀ (values seen : List String),
      v ∈ values.foldl (fun seen v => if seen.contains v then seen else seen ++ [v]) seen
        ↔ v ∈ seen ∨ v ∈ values := by
    intro values
    induction values with
    | nil => simp
    | cons w values ih =>
      intro seen
      rw [List.foldl_cons, ih]
      by_cases hw : seen.contains w = true
      · have hmem : w ∈ seen := by simpa using hw
        rw [if_pos hw, List.mem_cons]
        constructor
        · rintro (h | h)
          · exact .inl h
          · exact .inr (.inr h)
        · rintro (h | rfl | h)
          · exact .inl h
          · exact .inl hmem
          · exact .inr h
      · rw [if_neg hw, List.mem_append, List.mem_singleton, List.mem_cons, or_assoc]
  simpa [Field.distinctValues] using hfold f.values []

/-! ## The first failure -/

theorem first_failure {α : Type} (good : α → Prop) (l : List α) :
    (∀ x ∈ l, good x) ∨ ∃ before x after, l = before ++ x :: after ∧ (∀ y ∈ before, good y)
      ∧ ¬ good x := by
  induction l with
  | nil => exact .inl (by simp)
  | cons x l ih =>
    by_cases hx : good x
    · obtain hall | ⟨before, y, after, rfl, hbefore, hy⟩ := ih
      · refine .inl fun z hz => ?_
        obtain rfl | hz := List.mem_cons.mp hz
        · exact hx
        · exact hall z hz
      · refine .inr ⟨x :: before, y, after, rfl, fun z hz => ?_, hy⟩
        obtain rfl | hz := List.mem_cons.mp hz
        · exact hx
        · exact hbefore z hz
    · exact .inr ⟨[], x, l, rfl, by simp, hx⟩

/-! ## The check of one row -/

theorem enumText?_eq (value : Json) :
    enumText? value = if value.isNull then none else some (writtenText value) := by
  cases value <;> rfl

theorem undeclared?_of_isDeclared {row : Record} {f : Field} (h : IsDeclared row f) :
    undeclared? row ⟨f.wireName, f.distinctValues⟩ = none := by
  unfold undeclared?
  cases hv : row.get? f.wireName with
  | none => rfl
  | some value =>
    rw [Option.bind_some, enumText?_eq]
    by_cases hn : value.isNull = true
    · rw [if_pos hn]
      rfl
    · rw [if_neg hn]
      have hmem := h value hv (by simpa using hn)
      simp [mem_distinctValues, hmem]

theorem undeclared?_of_other {row : Record} {f : Field} {value : Json}
    (hv : row.get? f.wireName = some value) (hn : value.isNull = false)
    (hother : writtenText value ∉ f.values) :
    undeclared? row ⟨f.wireName, f.distinctValues⟩ = some (writtenText value) := by
  unfold undeclared?
  rw [hv, Option.bind_some, enumText?_eq, hn]
  simp [mem_distinctValues, hother]

theorem not_isDeclared {row : Record} {f : Field} (h : ¬ IsDeclared row f) :
    ∃ value, row.get? f.wireName = some value ∧ value.isNull = false
      ∧ writtenText value ∉ f.values := by
  simpa only [IsDeclared, Classical.not_forall, exists_prop] using h

theorem checkEnums_append {resource : String} {row : Record} {before : List Field}
    (h : ∀ g ∈ before, g.isEnum = true → IsDeclared row g) (rest : List Field) :
    checkEnums resource row (declaredFields (before ++ rest))
      = checkEnums resource row (declaredFields rest) := by
  induction before with
  | nil => rfl
  | cons g before ih =>
    have hrest := ih fun g' hg' => h g' (List.mem_cons_of_mem _ hg')
    by_cases hg : g.isEnum = true
    · have hfields : declaredFields (g :: before ++ rest)
          = ⟨g.wireName, g.distinctValues⟩ :: declaredFields (before ++ rest) := by
        simp [declaredFields, hg]
      rw [hfields, checkEnums, undeclared?_of_isDeclared (h g List.mem_cons_self hg), hrest]
    · have hfields : declaredFields (g :: before ++ rest) = declaredFields (before ++ rest) := by
        simp [declaredFields, hg]
      rw [hfields, hrest]

theorem checkEnums_of_first {resource : String} {row : Record} {before after : List Field}
    {f : Field} {value : Json} (h : ∀ g ∈ before, g.isEnum = true → IsDeclared row g)
    (hf : f.isEnum = true) (hv : row.get? f.wireName = some value) (hn : value.isNull = false)
    (hother : writtenText value ∉ f.values) :
    checkEnums resource row (declaredFields (before ++ f :: after))
      = .error (.invalidEnum resource f.wireName (writtenText value) f.distinctValues) := by
  have hfields : declaredFields (f :: after)
      = ⟨f.wireName, f.distinctValues⟩ :: declaredFields after := by
    simp [declaredFields, hf]
  rw [checkEnums_append h, hfields, checkEnums, undeclared?_of_other hv hn hother]

theorem checkEnums_of_declared {resource : String} {row : Record} {fields : List Field}
    (h : ∀ g ∈ fields, g.isEnum = true → IsDeclared row g) :
    checkEnums resource row (declaredFields fields) = .ok () := by
  have happend : checkEnums resource row (declaredFields (fields ++ [])) = _ :=
    checkEnums_append h []
  rwa [List.append_nil] at happend

theorem missingFields_eq_nil {p : PlacedTable} {row : Record} :
    missingFields p row = [] ↔ ∀ f ∈ p.fields, f.required = true → hasValue row f.wireName = true := by
  simp [missingFields, List.filter_eq_nil_iff]

theorem requireFields_eq (p : PlacedTable) (row : Record) :
    requireFields p.dotted row (p.requiredFields.map Field.wireName)
      = match missingFields p row with
        | [] => .ok ()
        | missing => .error (.missingRequired p.dotted missing) := by
  have hmissing : (p.requiredFields.map Field.wireName).filter (isUnset row)
      = missingFields p row := by
    rw [PlacedTable.requiredFields, List.filter_map, List.filter_filter, missingFields]
    congr 1
    apply List.filter_congr
    intro f hf
    simp [isUnset_eq, Bool.and_comm]
  cases hm : missingFields p row with
  | nil => rw [requireFields, hmissing, hm]
  | cons name names => rw [requireFields, hmissing, hm]

theorem rowVerdict_of_required {check : Check} {p : PlacedTable} {row : Record}
    (h : check = .create → missingFields p row = []) :
    rowVerdict check p row = checkEnums p.dotted row (declaredFields p.fields) := by
  cases check with
  | create => rw [rowVerdict, requireFields_eq, h rfl]
  | update => rfl

theorem rowVerdict_of_passes {check : Check} {p : PlacedTable} {row : Record}
    (h : Passes check p row) : rowVerdict check p row = .ok () := by
  have hrequired : check = .create → missingFields p row = [] :=
    fun hc => missingFields_eq_nil.mpr (h.required hc)
  rw [rowVerdict_of_required hrequired]
  exact checkEnums_of_declared h.declared

theorem rowVerdict_of_fault {check : Check} {p : PlacedTable} {row : Record} {e : ValidationError}
    (h : Fault check p row e) : rowVerdict check p row = .error e := by
  cases h with
  | missing create some =>
    subst create
    rw [rowVerdict, requireFields_eq]
    cases hm : missingFields p row with
    | nil => exact absurd hm some
    | cons name names => rfl
  | undeclared f before after value required fields first enum present notNull other =>
    have hrequired : check = .create → missingFields p row = [] :=
      fun hc => missingFields_eq_nil.mpr (required hc)
    rw [rowVerdict_of_required hrequired, fields]
    exact checkEnums_of_first first enum present notNull other

theorem passes_or_fault (check : Check) (p : PlacedTable) (row : Record) :
    Passes check p row ∨ ∃ e, Fault check p row e := by
  by_cases hmissing : check = .create ∧ missingFields p row ≠ []
  · exact .inr ⟨_, .missing hmissing.1 hmissing.2⟩
  · have hrequired : check = .create → ∀ f ∈ p.fields, f.required = true →
        hasValue row f.wireName = true := by
      intro hc
      apply missingFields_eq_nil.mp
      by_contra hne
      exact hmissing ⟨hc, hne⟩
    obtain hall | ⟨before, f, after, hfields, hbefore, hf⟩ :=
      first_failure (fun f => f.isEnum = true → IsDeclared row f) p.fields
    · exact .inl ⟨hrequired, hall⟩
    · obtain ⟨henum, hdeclared⟩ := Classical.not_imp.mp hf
      obtain ⟨value, hv, hn, hother⟩ := not_isDeclared hdeclared
      exact .inr ⟨_, .undeclared f before after value hrequired hfields hbefore henum hv hn hother⟩

/-! ## The first row with a fault -/

def firstFault (check : Check) : List (PlacedTable × Record) → Verdict
  | [] => .ok ()
  | v :: vs =>
    match rowVerdict check v.1 v.2 with
    | .ok () => firstFault check vs
    | .error e => .error e

theorem firstFault_cons (check : Check) (v : PlacedTable × Record)
    (vs : List (PlacedTable × Record)) :
    some (firstFault check (v :: vs))
      = andThen (some (rowVerdict check v.1 v.2)) (some (firstFault check vs)) := by
  rw [firstFault]
  rcases rowVerdict check v.1 v.2 with _ | ⟨⟩ <;> rfl

theorem firstFault_append (check : Check) (vs vs' : List (PlacedTable × Record)) :
    some (firstFault check (vs ++ vs'))
      = andThen (some (firstFault check vs)) (some (firstFault check vs')) := by
  induction vs with
  | nil => rfl
  | cons v vs ih => rw [List.cons_append, firstFault_cons, firstFault_cons, ih, andThen_assoc]

theorem firstFault_of_passes {check : Check} {before : List (PlacedTable × Record)}
    (h : ∀ v ∈ before, Passes check v.1 v.2) (rest : List (PlacedTable × Record)) :
    firstFault check (before ++ rest) = firstFault check rest := by
  induction before with
  | nil => rfl
  | cons v before ih =>
    rw [List.cons_append, firstFault, rowVerdict_of_passes (h v List.mem_cons_self)]
    exact ih fun u hu => h u (List.mem_cons_of_mem _ hu)

theorem firstFault_of_fault {check : Check} {before after : List (PlacedTable × Record)}
    {v : PlacedTable × Record} {e : ValidationError} (h : ∀ u ∈ before, Passes check u.1 u.2)
    (hv : Fault check v.1 v.2 e) : firstFault check (before ++ v :: after) = .error e := by
  rw [firstFault_of_passes h, firstFault, rowVerdict_of_fault hv]

theorem firstFault_ok_iff {check : Check} {vs : List (PlacedTable × Record)} :
    firstFault check vs = .ok () ↔ ∀ v ∈ vs, Passes check v.1 v.2 := by
  constructor
  · intro h
    obtain hall | ⟨before, v, after, rfl, hbefore, hv⟩ :=
      first_failure (fun v => Passes check v.1 v.2) vs
    · exact hall
    · obtain hpass | ⟨e, hfault⟩ := passes_or_fault check v.1 v.2
      · exact absurd hpass hv
      · rw [firstFault_of_fault hbefore hfault] at h
        cases h
  · intro h
    have happend := firstFault_of_passes h []
    rwa [List.append_nil] at happend

theorem firstFault_error_iff {check : Check} {vs : List (PlacedTable × Record)}
    {e : ValidationError} : firstFault check vs = .error e ↔
      ∃ before v after, vs = before ++ v :: after ∧ (∀ u ∈ before, Passes check u.1 u.2)
        ∧ Fault check v.1 v.2 e := by
  constructor
  · intro h
    obtain hall | ⟨before, v, after, rfl, hbefore, hv⟩ :=
      first_failure (fun v => Passes check v.1 v.2) vs
    · rw [firstFault_ok_iff.mpr hall] at h
      cases h
    · obtain hpass | ⟨e', hfault⟩ := passes_or_fault check v.1 v.2
      · exact absurd hpass hv
      · rw [firstFault_of_fault hbefore hfault] at h
        cases h
        exact ⟨before, v, after, rfl, hbefore, hfault⟩
  · rintro ⟨before, v, after, rfl, hbefore, hfault⟩
    exact firstFault_of_fault hbefore hfault

end RestForge.Emit
