import Mathlib.Data.Finset.Card
import RestForge.Proofs.SamplePayload

/-!
# The search for an undeclared value

The test that a field refuses an undeclared value needs a text that the field does not declare. It is
found by writing underscores behind a stem, one after another, as long as the text is declared.

* `Search`: the search as a loop, with the number of its steps.
* `Search.passed`, `Search.steps_le`: the texts that a search passes are declared and all different, so
  that there are no more steps than different declared values.
* `search_undeclaredFrom`: the tries of the definition are the steps of the loop.
* `undeclaredValue_shortest`: every search ends, at the shortest text that is not declared.
-/

set_option autoImplicit false

namespace RestForge.Emit

/-! ## Texts with underscores -/

def underscored (value : String) (n : Nat) : String := value ++ String.ofList (List.replicate n '_')

theorem underscored_zero (value : String) : underscored value 0 = value := by
  rw [underscored, List.replicate_zero, String.ofList_nil, String.append_empty]

theorem underscored_succ (value : String) (n : Nat) :
    underscored value (n + 1) = underscored (value ++ "_") n := by
  apply String.toList_injective
  simp [underscored, List.replicate_succ]

theorem length_underscored (value : String) (n : Nat) :
    (underscored value n).length = value.length + n := by
  simp [underscored, String.length_append]

theorem underscored_injective (value : String) : Function.Injective (underscored value) := by
  intro m n h
  have hlength := congrArg String.length h
  rw [length_underscored, length_underscored] at hlength
  exact Nat.add_left_cancel hlength

/-! ## The loop -/

/-- A search that starts at a text, takes some steps, and ends at a text that is not declared. -/
inductive Search (declared : List String) : String → Nat → String → Prop
  | free {value : String} (h : value ∉ declared) : Search declared value 0 value
  | next {value result : String} {steps : Nat} (h : value ∈ declared)
    (rest : Search declared (value ++ "_") steps result) : Search declared value (steps + 1) result

namespace Search

variable {declared : List String} {value result : String} {steps : Nat}

theorem fresh (h : Search declared value steps result) : result ∉ declared := by
  induction h with
  | free h => exact h
  | next _ _ ih => exact ih

theorem result_eq (h : Search declared value steps result) : result = underscored value steps := by
  induction h with
  | free => rw [underscored_zero]
  | next _ _ ih => rw [underscored_succ, ih]

theorem passed (h : Search declared value steps result) :
    ∀ n < steps, underscored value n ∈ declared := by
  induction h with
  | free => simp
  | next hdeclared _ ih =>
    intro n hn
    cases n with
    | zero =>
      rw [underscored_zero]
      exact hdeclared
    | succ n =>
      rw [underscored_succ]
      exact ih n (by omega)

theorem steps_le (h : Search declared value steps result) : steps ≤ declared.toFinset.card := by
  rw [← Finset.card_range steps]
  refine Finset.card_le_card_of_injOn (underscored value) (fun n hn => ?_)
    (underscored_injective value).injOn
  exact List.mem_toFinset.mpr (h.passed n (Finset.mem_range.mp hn))

/-- The loop has no choice. -/
theorem unique {steps' : Nat} {result' : String} (h : Search declared value steps result)
    (h' : Search declared value steps' result') : steps' = steps ∧ result' = result := by
  have hsteps : steps' = steps := by
    -- the text at which one search ends is none that the other one passes
    rcases Nat.lt_trichotomy steps' steps with hlt | heq | hlt
    · exact absurd (h.passed steps' hlt) (h'.result_eq ▸ h'.fresh)
    · exact heq
    · exact absurd (h'.passed steps hlt) (h.result_eq ▸ h.fresh)
  refine ⟨hsteps, ?_⟩
  rw [h'.result_eq, h.result_eq, hsteps]

theorem shortest (h : Search declared value steps result) {n : Nat}
    (hn : underscored value n ∉ declared) : result.length ≤ (underscored value n).length := by
  have hle : steps ≤ n := by
    by_contra hlt
    exact hn (h.passed n (by omega))
  rw [h.result_eq, length_underscored, length_underscored]
  omega

end Search

/-! ## The value of a field -/

/-- The tries are enough if what they lead to is not declared. -/
theorem search_undeclaredFrom {declared : List String} {tries : Nat} {value : String}
    (h : undeclaredFrom declared value tries ∉ declared) :
    ∃ steps, Search declared value steps (undeclaredFrom declared value tries) := by
  induction tries generalizing value with
  | zero => exact ⟨0, .free h⟩
  | succ tries ih =>
    rw [undeclaredFrom] at h ⊢
    split
    · rename_i hdeclared
      rw [if_pos hdeclared] at h
      obtain ⟨steps, hrest⟩ := ih h
      exact ⟨steps + 1, .next (by simpa using hdeclared) hrest⟩
    · rename_i hfree
      exact ⟨0, .free (by simpa using hfree)⟩

/-- **The search for an undeclared value ends, at the shortest one.** Whatever values a field declares,
and however often, the loop that writes underscores behind the stem as long as the text is declared ends
in one way only: after no more steps than there are different declared values, at a text that is the
stem with one underscore for each step. That text is not declared, and no shorter one of this form is
free. -/
theorem undeclaredValue_shortest (f : Field) : ∃ steps ≤ f.values.toFinset.card,
    (∀ n result, Search f.distinctValues undeclaredStem n result
      ↔ n = steps ∧ result = undeclaredValue f)
    ∧ undeclaredValue f = underscored undeclaredStem steps
    ∧ undeclaredValue f ∉ f.values
    ∧ ∀ n, underscored undeclaredStem n ∉ f.values
      → (undeclaredValue f).length ≤ (underscored undeclaredStem n).length := by
  have hsame : f.distinctValues.toFinset = f.values.toFinset := by
    ext v
    rw [List.mem_toFinset, List.mem_toFinset, mem_distinctValues]
  have hfresh := undeclaredValue_notMem f
  obtain ⟨steps, hsearch⟩ :
      ∃ steps, Search f.distinctValues undeclaredStem steps (undeclaredValue f) :=
    search_undeclaredFrom (mem_distinctValues.not.mpr hfresh)
  refine ⟨steps, hsame ▸ hsearch.steps_le, fun n result => ⟨hsearch.unique, ?_⟩, hsearch.result_eq,
    hfresh, fun n hn => hsearch.shortest (mem_distinctValues.not.mpr hn)⟩
  rintro ⟨rfl, rfl⟩
  exact hsearch

example : undeclaredValue { Field.plain "v" "v" .enum with
    values := ["__undeclared__", "__undeclared___", "__undeclared__"] } = "__undeclared____" := by
  decide +kernel

end RestForge.Emit
