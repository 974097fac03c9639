import RestForge.Proofs.NameTable

/-!
# Batches of names

A batch of wire names, each in its scope, is normalized on a fresh table, one after another. A name
that is refused does not stop the batch, and leaves nothing behind.

* `answers`: what the calls of a sequence are answered; `batch`: the calls of a batch.
* `Clashfree`: no two wire names of a scope ask for one code name.
* `NameTable.Normalized`: a table to which names were added by normalizing only; `run_cases`: what one
  more call does to it.
* `answers_clashfree`: what a batch without clashes leaves; `held_of_given`: what a batch leaves that
  was granted.
* `replayed`: a batch that is run again finds everything as it left it.
* `batch_outcome`: the outcome of a batch.
-/

set_option autoImplicit false

namespace RestForge.Naming

/-! ## Batches -/

/-- What the calls are answered, in order. -/
def answers : NameTable → List Call → List Answer
  | _, [] => []
  | t, call :: calls => (call.run t).1 :: answers (call.run t).2 calls

@[simp] theorem answers_nil (t : NameTable) : answers t [] = [] := rfl

@[simp] theorem answers_cons (t : NameTable) (call : Call) (calls : List Call) :
    answers t (call :: calls) = (call.run t).1 :: answers (call.run t).2 calls := rfl

/-- A scope, and a wire name in it. -/
abbrev Wish := Scope × String

namespace Wish

def code (a : Wish) : String := identifier a.1.kind a.2

def call (a : Wish) : Call := .normalize a.1 a.2

end Wish

def batch (wishes : List Wish) : List Call := wishes.map Wish.call

@[simp] theorem batch_nil : batch [] = [] := rfl

@[simp] theorem batch_cons (a : Wish) (wishes : List Wish) :
    batch (a :: wishes) = a.call :: batch wishes := rfl

/-- Different wire names of one scope ask for different code names. -/
def Clashfree (wishes : List Wish) : Prop :=
  ∀ a ∈ wishes, ∀ b ∈ wishes, a.1 = b.1 → a.2 ≠ b.2 → a.code ≠ b.code

/-! ## One call -/

namespace NameTable

/-- Every wire name has the code name that it asks for, in scopes of types too. -/
structure Normalized (t : NameTable) : Prop where
  twoWay : t.TwoWay
  spelled : ∀ s w c, t.codeName? s w = some c → identifier s.kind w = c

theorem normalized_empty : empty.Normalized := ⟨twoWay_empty, fun s w c h => by simp at h⟩

end NameTable

open NameTable (Normalized)

/-- A wish is refused for another one that asks for the same, or granted and then held. -/
theorem Wish.run_cases {t : NameTable} (ht : t.Normalized) (a : Wish) :
    (∃ owner, owner ≠ a.2 ∧ Wish.code (a.1, owner) = a.code
        ∧ t.codeName? a.1 owner = some a.code ∧ t.codeName? a.1 a.2 = none
        ∧ a.call.run t = (.refused ⟨a.1, a.code, owner, a.2⟩, t))
    ∨ ((a.call.run t).1 = .given a.code ∧ ∀ s w c, (a.call.run t).2.codeName? s w = some c
        ↔ t.codeName? s w = some c ∨ (s, w) = a ∧ a.code = c) := by
  obtain ⟨s, w⟩ := a
  show (∃ owner, owner ≠ w ∧ identifier s.kind owner = identifier s.kind w
      ∧ t.codeName? s owner = some (identifier s.kind w) ∧ t.codeName? s w = none
      ∧ (Answer.ofRecord (t.normalize s w).1, (t.normalize s w).2)
        = (.refused ⟨s, identifier s.kind w, owner, w⟩, t))
    ∨ (Answer.ofRecord (t.normalize s w).1 = .given (identifier s.kind w)
      ∧ ∀ s' w' c, (t.normalize s w).2.codeName? s' w' = some c
        ↔ t.codeName? s' w' = some c ∨ (s', w') = (s, w) ∧ identifier s.kind w = c)
  rw [NameTable.normalize]
  obtain ⟨known, hk, he⟩ | ⟨owner, hw, hc, he⟩ | ⟨hw, hc, he⟩ :=
    t.record_cases s w (identifier s.kind w)
  · obtain rfl := ht.spelled s w known hk
    rw [he]
    refine .inr ⟨rfl, fun s' w' c => ⟨.inl, ?_⟩⟩
    rintro (h | ⟨h, rfl⟩)
    · exact h
    · cases h
      exact hk
  · have howner : t.codeName? s owner = some (identifier s.kind w) := (ht.twoWay _ _ _).mpr hc
    rw [he]
    refine .inl ⟨owner, ?_, ht.spelled _ _ _ howner, howner, hw, rfl⟩
    rintro rfl
    rw [hw] at howner
    cases howner
  · rw [he]
    refine .inr ⟨rfl, fun s' w' c => ?_⟩
    rw [NameTable.codeName?_add]
    by_cases hnew : s' = s ∧ w' = w
    · obtain ⟨rfl, rfl⟩ := hnew
      simp [hw, eq_comm]
    · simp [hnew]

theorem Wish.normalized_run {t : NameTable} (ht : t.Normalized) (a : Wish) :
    (a.call.run t).2.Normalized := by
  refine ⟨Call.twoWay_run ht.twoWay a.call, fun s w c h => ?_⟩
  obtain ⟨owner, -, -, -, -, he⟩ | ⟨-, hheld⟩ := a.run_cases ht
  · rw [he] at h
    exact ht.spelled s w c h
  · obtain h | ⟨rfl, rfl⟩ := (hheld s w c).mp h
    · exact ht.spelled s w c h
    · rfl

theorem normalized_after {t : NameTable} (ht : t.Normalized) (wishes : List Wish) :
    (after t (batch wishes)).Normalized := by
  induction wishes generalizing t with
  | nil => exact ht
  | cons a wishes ih => exact ih (a.normalized_run ht)

/-! ## Batches that are granted -/

/-- A batch that was granted holds every wish of it in the end. -/
theorem held_of_given {t : NameTable} (ht : t.Normalized) {wishes : List Wish}
    (h : ∀ answer ∈ answers t (batch wishes), ∃ code, answer = .given code) :
    ∀ a ∈ wishes, (after t (batch wishes)).codeName? a.1 a.2 = some a.code := by
  induction wishes generalizing t with
  | nil => simp
  | cons a wishes ih =>
    rw [batch_cons, answers_cons, List.forall_mem_cons] at h
    rw [batch_cons, after_cons, List.forall_mem_cons]
    refine ⟨?_, ih (a.normalized_run ht) h.2⟩
    obtain ⟨owner, -, -, -, -, he⟩ | ⟨-, hheld⟩ := a.run_cases ht
    · obtain ⟨code, hgiven⟩ := h.1
      rw [he] at hgiven
      cases hgiven
    · exact extends_after _ _ _ _ _ ((hheld _ _ _).mpr (.inr ⟨rfl, rfl⟩))

/-- Where no two wishes clash, each is granted and nothing else is held. The wishes before those of the
batch are what the table holds already. -/
theorem answers_clashfree {all wishes : List Wish} (hfree : Clashfree all)
    (hall : ∀ a ∈ wishes, a ∈ all) {t : NameTable} (ht : t.Normalized)
    (hheld : ∀ s w c, t.codeName? s w = some c → (s, w) ∈ all) :
    answers t (batch wishes) = wishes.map (fun a => .given a.code)
      ∧ ∀ s w c, (after t (batch wishes)).codeName? s w = some c
        ↔ t.codeName? s w = some c ∨ (s, w) ∈ wishes ∧ identifier s.kind w = c := by
  induction wishes generalizing t with
  | nil => exact ⟨rfl, by simp⟩
  | cons a wishes ih =>
    rw [List.forall_mem_cons] at hall
    obtain ⟨owner, hne, hcode, howner, -, -⟩ | ⟨hgiven, hnext⟩ := a.run_cases ht
    · -- the owner is a wish too
      exact absurd hcode (hfree _ (hheld _ _ _ howner) a hall.1 rfl hne)
    · have hheld' : ∀ s w c, (a.call.run t).2.codeName? s w = some c → (s, w) ∈ all := by
        intro s w c h
        obtain h | ⟨rfl, -⟩ := (hnext s w c).mp h
        · exact hheld s w c h
        · exact hall.1
      obtain ⟨hanswers, hafter⟩ := ih hall.2 (a.normalized_run ht) hheld'
      refine ⟨by rw [batch_cons, answers_cons, hgiven, hanswers, List.map_cons], fun s w c => ?_⟩
      rw [batch_cons, after_cons, hafter, hnext, List.mem_cons]
      constructor
      · rintro ((h | ⟨rfl, hc⟩) | ⟨hmem, hc⟩)
        · exact .inl h
        · exact .inr ⟨.inl rfl, hc⟩
        · exact .inr ⟨.inr hmem, hc⟩
      · rintro (h | ⟨rfl | hmem, hc⟩)
        · exact .inl (.inl h)
        · exact .inl (.inr ⟨rfl, hc⟩)
        · exact .inr ⟨hmem, hc⟩

theorem clashfree_iff_given (wishes : List Wish) :
    (∀ answer ∈ answers .empty (batch wishes), ∃ code, answer = .given code) ↔ Clashfree wishes := by
  constructor
  · intro h a ha b hb hscope hne hcode
    have hheld := held_of_given NameTable.normalized_empty h
    have htwo := (normalized_after NameTable.normalized_empty wishes).twoWay
    have hb' := hheld b hb
    rw [← hscope, ← hcode] at hb'
    exact hne (htwo.wire_unique (hheld a ha) hb')
  · intro h answer hanswer
    obtain ⟨hanswers, -⟩ :=
      answers_clashfree h (fun a ha => ha) NameTable.normalized_empty (by simp)
    rw [hanswers] at hanswer
    obtain ⟨a, -, rfl⟩ := List.mem_map.mp hanswer
    exact ⟨_, rfl⟩

/-! ## Tables with the same pairs -/

/-- Both look-ups hold the same pairs. -/
def NameTable.SamePairs (t u : NameTable) : Prop :=
  t.forward.Equiv u.forward ∧ t.reverse.Equiv u.reverse

theorem NameTable.samePairs_of_codeNames {t u : NameTable} (ht : t.TwoWay) (hu : u.TwoWay)
    (h : ∀ s w c, t.codeName? s w = some c ↔ u.codeName? s w = some c) : t.SamePairs u := by
  refine ⟨.of_forall_getElem?_eq fun p => ?_, .of_forall_getElem?_eq fun p => ?_⟩
  · exact Option.ext fun c => h p.1 p.2 c
  · exact Option.ext fun w => ((ht _ _ _).symm.trans (h _ _ _)).trans (hu _ _ _)

theorem Clashfree.perm {wishes wishes' : List Wish} (h : Clashfree wishes)
    (hperm : wishes.Perm wishes') : Clashfree wishes' := fun a ha b hb =>
  h a (hperm.mem_iff.mpr ha) b (hperm.mem_iff.mpr hb)

/-! ## Batches that are run again -/

/-- A table that has grown on from the one after a call answers the call alike, and is left as it is:
what was granted is known, and the owner for whom a wish was refused is still there. -/
theorem Wish.run_later {t u : NameTable} (ht : t.Normalized) (hu : u.Normalized) {a : Wish}
    (hext : (a.call.run t).2.Extends u) : a.call.run u = ((a.call.run t).1, u) := by
  obtain ⟨owner, hne, -, howner, -, he⟩ | ⟨hgiven, hheld⟩ := a.run_cases ht
  · rw [he] at hext ⊢
    have howner' := hext _ _ _ howner
    obtain ⟨owner', -, -, howned, -, he'⟩ | ⟨-, hheld'⟩ := a.run_cases hu
    · obtain rfl := hu.twoWay.wire_unique howner' howned
      exact he'
    · -- it would be held beside its owner
      have htwo := (a.normalized_run hu).twoWay
      have hself := (hheld' a.1 a.2 a.code).mpr (.inr ⟨rfl, rfl⟩)
      exact absurd (htwo.wire_unique ((hheld' _ _ _).mpr (.inl howner')) hself) hne
  · have hknown : u.codeName? a.1 a.2 = some a.code :=
      hext _ _ _ ((hheld _ _ _).mpr (.inr ⟨rfl, rfl⟩))
    have hrecord := NameTable.record_known a.code hknown
    rw [hgiven]
    show (Answer.ofRecord (u.record a.1 a.2 a.code).1, (u.record a.1 a.2 a.code).2) = _
    rw [hrecord]
    rfl

theorem replayed {t u : NameTable} (ht : t.Normalized) (hu : u.Normalized) {wishes : List Wish}
    (hext : (after t (batch wishes)).Extends u) :
    answers u (batch wishes) = answers t (batch wishes) ∧ after u (batch wishes) = u := by
  induction wishes generalizing t with
  | nil => exact ⟨rfl, rfl⟩
  | cons a wishes ih =>
    have hfirst : (a.call.run t).2.Extends u := (extends_after _ (batch wishes)).trans hext
    obtain ⟨hanswers, hafter⟩ := ih (a.normalized_run ht) hext
    have hrun := a.run_later ht hu hfirst
    rw [batch_cons, answers_cons, answers_cons, after_cons, hrun]
    exact ⟨by rw [hanswers], hafter⟩

/-- **The outcome of a batch.** Whatever wire names are normalized in whatever scopes on a fresh table:
all are granted exactly if different wire names of one scope ask for different code names. Then every
permutation of the batch is granted as well, each wire name gets the code name that it asks for, and
the tables at the end hold the same pairs. And in every case the same batch, run again on the table it
left, is answered call by call as before, collisions included, and leaves the table as it is. -/
theorem batch_outcome (wishes : List Wish) :
    ((∀ answer ∈ answers .empty (batch wishes), ∃ code, answer = .given code) ↔ Clashfree wishes)
    ∧ (Clashfree wishes → ∀ wishes', wishes.Perm wishes' →
      answers .empty (batch wishes') = wishes'.map (fun a => .given a.code)
      ∧ (after .empty (batch wishes)).SamePairs (after .empty (batch wishes')))
    ∧ answers (after .empty (batch wishes)) (batch wishes) = answers .empty (batch wishes)
    ∧ after (after .empty (batch wishes)) (batch wishes) = after .empty (batch wishes) := by
  have hempty := NameTable.normalized_empty
  have hend : ∀ wishes, (after .empty (batch wishes)).Normalized := normalized_after hempty
  refine ⟨clashfree_iff_given wishes, fun hfree wishes' hperm => ?_,
    replayed hempty (hend wishes) (.refl _)⟩
  obtain ⟨-, hheld⟩ := answers_clashfree hfree (fun a ha => ha) hempty (by simp)
  obtain ⟨hanswers, hheld'⟩ :=
    answers_clashfree (hfree.perm hperm) (fun a ha => ha) hempty (by simp)
  refine ⟨hanswers, NameTable.samePairs_of_codeNames (hend _).twoWay (hend _).twoWay fun s w c => ?_⟩
  rw [hheld, hheld', hperm.mem_iff]

/-- Two spellings of a field, with a field of another table between them. -/
def spellings : List Wish :=
  [(.fields "t", "a-b"), (.fields "u", "a_b"), (.fields "t", "A B")]

/-- The last one is refused for the first one, and refused again when the batch is run again; without
it the batch is granted in either order. -/
theorem batch_outcome_spellings :
    ¬(∀ answer ∈ answers .empty (batch spellings), ∃ code, answer = .given code)
      ∧ answers (after .empty (batch spellings)) (batch spellings)
        = answers .empty (batch spellings)
      ∧ Clashfree (spellings.take 2) ∧ (spellings.take 2).Perm (spellings.take 2).reverse
      ∧ answers .empty (batch (spellings.take 2).reverse) = [.given "a_b", .given "a_b"] := by
  have hclash : ¬Clashfree spellings := by
    intro h
    exact h (.fields "t", "a-b") (by decide) (.fields "t", "A B") (by decide) rfl (by decide)
      (by decide)
  have hfree : Clashfree (spellings.take 2) := by
    unfold Clashfree
    decide
  have hperm : (spellings.take 2).Perm (spellings.take 2).reverse := (List.reverse_perm _).symm
  obtain ⟨hgranted, -, hagain, -⟩ := batch_outcome spellings
  obtain ⟨-, horders, -⟩ := batch_outcome (spellings.take 2)
  refine ⟨fun h => hclash (hgranted.mp h), hagain, hfree, hperm, ?_⟩
  rw [(horders hfree _ hperm).1]
  decide

end RestForge.Naming
