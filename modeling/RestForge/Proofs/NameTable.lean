import Mathlib.Data.Finset.Card
import Mathlib.Data.Finset.Dedup
import RestForge.Naming.TypeNames

/-!
# Histories of a table of names

A table is used by three calls: a wire name is normalized, a type name is registered under a key,
and a code name is turned back. This file says what every sequence of such calls does to a table
that starts empty.

* `NameTable.add`: the table with one pair more; `record_cases`: everything that recording can do.
* `TwoWay`: the two look-ups are inverse to each other. `Extends`: no pair was lost or changed.
* `Call`, `after`, `granted`: calls, the table after a sequence of them, and the names that they
  were granted.
* `table_of_names_law`: the law of the table over all histories.
-/

set_option autoImplicit false

namespace RestForge.Naming

namespace NameTable

/-! ## One pair more -/

def add (t : NameTable) (scope : Scope) (wire code : String) : NameTable :=
  ⟨t.forward.insert (scope, wire) code, t.reverse.insert (scope, code) wire⟩

@[simp] theorem codeName?_empty (scope : Scope) (wire : String) :
    empty.codeName? scope wire = none := by
  simp [codeName?, empty]

@[simp] theorem wireName?_empty (scope : Scope) (code : String) :
    empty.wireName? scope code = none := by
  simp [wireName?, empty]

theorem codeName?_add (t : NameTable) (s s' : Scope) (w w' c : String) :
    (t.add s w c).codeName? s' w' = if s' = s ∧ w' = w then some c else t.codeName? s' w' := by
  simp only [codeName?, add, Std.HashMap.getElem?_insert, beq_iff_eq, Prod.mk.injEq]
  simp only [eq_comm]

theorem wireName?_add (t : NameTable) (s s' : Scope) (w c c' : String) :
    (t.add s w c).wireName? s' c' = if s' = s ∧ c' = c then some w else t.wireName? s' c' := by
  simp only [wireName?, add, Std.HashMap.getElem?_insert, beq_iff_eq, Prod.mk.injEq]
  simp only [eq_comm]

theorem size_add (t : NameTable) (s : Scope) (w c : String) (h : t.codeName? s w = none) :
    (t.add s w c).size = t.size + 1 := by
  have hnot : (s, w) ∉ t.forward := by
    rw [Std.HashMap.mem_iff_isSome_getElem?]
    have hnone : t.forward[(s, w)]? = none := h
    rw [hnone]
    simp
  simp [size, add, Std.HashMap.size_insert, hnot]

/-! ## Recording -/

theorem record_known {t : NameTable} {s : Scope} {w known : String} (c : String)
    (h : t.codeName? s w = some known) : t.record s w c = (.ok known, t) := by
  simp [record, h]

theorem record_owned {t : NameTable} {s : Scope} {w c owner : String}
    (hw : t.codeName? s w = none) (hc : t.wireName? s c = some owner) :
    t.record s w c = (.error ⟨s, c, owner, w⟩, t) := by
  simp [record, hw, hc]

theorem record_free {t : NameTable} {s : Scope} {w c : String}
    (hw : t.codeName? s w = none) (hc : t.wireName? s c = none) :
    t.record s w c = (.ok c, t.add s w c) := by
  simp [record, hw, hc, add]

/-- Recording finds the wire name known, or the code name owned, or adds the pair. -/
theorem record_cases (t : NameTable) (s : Scope) (w c : String) :
    (∃ known, t.codeName? s w = some known ∧ t.record s w c = (.ok known, t))
    ∨ (∃ owner, t.codeName? s w = none ∧ t.wireName? s c = some owner
        ∧ t.record s w c = (.error ⟨s, c, owner, w⟩, t))
    ∨ (t.codeName? s w = none ∧ t.wireName? s c = none
        ∧ t.record s w c = (.ok c, t.add s w c)) := by
  cases hw : t.codeName? s w with
  | some known => exact .inl ⟨known, rfl, record_known c hw⟩
  | none =>
    cases hc : t.wireName? s c with
    | some owner => exact .inr (.inl ⟨owner, rfl, rfl, record_owned hw hc⟩)
    | none => exact .inr (.inr ⟨rfl, rfl, record_free hw hc⟩)

/-! ## The two look-ups -/

/-- Looking a wire name up and turning a code name back are inverse to each other. -/
def TwoWay (t : NameTable) : Prop :=
  ∀ s w c, t.codeName? s w = some c ↔ t.wireName? s c = some w

theorem twoWay_empty : empty.TwoWay := by
  intro s w c
  simp

/-- The new pair has a new wire name and a new code name, so that neither side loses one. -/
theorem TwoWay.add {t : NameTable} (h : t.TwoWay) {s : Scope} {w c : String}
    (hw : t.codeName? s w = none) (hc : t.wireName? s c = none) : (t.add s w c).TwoWay := by
  intro s' w' c'
  rw [codeName?_add, wireName?_add]
  by_cases hs : s' = s
  · subst hs
    by_cases hw' : w' = w <;> by_cases hc' : c' = c
    · simp [hw', hc']
    · subst hw'
      have hne : t.wireName? s' c' ≠ some w' := fun he => by
        rw [← h s' w' c', hw] at he
        cases he
      simp [hc', hne, Ne.symm hc']
    · subst hc'
      have hne : t.codeName? s' w' ≠ some c' := fun he => by
        rw [h s' w' c', hc] at he
        cases he
      simp [hw', hne, Ne.symm hw']
    · simp [hw', hc', h s' w' c']
  · simp [hs, h s' w' c']

theorem TwoWay.record {t : NameTable} (h : t.TwoWay) (s : Scope) (w c : String) :
    (t.record s w c).2.TwoWay := by
  obtain ⟨known, -, he⟩ | ⟨owner, -, -, he⟩ | ⟨hw, hc, he⟩ := record_cases t s w c
  · rw [he]; exact h
  · rw [he]; exact h
  · rw [he]; exact h.add hw hc

theorem TwoWay.wire_unique {t : NameTable} (h : t.TwoWay) {s : Scope} {w₁ w₂ c : String}
    (h₁ : t.codeName? s w₁ = some c) (h₂ : t.codeName? s w₂ = some c) : w₁ = w₂ := by
  rw [h s w₁ c] at h₁
  rw [h s w₂ c, h₁] at h₂
  exact Option.some.inj h₂

/-! ## Growth -/

def Extends (t t' : NameTable) : Prop :=
  ∀ s w c, t.codeName? s w = some c → t'.codeName? s w = some c

theorem Extends.refl (t : NameTable) : t.Extends t := fun _ _ _ h => h

theorem Extends.trans {t₁ t₂ t₃ : NameTable} (h₁ : t₁.Extends t₂) (h₂ : t₂.Extends t₃) :
    t₁.Extends t₃ := fun s w c h => h₂ s w c (h₁ s w c h)

theorem extends_record (t : NameTable) (s : Scope) (w c : String) :
    t.Extends (t.record s w c).2 := by
  obtain ⟨known, -, he⟩ | ⟨owner, -, -, he⟩ | ⟨hw, -, he⟩ := record_cases t s w c
  · rw [he]; exact Extends.refl t
  · rw [he]; exact Extends.refl t
  · rw [he]
    intro s' w' c' h
    have hne : ¬ (s' = s ∧ w' = w) := by
      rintro ⟨rfl, rfl⟩
      rw [hw] at h
      cases h
    rw [codeName?_add, if_neg hne]
    exact h

theorem codeName?_of_record {t : NameTable} {s : Scope} {w c code : String}
    (h : (t.record s w c).1 = .ok code) : (t.record s w c).2.codeName? s w = some code := by
  obtain ⟨known, hk, he⟩ | ⟨owner, -, -, he⟩ | ⟨-, -, he⟩ := record_cases t s w c
  · rw [he] at h ⊢
    cases h
    exact hk
  · rw [he] at h
    cases h
  · rw [he] at h ⊢
    cases h
    simp [codeName?_add]

end NameTable

/-! ## Calls -/

inductive Call where
  | normalize (scope : Scope) (wire : String)
  | register (scope : Scope) (key name : String)
  | denormalize (scope : Scope) (code : String)
  deriving Repr, DecidableEq

/-- What a call is answered: a code name, a collision, or the wire name found, if any. -/
inductive Answer where
  | given (code : String)
  | refused (c : Collision)
  | found (wire : Option String)
  deriving Repr, DecidableEq

def Answer.ofRecord : Except Collision String → Answer
  | .ok code => given code
  | .error c => refused c

/-- A name that is asked for: the scope, the wire name or key, and the code name proposed for it. -/
structure NameRequest where
  scope : Scope
  wire : String
  code : String
  deriving Repr, DecidableEq

namespace Call

/-- The name that a call asks for; turning a name back asks for none. -/
def request? : Call → Option NameRequest
  | normalize scope wire => some ⟨scope, wire, identifier scope.kind wire⟩
  | register scope key name => some ⟨scope, key, name⟩
  | denormalize _ _ => none

def run (t : NameTable) : Call → Answer × NameTable
  | normalize scope wire => (.ofRecord (t.normalize scope wire).1, (t.normalize scope wire).2)
  | register scope key name =>
    (.ofRecord (Naming.register scope ⟨key, name⟩ t).1, (Naming.register scope ⟨key, name⟩ t).2)
  | denormalize scope code => (.found (t.wireName? scope code), t)

def granted? (t : NameTable) (call : Call) : Option (Scope × String) :=
  match call.request?, (call.run t).1 with
  | some r, .given _ => some (r.scope, r.wire)
  | _, _ => none

theorem run_eq (t : NameTable) (call : Call) :
    (∃ r, call.request? = some r ∧ call.run t
        = (.ofRecord (t.record r.scope r.wire r.code).1, (t.record r.scope r.wire r.code).2))
    ∨ (∃ scope code, call = denormalize scope code
        ∧ call.run t = (.found (t.wireName? scope code), t)) := by
  cases call with
  | normalize scope wire =>
    exact .inl ⟨⟨scope, wire, identifier scope.kind wire⟩, rfl, by simp only [run, NameTable.normalize]⟩
  | register scope key name =>
    exact .inl ⟨⟨scope, key, name⟩, rfl, by simp only [run, Naming.register]⟩
  | denormalize scope code => exact .inr ⟨scope, code, rfl, rfl⟩

theorem twoWay_run {t : NameTable} (h : t.TwoWay) (call : Call) : (call.run t).2.TwoWay := by
  obtain ⟨r, -, he⟩ | ⟨scope, code, -, he⟩ := run_eq t call
  · rw [he]; exact h.record r.scope r.wire r.code
  · rw [he]; exact h

theorem extends_run (t : NameTable) (call : Call) : t.Extends (call.run t).2 := by
  obtain ⟨r, -, he⟩ | ⟨scope, code, -, he⟩ := run_eq t call
  · rw [he]; exact t.extends_record r.scope r.wire r.code
  · rw [he]; exact .refl t

/-- A refused call changes nothing and names the owner of the code name it asked for. -/
theorem run_refused {t : NameTable} {call : Call} {c : Collision}
    (h : (call.run t).1 = .refused c) :
    (call.run t).2 = t ∧ t.wireName? c.scope c.codeName = some c.existing
      ∧ t.codeName? c.scope c.incoming = none
      ∧ call.request? = some ⟨c.scope, c.incoming, c.codeName⟩ := by
  obtain ⟨r, hr, he⟩ | ⟨scope, code, -, he⟩ := run_eq t call
  · rw [he] at h ⊢
    obtain ⟨known, -, hk⟩ | ⟨owner, hw, ho, hk⟩ | ⟨-, -, hk⟩ :=
      t.record_cases r.scope r.wire r.code
    · rw [hk] at h
      cases h
    · rw [hk] at h ⊢
      cases h
      exact ⟨rfl, ho, hw, hr⟩
    · rw [hk] at h
      cases h
  · rw [he] at h
    cases h

/-- Either the table stays, and a name that is granted was known, or it grows by the name that is
granted. -/
theorem run_grows (t : NameTable) (call : Call) :
    ((call.run t).2 = t ∧ ∀ p, call.granted? t = some p → (t.codeName? p.1 p.2).isSome)
    ∨ (∃ s w c, call.granted? t = some (s, w) ∧ t.codeName? s w = none
        ∧ (call.run t).2 = t.add s w c) := by
  obtain ⟨r, hr, he⟩ | ⟨scope, code, rfl, he⟩ := run_eq t call
  · obtain ⟨known, hw, hk⟩ | ⟨owner, -, -, hk⟩ | ⟨hw, -, hk⟩ :=
      t.record_cases r.scope r.wire r.code
    · refine .inl ⟨by rw [he, hk], fun p hp => ?_⟩
      simp only [granted?, hr, he, hk, Answer.ofRecord, Option.some.injEq] at hp
      subst hp
      simp [hw]
    · refine .inl ⟨by rw [he, hk], fun p hp => ?_⟩
      simp [granted?, hr, he, hk, Answer.ofRecord] at hp
    · exact .inr ⟨r.scope, r.wire, r.code, by simp [granted?, hr, he, hk, Answer.ofRecord], hw,
        by rw [he, hk]⟩
  · exact .inl ⟨by rw [he], fun p hp => by simp [granted?, request?] at hp⟩

theorem codeName?_of_given {t : NameTable} {call : Call} {r : NameRequest} {c : String}
    (hr : call.request? = some r) (h : (call.run t).1 = .given c) :
    (call.run t).2.codeName? r.scope r.wire = some c := by
  obtain ⟨r', hr', he⟩ | ⟨scope, code, rfl, -⟩ := run_eq t call
  · rw [hr] at hr'
    cases hr'
    rw [he] at h ⊢
    have hok : (t.record r.scope r.wire r.code).1 = .ok c := by
      cases hrec : (t.record r.scope r.wire r.code).1 with
      | ok code =>
        rw [hrec] at h
        cases h
        rfl
      | error e =>
        rw [hrec] at h
        cases h
    exact t.codeName?_of_record hok
  · cases hr

theorem given_of_codeName? {t : NameTable} {call : Call} {r : NameRequest} {c : String}
    (hr : call.request? = some r) (h : t.codeName? r.scope r.wire = some c) :
    (call.run t).1 = .given c := by
  obtain ⟨r', hr', he⟩ | ⟨scope, code, rfl, -⟩ := run_eq t call
  · rw [hr] at hr'
    cases hr'
    rw [he, NameTable.record_known r.code h]
    rfl
  · cases hr

end Call

/-! ## Histories -/

def after (t : NameTable) (calls : List Call) : NameTable :=
  calls.foldl (fun t call => (call.run t).2) t

def granted : NameTable → List Call → List (Scope × String)
  | _, [] => []
  | t, call :: calls => (call.granted? t).toList ++ granted (call.run t).2 calls

@[simp] theorem after_nil (t : NameTable) : after t [] = t := rfl

@[simp] theorem after_cons (t : NameTable) (call : Call) (calls : List Call) :
    after t (call :: calls) = after (call.run t).2 calls := rfl

theorem after_append (t : NameTable) (calls later : List Call) :
    after t (calls ++ later) = after (after t calls) later := by
  simp [after, List.foldl_append]

theorem granted_append (t : NameTable) (calls later : List Call) :
    granted t (calls ++ later) = granted t calls ++ granted (after t calls) later := by
  induction calls generalizing t with
  | nil => simp [granted]
  | cons call calls ih => simp [granted, ih]

theorem twoWay_after {t : NameTable} (h : t.TwoWay) (calls : List Call) :
    (after t calls).TwoWay := by
  induction calls generalizing t with
  | nil => exact h
  | cons call calls ih => exact ih (Call.twoWay_run h call)

theorem extends_after (t : NameTable) (calls : List Call) : t.Extends (after t calls) := by
  induction calls generalizing t with
  | nil => exact .refl t
  | cons call calls ih => exact (Call.extends_run t call).trans (ih _)

theorem granted_iff_known (calls : List Call) (p : Scope × String) :
    p ∈ granted .empty calls ↔ ((after .empty calls).codeName? p.1 p.2).isSome := by
  induction calls using List.reverseRecOn with
  | nil => simp [granted]
  | append_singleton calls call ih =>
    simp only [after_append, granted_append, after_cons, after_nil, granted, List.append_nil,
      List.mem_append, Option.mem_toList, ih]
    obtain ⟨he, hknown⟩ | ⟨s, w, c, hg, -, he⟩ := Call.run_grows (after .empty calls) call
    · rw [he]
      exact ⟨fun h => h.elim id (hknown p), .inl⟩
    · rw [he, hg, NameTable.codeName?_add]
      by_cases hp : p.1 = s ∧ p.2 = w
      · simp [← hp.1, ← hp.2]
      · have hne : ¬ (s, w) = p := fun h => hp (by rw [← h]; exact ⟨rfl, rfl⟩)
        simp [hp, hne]

theorem size_after (calls : List Call) :
    (after .empty calls).size = (granted .empty calls).toFinset.card := by
  induction calls using List.reverseRecOn with
  | nil => simp [granted, NameTable.size, NameTable.empty]
  | append_singleton calls call ih =>
    have hmem := granted_iff_known calls
    simp only [after_append, granted_append, after_cons, after_nil, granted, List.append_nil,
      List.toFinset_append]
    obtain ⟨he, hknown⟩ | ⟨s, w, c, hg, hw, he⟩ := Call.run_grows (after .empty calls) call
    · have hsub : (call.granted? (after .empty calls)).toList.toFinset
          ⊆ (granted .empty calls).toFinset := fun p hp => by
        simp only [List.mem_toFinset, Option.mem_toList] at hp ⊢
        exact (hmem p).mpr (hknown p hp)
      rw [he, Finset.union_eq_left.mpr hsub, ih]
    · have hnew : (s, w) ∉ (granted .empty calls).toFinset := by
        rw [List.mem_toFinset, hmem (s, w), hw]
        simp
      rw [he, hg, NameTable.size_add _ _ _ _ hw, ih, Option.toList_some, List.toFinset_cons,
        List.toFinset_nil, Finset.union_comm, Finset.insert_union, Finset.empty_union,
        Finset.card_insert_of_notMem hnew]

/-- **The law of a table of names.** After every sequence of calls on a table that starts empty,
the two look-ups are inverse to each other; a refused call changes nothing and names the owner; what
is recorded stays; the size counts the different names granted; and a name once given is turned back
to its wire name, and given again, at every later point. -/
theorem table_of_names_law (calls : List Call) :
    (∀ s w c, (after .empty calls).codeName? s w = some c
      ↔ (after .empty calls).wireName? s c = some w)
    ∧ (∀ (call : Call) (c : Collision), (call.run (after .empty calls)).1 = .refused c →
      (call.run (after .empty calls)).2 = after .empty calls
      ∧ call.request? = some ⟨c.scope, c.incoming, c.codeName⟩
      ∧ (after .empty calls).wireName? c.scope c.codeName = some c.existing)
    ∧ (∀ later s w c, (after .empty calls).codeName? s w = some c →
      (after .empty (calls ++ later)).codeName? s w = some c
      ∧ (after .empty (calls ++ later)).wireName? s c = some w)
    ∧ (after .empty calls).size = (granted .empty calls).toFinset.card
    ∧ (∀ (call : Call) r c later, call.request? = some r →
      (call.run (after .empty calls)).1 = .given c →
      ((Call.denormalize r.scope c).run (after .empty (calls ++ call :: later))).1
        = .found (some r.wire)
      ∧ (call.run (after .empty (calls ++ call :: later))).1 = .given c)
    ∧ ∀ s w₁ w₂ c, (after .empty calls).codeName? s w₁ = some c →
      (after .empty calls).codeName? s w₂ = some c → w₁ = w₂ := by
  have hway : ∀ calls, (after .empty calls).TwoWay := twoWay_after NameTable.twoWay_empty
  refine ⟨hway calls, fun call c h => ?_, fun later s w c h => ?_, size_after calls,
    fun call r c later hr h => ?_, fun s w₁ w₂ c => (hway calls).wire_unique⟩
  · obtain ⟨hsame, howner, -, hr⟩ := Call.run_refused h
    exact ⟨hsame, hr, howner⟩
  · have hlater := extends_after (after .empty calls) later s w c h
    rw [← after_append] at hlater
    exact ⟨hlater, (hway _ s w c).mp hlater⟩
  · have hgiven := Call.codeName?_of_given hr h
    have hlater := extends_after _ later _ _ _ hgiven
    rw [← after_cons, ← after_append] at hlater
    refine ⟨?_, Call.given_of_codeName? hr hlater⟩
    exact congrArg Answer.found ((hway _ _ _ _).mp hlater)

/-- A second spelling of a field is refused, and its owner is named. -/
theorem table_of_names_second_spelling :
    ((Call.normalize (.fields "t") "a_b").run (after .empty [.normalize (.fields "t") "a-b"])).1
        = .refused ⟨.fields "t", "a_b", "a-b", "a_b"⟩
      ∧ (after .empty [.normalize (.fields "t") "a-b"]).wireName? (.fields "t") "a_b"
        = some "a-b" := by
  have hfirst : identifier (Scope.fields "t").kind "a-b" = "a_b" := by decide
  have hsecond : identifier (Scope.fields "t").kind "a_b" = "a_b" := by decide
  have hfree : NameTable.empty.record (.fields "t") "a-b" "a_b"
      = (.ok "a_b", NameTable.empty.add (.fields "t") "a-b" "a_b") :=
    NameTable.record_free (by simp) (by simp)
  have hrefused : ((Call.normalize (.fields "t") "a_b").run
      (after .empty [.normalize (.fields "t") "a-b"])).1
        = .refused ⟨.fields "t", "a_b", "a-b", "a_b"⟩ := by
    have hnew : (NameTable.empty.add (.fields "t") "a-b" "a_b").codeName? (.fields "t") "a_b"
        = none := by
      simp [NameTable.codeName?_add]
    have howned : (NameTable.empty.add (.fields "t") "a-b" "a_b").wireName? (.fields "t") "a_b"
        = some "a-b" := by
      simp [NameTable.wireName?_add]
    simp only [after_cons, after_nil, Call.run, NameTable.normalize, hfirst, hsecond, hfree]
    rw [NameTable.record_owned hnew howned]
    rfl
  exact ⟨hrefused, ((table_of_names_law _).2.1 _ _ hrefused).2.2⟩

end RestForge.Naming
