import RestForge.Proofs.NameTable

/-!
# Tables of names in a run

A run gives names only by reading documents and by resolving type names, and both are actions on one
table. This file says which tables they lead to.

* `bind_ok`, `lift_bind_ok`, `pure_ok`: what a successful action did; `ok_bind`: how one goes on.
* `NameTable.Sound`: the two look-ups are inverse, and every module and field has the code name
  that its wire name asks for.
* `Keeps`: an action only adds names to a sound table, whether or not it succeeds.
-/

set_option autoImplicit false

namespace RestForge.Naming

/-- An action on the table of names that may fail; names given before a failure stay given. -/
abbrev Action (ε α : Type) := ExceptT ε (StateM NameTable) α

variable {ε α β : Type}

/-! ## Successful actions -/

theorem bind_apply (act : Action ε α) (f : α → Action ε β) (t : NameTable) :
    (act >>= f) t = match act t with
      | (.ok x, t') => f x t'
      | (.error e, t') => (.error e, t') := by
  have h : (act >>= f) t = (ExceptT.bindCont f (act t).1 : StateM NameTable _) (act t).2 := rfl
  rw [h]
  rcases act t with ⟨_ | _, t'⟩ <;> rfl

theorem bind_ok {act : Action ε α} {f : α → Action ε β} {t t' : NameTable} {y : β}
    (h : (act >>= f) t = (.ok y, t')) :
    ∃ x t₁, act t = (.ok x, t₁) ∧ f x t₁ = (.ok y, t') := by
  rw [bind_apply] at h
  rcases hact : act t with ⟨e | x, t₁⟩
  · rw [hact] at h
    cases h
  · rw [hact] at h
    exact ⟨x, t₁, rfl, h⟩

theorem lift_bind_ok {e : Except ε α} {f : α → Action ε β} {t t' : NameTable} {y : β}
    (h : ((liftM e : Action ε α) >>= f) t = (.ok y, t')) :
    ∃ x, e = .ok x ∧ f x t = (.ok y, t') := by
  obtain ⟨x, t₁, hlift, hrest⟩ := bind_ok h
  have he : (e, t) = (.ok x, t₁) := hlift
  cases he
  exact ⟨x, rfl, hrest⟩

theorem pure_ok {t t' : NameTable} {x y : α} (h : (pure x : Action ε α) t = (.ok y, t')) :
    y = x ∧ t' = t := by
  have he : ((.ok x : Except ε α), t) = (.ok y, t') := h
  cases he
  exact ⟨rfl, rfl⟩

theorem map_ok {act : Action ε α} {f : α → β} {t t' : NameTable} {y : β}
    (h : (f <$> act) t = (.ok y, t')) : ∃ x, act t = (.ok x, t') ∧ y = f x := by
  obtain ⟨x, t₁, hact, hpure⟩ := bind_ok h
  obtain ⟨rfl, rfl⟩ := pure_ok hpure
  exact ⟨x, hact, rfl⟩

/-- A first step that succeeded can be run on its own. -/
theorem ok_bind {act : Action ε α} {f : α → Action ε β} {t t₁ : NameTable} {x : α}
    (h : act t = (.ok x, t₁)) : (act >>= f) t = f x t₁ := by
  rw [bind_apply, h]

theorem error_bind {act : Action ε α} {f : α → Action ε β} {t t₁ : NameTable} {e : ε}
    (h : act t = (.error e, t₁)) : (act >>= f) t = (.error e, t₁) := by
  rw [bind_apply, h]

theorem lift_ok_bind {e : Except ε α} {f : α → Action ε β} {t : NameTable} {x : α}
    (h : e = .ok x) : ((liftM e : Action ε α) >>= f) t = f x t := by
  rw [h]
  exact ok_bind rfl

theorem ok_map {act : Action ε α} {f : α → β} {t t₁ : NameTable} {x : α}
    (h : act t = (.ok x, t₁)) : (f <$> act) t = (.ok (f x), t₁) := by
  refine (ok_bind h).trans ?_
  rfl

theorem throw_not_ok {e : ε} {t t' : NameTable} {x : α} :
    (throw e : Action ε α) t ≠ (.ok x, t') := by
  intro h
  have he : ((.error e : Except ε α), t) = (.ok x, t') := h
  cases he

theorem throw_bind_not_ok {e : ε} {f : α → Action ε β} {t t' : NameTable} {y : β} :
    ((throw e : Action ε α) >>= f) t ≠ (.ok y, t') := by
  intro h
  obtain ⟨x, t₁, hthrow, -⟩ := bind_ok h
  exact throw_not_ok hthrow

/-! ## Sound tables -/

namespace NameTable

structure Sound (t : NameTable) : Prop where
  twoWay : t.TwoWay
  spelled : ∀ s w c, s.kind ≠ .types → t.codeName? s w = some c → c = identifier s.kind w

theorem sound_empty : empty.Sound := ⟨twoWay_empty, fun s w c _ h => by simp at h⟩

/-- A name may be recorded if it is the name of a type or the identifier of its wire name. -/
theorem Sound.record {t : NameTable} (h : t.Sound) {s : Scope} {w c : String}
    (hc : s.kind ≠ .types → c = identifier s.kind w) : (t.record s w c).2.Sound := by
  refine ⟨h.twoWay.record s w c, fun s' w' c' hkind hname => ?_⟩
  obtain ⟨known, -, he⟩ | ⟨owner, -, -, he⟩ | ⟨-, -, he⟩ := record_cases t s w c
  · rw [he] at hname
    exact h.spelled s' w' c' hkind hname
  · rw [he] at hname
    exact h.spelled s' w' c' hkind hname
  · rw [he, codeName?_add] at hname
    by_cases hnew : s' = s ∧ w' = w
    · rw [if_pos hnew] at hname
      obtain ⟨rfl, rfl⟩ := hnew
      cases hname
      exact hc hkind
    · rw [if_neg hnew] at hname
      exact h.spelled s' w' c' hkind hname

end NameTable

/-! ## Actions that keep tables sound -/

def Keeps (act : Action ε α) : Prop := ∀ t, t.Sound → t.Extends (act t).2 ∧ (act t).2.Sound

theorem keeps_of_same {act : Action ε α} (h : ∀ t, (act t).2 = t) : Keeps act := by
  intro t ht
  rw [h t]
  exact ⟨.refl t, ht⟩

theorem Keeps.of_eq {act : Action ε α} (hact : Keeps act) {t t' : NameTable} {r : Except ε α}
    (ht : t.Sound) (h : act t = (r, t')) : t.Extends t' ∧ t'.Sound := by
  have hkeeps := hact t ht
  rwa [h] at hkeeps

theorem keeps_pure (x : α) : Keeps (pure x : Action ε α) := keeps_of_same fun _ => rfl

theorem keeps_throw (e : ε) : Keeps (throw e : Action ε α) := keeps_of_same fun _ => rfl

theorem keeps_lift (e : Except ε α) : Keeps (liftM e : Action ε α) := keeps_of_same fun _ => rfl

theorem keeps_bind {act : Action ε α} {f : α → Action ε β} (hact : Keeps act)
    (hf : ∀ x, Keeps (f x)) : Keeps (act >>= f) := by
  intro t ht
  obtain ⟨hext, hsound⟩ := hact t ht
  rw [bind_apply]
  rcases he : act t with ⟨e | x, t₁⟩
  · rw [he] at hext hsound
    exact ⟨hext, hsound⟩
  · rw [he] at hext hsound
    obtain ⟨hext', hsound'⟩ := hf x t₁ hsound
    exact ⟨hext.trans hext', hsound'⟩

theorem keeps_map {act : Action ε α} (f : α → β) (hact : Keeps act) : Keeps (f <$> act) :=
  keeps_bind hact fun x => keeps_pure (f x)

theorem keeps_mapM {act : α → Action ε β} (hact : ∀ x, Keeps (act x)) (xs : List α) :
    Keeps (xs.mapM act) := by
  induction xs with
  | nil => exact keeps_pure []
  | cons x xs ih =>
    rw [List.mapM_cons]
    exact keeps_bind (hact x) fun y => keeps_bind ih fun ys => keeps_pure (y :: ys)

/-! ## Type names -/

theorem keeps_register (resource : String) (r : Registration) :
    Keeps (register (Scope.types resource) r) := by
  intro t ht
  exact ⟨t.extends_record _ _ _, ht.record fun hkind => absurd rfl hkind⟩

theorem keeps_resolve (r : Resource) : Keeps (resolve r) := by
  unfold resolve
  refine keeps_bind (keeps_mapM (fun p => ?_) r.tables) fun pairs => keeps_pure _
  unfold resolveTable
  refine keeps_bind (keeps_register _ _) fun model => ?_
  exact keeps_bind (keeps_register _ _) fun client => keeps_pure _

end RestForge.Naming
