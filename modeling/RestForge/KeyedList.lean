/-!
# Values by key

Pairs of a key and a value in increasing order of the keys, each key once.

* `alter`, `insert`, `ofList`: a value by key is changed or put in its place.
* `get?`: look-up; `get?_insert` says what it finds after a change.
* `Sorted`: the order of the keys.
-/

set_option autoImplicit false

namespace RestForge.KeyedList

variable {κ α : Type} [DecidableEq κ] [LT κ] [DecidableLT κ]

def get? (l : List (κ × α)) (key : κ) : Option α := l.lookup key

/-- Changes the value of a key; `f none` is the value of a key that is new. -/
def alter (key : κ) (f : Option α → α) : List (κ × α) → List (κ × α)
  | [] => [(key, f none)]
  | (k, v) :: rest =>
    if key = k then (k, f (some v)) :: rest
    else if key < k then (key, f none) :: (k, v) :: rest
    else (k, v) :: alter key f rest

/-- A later value for a key replaces the earlier one. -/
def insert (key : κ) (value : α) (l : List (κ × α)) : List (κ × α) := alter key (fun _ => value) l

def ofList (pairs : List (κ × α)) : List (κ × α) := pairs.foldl (fun l p => insert p.1 p.2 l) []

/-- Keys in strictly increasing order. -/
def Sorted (l : List (κ × α)) : Prop := l.Pairwise fun a b => a.1 < b.1

/-! ## Look-up after a change -/

omit [LT κ] [DecidableLT κ] in
@[simp] theorem get?_nil (key : κ) : get? ([] : List (κ × α)) key = none := rfl

omit [LT κ] [DecidableLT κ] in
theorem get?_cons (l : List (κ × α)) (key k : κ) (v : α) :
    get? ((k, v) :: l) key = if key = k then some v else get? l key := by
  by_cases h : key = k
  · simp [get?, h]
  · have hb : (key == k) = false := by simp [h]
    simp [get?, List.lookup_cons, hb, h]

theorem get?_alter_of_ne (l : List (κ × α)) (key other : κ) (f : Option α → α) (h : other ≠ key) :
    get? (alter key f l) other = get? l other := by
  induction l with
  | nil => simp [alter, get?_cons, h]
  | cons p l ih =>
    obtain ⟨k, v⟩ := p
    by_cases hk : key = k
    · subst hk
      simp [alter, get?_cons, h]
    · by_cases hlt : key < k <;> simp [alter, hk, hlt, get?_cons, h, ih]

theorem get?_insert_self (l : List (κ × α)) (key : κ) (value : α) :
    get? (insert key value l) key = some value := by
  unfold insert
  induction l with
  | nil => simp [alter, get?_cons]
  | cons p l ih =>
    obtain ⟨k, v⟩ := p
    by_cases hk : key = k
    · simp [alter, hk, get?_cons]
    · by_cases hlt : key < k <;> simp [alter, hk, hlt, get?_cons, ih]

theorem get?_insert (l : List (κ × α)) (key other : κ) (value : α) :
    get? (insert key value l) other = if other = key then some value else get? l other := by
  by_cases h : other = key
  · simp [h, get?_insert_self]
  · rw [insert, get?_alter_of_ne l key other _ h, if_neg h]

end RestForge.KeyedList
