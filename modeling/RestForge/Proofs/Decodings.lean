import RestForge.Proofs.RecordViews
import RestForge.Rest.Response

/-!
# Reading one object and reading a collection

A client reads an answer as one object or as a collection, depending on the table. Both readings see
the same objects in a payload.

* `objectsOf`: the objects that a payload holds; `decodeMany_eq`, `decodeOne_eq`: all of them are read,
  or the first.
* `exists_of_mapM_error`: what stopped a reading of many.
* `readings`: the ways in which the two readings of one answer end.
* `decodings_agree`: what each of the readings tells of the other.
-/

set_option autoImplicit false

namespace RestForge.Rest

/-! ## Reading many -/

theorem decoded_eq_ok {α : Type} {x : Except DecodeError α} {v : α} :
    decoded x = .ok v ↔ x = .ok v := by
  cases x <;> simp [decoded, Except.mapError]

theorem mapM_cons_eq {ε α β : Type} (f : α → Except ε β) (x : α) (xs : List α) :
    (x :: xs).mapM f = match f x with
      | .error e => .error e
      | .ok v => (xs.mapM f).map (v :: ·) := by
  rw [List.mapM_cons]
  cases f x with
  | error e => rfl
  | ok v => cases xs.mapM f <;> rfl

/-- A reading of many stops at the first item that cannot be read. -/
theorem exists_of_mapM_error {ε α β : Type} {f : α → Except ε β} {xs : List α} {e : ε}
    (h : xs.mapM f = .error e) :
    ∃ before x after, xs = before ++ x :: after ∧ f x = .error e
      ∧ ∀ y ∈ before, ∃ v, f y = .ok v := by
  induction xs with
  | nil => cases h
  | cons x xs ih =>
    rw [mapM_cons_eq] at h
    cases hx : f x with
    | error d =>
      rw [hx] at h
      cases h
      exact ⟨[], x, xs, rfl, hx, by simp⟩
    | ok v =>
      rw [hx] at h
      cases hxs : xs.mapM f with
      | error d =>
        rw [hxs] at h
        cases h
        obtain ⟨before, y, after, rfl, hy, hbefore⟩ := ih hxs
        exact ⟨x :: before, y, after, rfl, hy, List.forall_mem_cons.mpr ⟨⟨v, hx⟩, hbefore⟩⟩
      | ok vs =>
        rw [hxs] at h
        cases h

/-! ## The objects of a payload -/

/-- The items of a list, a lone object, or nothing; any other payload holds no objects. -/
def objectsOf : Json → Option (List Json)
  | .array items => some items
  | .object members => some [.object members]
  | .null => some []
  | _ => none

section Readings

variable {m : ModelShape} {r : Response} {path : String}

theorem checked_error (h : r.status = .error) :
    r.checked = .error (.api r.httpStatus r.failureText) := by
  rw [Response.checked, Response.isSuccess, h]
  rfl

theorem decodeMany_error (h : r.status = .error) :
    decodeMany m r = .error (.api r.httpStatus r.failureText) := by
  rw [decodeMany, checked_error h]
  rfl

theorem decodeOne_error (h : r.status = .error) :
    decodeOne m r path = .error (.api r.httpStatus r.failureText) := by
  rw [decodeOne, checked_error h]
  rfl

/-- All objects of the payload are read. -/
theorem decodeMany_eq (h : r.status = .success) : decodeMany m r = match objectsOf r.results with
    | some items => decoded (items.mapM m.read)
    | none => .error (.decode (.wrongShape "array" r.results.compact)) := by
  obtain ⟨status, httpStatus, results, message⟩ := r
  obtain rfl : status = .success := h
  rcases results with _ | _ | _ | _ | _ | members <;> try rfl
  have hone : [Json.object members].mapM m.read
      = (m.read (.object members)).map fun v => [v] := by
    rw [mapM_cons_eq]
    cases m.read (.object members) <;> rfl
  show (decoded (m.read (.object members)) >>= fun v => pure [v])
    = decoded ([Json.object members].mapM m.read)
  rw [hone]
  cases m.read (.object members) <;> rfl

/-- Of the objects of the payload the first is read. -/
theorem decodeOne_eq (h : r.status = .success) : decodeOne m r path = match objectsOf r.results with
    | some [] => .error (.notFound path)
    | some (item :: _) => decoded (m.read item)
    | none => .error (.decode (.wrongShape "object" r.results.compact)) := by
  obtain ⟨status, httpStatus, results, message⟩ := r
  obtain rfl : status = .success := h
  rcases results with _ | _ | _ | _ | (_ | ⟨item, items⟩) | members <;> rfl

end Readings

/-! ## Both readings -/

/-- How the two readings of an answer can end. -/
inductive Readings (m : ModelShape) (r : Response) (path : String) : Prop where
  | failed (hstatus : r.status = .error)
      (hmany : decodeMany m r = .error (.api r.httpStatus r.failureText))
      (hone : decodeOne m r path = .error (.api r.httpStatus r.failureText))
  | nothing (hstatus : r.status = .success) (hmany : decodeMany m r = .ok [])
      (hone : decodeOne m r path = .error (.notFound path))
  | unread (hstatus : r.status = .success) (e e' : DecodeError)
      (hmany : decodeMany m r = .error (.decode e)) (hone : decodeOne m r path = .error (.decode e'))
  | stopped (hstatus : r.status = .success) (item later : Json) (before after : List Json)
      (v : ModelValue) (e : DecodeError)
      (hresults : r.results = .array (item :: before ++ later :: after))
      (hbefore : ∀ j ∈ item :: before, ∃ v, m.read j = .ok v) (hlater : m.read later = .error e)
      (hmany : decodeMany m r = .error (.decode e)) (hone : decodeOne m r path = .ok v)
  | all (hstatus : r.status = .success) (v : ModelValue) (vs : List ModelValue)
      (hmany : decodeMany m r = .ok (v :: vs)) (hone : decodeOne m r path = .ok v)

/-- Only a list holds more than one object. -/
theorem results_of_objects {results item : Json} {items : List Json}
    (h : objectsOf results = some (item :: items)) (hsome : items ≠ []) :
    results = .array (item :: items) := by
  cases results with
  | array => rw [Option.some.inj h]
  | object => exact absurd (List.cons.inj (Option.some.inj h)).2.symm hsome
  | null | bool | number | string => cases h

theorem readings (m : ModelShape) (r : Response) (path : String) : Readings m r path := by
  cases hstatus : r.status with
  | error => exact .failed hstatus (decodeMany_error hstatus) (decodeOne_error hstatus)
  | success =>
    have hmany : decodeMany m r = _ := decodeMany_eq hstatus
    have hone : decodeOne m r path = _ := decodeOne_eq hstatus
    rcases hobjects : objectsOf r.results with _ | (_ | ⟨item, items⟩) <;>
      rw [hobjects] at hmany hone
    · exact .unread hstatus _ _ hmany hone
    · exact .nothing hstatus hmany hone
    · dsimp only at hmany hone
      rw [mapM_cons_eq] at hmany
      cases hitem : m.read item with
      | error e =>
        rw [hitem] at hmany hone
        exact .unread hstatus e e hmany hone
      | ok v =>
        rw [hitem] at hmany hone
        cases hitems : items.mapM m.read with
        | ok vs =>
          rw [hitems] at hmany
          exact .all hstatus v vs hmany hone
        | error e =>
          rw [hitems] at hmany
          obtain ⟨before, later, after, rfl, hlater, hbefore⟩ := exists_of_mapM_error hitems
          exact .stopped hstatus item later before after v e
            (results_of_objects hobjects (by simp))
            (List.forall_mem_cons.mpr ⟨⟨v, hitem⟩, hbefore⟩) hlater hmany hone

/-- What the two readings of an answer tell of each other. -/
structure DecodingsAgree (m : ModelShape) (r : Response) (path : String) : Prop where
  /-- A failure is the same error for both, with its message or the text that stands for one. -/
  failed : r.status = .error → ∃ text,
    text = r.message.getD s!"request failed with HTTP {r.httpStatus}"
      ∧ decodeMany m r = .error (.api r.httpStatus text)
      ∧ decodeOne m r path = .error (.api r.httpStatus text)
  absent : decodeOne m r path = .error (.notFound path) ↔ decodeMany m r = .ok []
  first : ∀ v vs, decodeMany m r = .ok (v :: vs) → decodeOne m r path = .ok v
  /-- Only an item behind the first can keep a collection from being read whose first item is read. -/
  one : ∀ v, decodeOne m r path = .ok v → (∃ vs, decodeMany m r = .ok (v :: vs))
    ∨ ∃ item before later after e, r.results = .array (item :: before ++ later :: after)
      ∧ (∀ j ∈ item :: before, ∃ v, m.read j = .ok v) ∧ m.read later = .error e
      ∧ decodeMany m r = .error (.decode e)
  faulty : ∀ e, decodeOne m r path = .error (.decode e) → ∃ e', decodeMany m r = .error (.decode e')
  /-- The models of a list are those of its items, in order. -/
  items : ∀ items vs, r.results = .array items → decodeMany m r = .ok vs →
    List.Forall₂ (fun item v => m.read item = .ok v) items vs

theorem items_of_decodeMany {m : ModelShape} {r : Response} {items : List Json}
    {vs : List ModelValue} (hresults : r.results = .array items) (h : decodeMany m r = .ok vs) :
    List.Forall₂ (fun item v => m.read item = .ok v) items vs := by
  cases hstatus : r.status with
  | error =>
    rw [decodeMany_error hstatus] at h
    cases h
  | success =>
    rw [decodeMany_eq hstatus, hresults] at h
    exact mapM_ok_iff.mp (decoded_eq_ok.mp h)

/-- An answer is one object just when it is a collection that begins with this object, as far as its
items can be read; both readings find nothing in the same answers, and fail alike. -/
theorem decodings_agree (m : ModelShape) (r : Response) (path : String) :
    DecodingsAgree m r path := by
  have hitems : ∀ items vs, r.results = .array items → decodeMany m r = .ok vs →
      List.Forall₂ (fun item v => m.read item = .ok v) items vs := fun _ _ => items_of_decodeMany
  cases readings m r path with
  | failed hstatus hmany hone =>
    refine ⟨fun _ => ⟨_, rfl, hmany, hone⟩, ?_, ?_, ?_, ?_, hitems⟩ <;> simp [hmany, hone]
  | nothing hstatus hmany hone =>
    refine ⟨?_, ?_, ?_, ?_, ?_, hitems⟩ <;> simp [hstatus, hmany, hone]
  | unread hstatus e e' hmany hone =>
    refine ⟨?_, ?_, ?_, ?_, ?_, hitems⟩ <;> simp [hstatus, hmany, hone]
  | stopped hstatus item later before after v e hresults hbefore hlater hmany hone =>
    refine ⟨?_, ?_, ?_, fun _ _ => .inr ⟨item, before, later, after, e, hresults, hbefore, hlater,
      hmany⟩, ?_, hitems⟩ <;> simp [hstatus, hmany, hone]
  | all hstatus v vs hmany hone =>
    refine ⟨?_, ?_, ?_, ?_, ?_, hitems⟩ <;> simp [hstatus, hmany, hone]

end RestForge.Rest
