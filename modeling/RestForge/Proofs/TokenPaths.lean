import RestForge.Source.Tree

/-!
# Paths that lead out of a file

A path that begins with `super` or `crate` leads out of the file that it stands in.

* `outPaths`: the paths in tokens that lead out, wherever they stand.
* `Within`, `Sealed`: the paths in tokens have a property, unless what follows goes on with `::`, and
  whatever follows.
* `Path.within`: the tokens of a path hold no path but this one.
-/

set_option autoImplicit false

namespace RestForge.Source

/-! ## Paths in tokens -/

def outward : List String := ["super", "crate"]

/-- The names at the front of tokens, each behind `::`. -/
def following : List Token → List String
  | .mark ':' true :: .mark ':' false :: .word w :: ts => w :: following ts
  | _ => []

mutual

def Token.outPaths : Token → List (List String)
  | .group _ body => Source.outPaths body
  | _ => []

/-- A path goes as far as names follow; a name behind `::` begins no path. -/
def outPaths : List Token → List (List String)
  | [] => []
  | .mark ':' true :: .mark ':' false :: .word _ :: ts => outPaths ts
  | .word w :: ts =>
    (if w ∈ outward ∧ following ts ≠ [] then [w :: following ts] else []) ++ outPaths ts
  | t :: ts => t.outPaths ++ outPaths ts

end

/-- Do the tokens begin with `::`? -/
def opens : List Token → Bool
  | .mark c joint :: _ => joint && c == ':'
  | _ => false

theorem following_of_not_opens {ts : List Token} (h : opens ts = false) : following ts = [] := by
  unfold following
  split
  · cases h
  · rfl

theorem outPaths_mark_subset (c : Char) (joint : Bool) (ts : List Token) :
    outPaths (.mark c joint :: ts) ⊆ outPaths ts := by
  -- two colons take the word behind them along, any other mark stands alone
  rw [outPaths.eq_def]
  split
  · exact List.nil_subset _
  · rename_i w us he
    obtain ⟨-, rfl⟩ := List.cons.inj he
    intro q hq
    have hword : outPaths (.mark ':' false :: .word w :: us) = outPaths (.word w :: us) := rfl
    rw [hword, outPaths]
    exact List.mem_append_right _ hq
  · rename_i he
    cases (List.cons.inj he).1
  · rename_i he
    obtain ⟨rfl, rfl⟩ := List.cons.inj he
    exact List.Subset.refl _

mutual

theorem Token.head_of_mem_outPaths {q : List String} :
    ∀ t : Token, q ∈ t.outPaths → ∃ w ∈ outward, ∃ names ≠ [], q = w :: names
  | .group _ body, h => Source.head_of_mem_outPaths body h

/-- The first of the names leads out, and is not the only one. -/
theorem head_of_mem_outPaths {q : List String} :
    ∀ ts : List Token, q ∈ outPaths ts → ∃ w ∈ outward, ∃ names ≠ [], q = w :: names
  | .word w :: ts, h => by
    rw [outPaths] at h
    obtain hhere | hlater := List.mem_append.mp h
    · split at hhere
      · rename_i hw
        exact ⟨w, hw.1, _, hw.2, List.mem_singleton.mp hhere⟩
      · cases hhere
    · exact head_of_mem_outPaths ts hlater
  | .mark c joint :: ts, h => head_of_mem_outPaths ts (outPaths_mark_subset c joint ts h)
  | .literal _ :: ts, h => head_of_mem_outPaths ts h
  | .group _ body :: ts, h => by
    obtain hinside | hlater := List.mem_append.mp h
    · exact head_of_mem_outPaths body hinside
    · exact head_of_mem_outPaths ts hlater

end

/-- The path stays in the file, or goes to a library. -/
def Path.isLocal (p : Path) : Bool :=
  p.isGlobal || p.names.length ≤ 1 || !outward.contains (p.names.headD "")

theorem isLocal_of_mem_outPaths {ts : List Token} {q : List String} (h : q ∈ outPaths ts) :
    (Path.rel q).isLocal = false := by
  obtain ⟨w, hw, _ | ⟨n, names⟩, hne, rfl⟩ := head_of_mem_outPaths ts h
  · exact absurd rfl hne
  · simp [Path.isLocal, Path.rel, hw]

/-! ## Tokens with paths of a kind -/

/-- Unless they go on with `::`, tokens that follow add only paths of their own. -/
def Within (P : Path → Prop) (ts : List Token) : Prop :=
  ∀ rest, opens rest = false → ∀ q ∈ outPaths (ts ++ rest), P (.rel q) ∨ q ∈ outPaths rest

/-- Whatever tokens follow add only paths of their own. -/
def Sealed (P : Path → Prop) (ts : List Token) : Prop :=
  ∀ rest, ∀ q ∈ outPaths (ts ++ rest), P (.rel q) ∨ q ∈ outPaths rest

section Parts

variable {P : Path → Prop} {ts us : List Token}

theorem Sealed.within (h : Sealed P ts) : Within P ts := fun rest _ => h rest

theorem Within.all (h : Within P ts) {q : List String} (hq : q ∈ outPaths ts) : P (.rel q) := by
  have hall := h [] rfl q
  rw [List.append_nil] at hall
  exact (hall hq).resolve_right (by simp [outPaths])

theorem Sealed.mono {Q : Path → Prop} (h : Sealed P ts) (himp : ∀ p, P p → Q p) : Sealed Q ts :=
  fun rest q hq => (h rest q hq).imp_left (himp _)

theorem Sealed.nil : Sealed P [] := fun _ _ h => .inr h

theorem Sealed.append (h : Sealed P ts) (hu : Sealed P us) : Sealed P (ts ++ us) := by
  intro rest q hq
  rw [List.append_assoc] at hq
  obtain hp | hq := h _ q hq
  · exact .inl hp
  · exact hu rest q hq

theorem Sealed.append_within (h : Sealed P ts) (hu : Within P us) : Within P (ts ++ us) := by
  intro rest hrest q hq
  rw [List.append_assoc] at hq
  obtain hp | hq := h _ q hq
  · exact .inl hp
  · exact hu rest hrest q hq

theorem Within.append (h : Within P ts) (hu : Sealed P us)
    (hopens : ∀ rest, opens (us ++ rest) = false) : Sealed P (ts ++ us) := by
  intro rest q hq
  rw [List.append_assoc] at hq
  obtain hp | hq := h _ (hopens rest) q hq
  · exact .inl hp
  · exact hu rest q hq

/-! One token and its kind -/

theorem Sealed.mark (c : Char) (joint : Bool) : Sealed P [.mark c joint] := fun rest _ hq =>
  .inr (outPaths_mark_subset c joint rest hq)

theorem Sealed.marks (cs : List Char) : Sealed P (marks cs) := by
  induction cs with
  | nil => exact .nil
  | cons c cs ih =>
    cases cs with
    | nil => exact .mark c false
    | cons c' cs => exact (Sealed.mark c true).append ih

theorem Sealed.literal (s : String) : Sealed P [.literal s] := fun _ _ hq => .inr hq

theorem Sealed.word {w : String} (hw : w ∉ outward) : Sealed P (word w) := by
  intro rest q hq
  have hrest : q ∈ (if w ∈ outward ∧ following rest ≠ [] then [w :: following rest] else [])
      ++ outPaths rest := hq
  rw [if_neg fun h => hw h.1] at hrest
  exact .inr hrest

theorem Sealed.group (d : Delimiter) (h : Within P ts) : Sealed P [.group d ts] := by
  intro rest q hq
  have hmem : q ∈ outPaths ts ++ outPaths rest := hq
  exact (List.mem_append.mp hmem).imp_left h.all

/-- Any name may stand alone. -/
theorem Within.word (w : String) : Within P (word w) := by
  intro rest hrest q hq
  have hmem : q ∈ (if w ∈ outward ∧ following rest ≠ [] then [w :: following rest] else [])
      ++ outPaths rest := hq
  rw [if_neg fun h => h.2 (following_of_not_opens hrest)] at hmem
  exact .inr hmem

/-! Tokens behind others -/

theorem Within.then_mark (h : Within P ts) (c : Char) : Sealed P (ts ++ Source.mark c) :=
  h.append (.mark c false) fun _ => rfl

theorem Within.then_group (h : Within P ts) (d : Delimiter) (hu : Within P us) :
    Sealed P (ts ++ [.group d us]) :=
  h.append (.group d hu) fun _ => rfl

theorem Within.then_arrow (h : Within P ts) : Sealed P (ts ++ Source.marks ['=', '>']) :=
  h.append (.marks _) fun _ => rfl

theorem Sealed.then_name (h : Sealed P ts) (w : String) : Within P (ts ++ Source.word w) :=
  h.append_within (.word w)

/-! Lists -/

theorem Sealed.flatMap {α : Type} {f : α → List Token} {xs : List α}
    (h : ∀ x ∈ xs, Sealed P (f x)) : Sealed P (xs.flatMap f) := by
  induction xs with
  | nil => exact .nil
  | cons x xs ih =>
    rw [List.flatMap_cons]
    exact (h x List.mem_cons_self).append (ih fun x hx => h x (List.mem_cons_of_mem _ hx))

theorem Within.intercalate {parts : List (List Token)} (h : ∀ part ∈ parts, Within P part) :
    Within P (List.intercalate (Source.mark ',') parts) := by
  induction parts with
  | nil => exact Sealed.nil.within
  | cons part parts ih =>
    have hpart := h part List.mem_cons_self
    have hrest := ih fun part hpart => h part (List.mem_cons_of_mem _ hpart)
    cases parts with
    | nil =>
      rw [List.intercalate_singleton]
      exact hpart
    | cons next parts =>
      rw [List.intercalate_cons_cons]
      exact (hpart.then_mark ',').append_within hrest

theorem Within.commaSeparated {parts : List (List Token)} (h : ∀ part ∈ parts, Within P part)
    (trailing : Bool) : Within P (commaSeparated trailing parts) := by
  unfold Source.commaSeparated
  split
  · exact Sealed.nil.within
  · cases trailing with
    | false =>
      rw [if_neg Bool.false_ne_true, List.append_nil]
      exact .intercalate h
    | true => exact ((Within.intercalate h).then_mark ',').within

end Parts

/-! ## Paths -/

namespace Path

/-- The names behind the first. -/
def tailTokens (names : List String) : List Token := names.flatMap fun n => colons ++ word n

theorem tokens_cons (isGlobal : Bool) (n : String) (names : List String) :
    (⟨isGlobal, n :: names⟩ : Path).tokens
      = (if isGlobal then colons else []) ++ .word n :: tailTokens names := by
  have hjoined : ∀ n,
      List.intercalate colons ((n :: names).map word) = .word n :: tailTokens names := by
    induction names with
    | nil => intro n; rfl
    | cons m names ih =>
      intro n
      have htail := ih m
      rw [List.map_cons] at htail
      rw [List.map_cons, List.map_cons, List.intercalate_cons_cons, htail]
      rfl
  rw [tokens, hjoined]

theorem following_tailTokens (names : List String) {rest : List Token} (h : opens rest = false) :
    following (tailTokens names ++ rest) = names := by
  induction names with
  | nil => exact following_of_not_opens h
  | cons n names ih =>
    have hstep : following (tailTokens (n :: names) ++ rest)
        = n :: following (tailTokens names ++ rest) := rfl
    rw [hstep, ih]

theorem outPaths_tailTokens (names : List String) (rest : List Token) :
    outPaths (tailTokens names ++ rest) = outPaths rest := by
  induction names with
  | nil => rfl
  | cons n names ih => exact ih

theorem within {P : Path → Prop} {p : Path} (h : P p) : Within P p.tokens := by
  obtain ⟨isGlobal, _ | ⟨n, names⟩⟩ := p
  · cases isGlobal with
    | false => exact Sealed.nil.within
    | true => exact (Sealed.marks [':', ':']).within
  · rw [tokens_cons]
    intro rest hrest q hq
    cases isGlobal with
    | true =>
      have hmem : q ∈ outPaths (tailTokens names ++ rest) := hq
      rw [outPaths_tailTokens] at hmem
      exact .inr hmem
    | false =>
      have hmem : q ∈ (if n ∈ outward ∧ following (tailTokens names ++ rest) ≠ []
          then [n :: following (tailTokens names ++ rest)] else [])
          ++ outPaths (tailTokens names ++ rest) := hq
      rw [outPaths_tailTokens, following_tailTokens names hrest] at hmem
      refine (List.mem_append.mp hmem).imp_left fun hhere => ?_
      split at hhere
      · rw [List.mem_singleton.mp hhere]
        exact h
      · cases hhere

end Path

end RestForge.Source
