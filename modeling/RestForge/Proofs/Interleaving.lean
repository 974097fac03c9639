import RestForge.Proofs.TypeNames

/-!
# Workers that take turns

Type names are resolved by workers that share one table. A worker walks through one resource and asks
for one name at a time; between two of its calls the others make theirs.

* `Walk`: a resolution cut into its calls; `Walk.run` makes them without a pause, and
  `run_ofResource` says that this is resolving.
* `SameIn`: two tables that agree on one scope; `run_sameIn`: a walk looks at its own scope only.
* `Worker`, `Pool`: walks under way over one table; `Pool.call?` is one call of one worker.
* `names_of_interleaving`: whatever the order of the calls, every worker ends as if it were alone.
-/

set_option autoImplicit false

namespace RestForge.Naming

variable {α β γ : Type}

/-! ## Walks -/

/-- Names are asked for one after another; how a walk goes on may depend on the name given. -/
inductive Walk (α : Type) where
  | done (x : α)
  | ask (reg : Registration) (next : String → Walk α)

namespace Walk

def bind : Walk α → (α → Walk β) → Walk β
  | done x, f => f x
  | ask reg next, f => ask reg fun name => (next name).bind f

instance : Monad Walk where
  pure := done
  bind := bind

theorem bind_done (w : Walk α) : w.bind done = w := by
  induction w with
  | done x => rfl
  | ask reg next ih => exact congrArg (ask reg) (funext ih)

theorem bind_bind (w : Walk α) (f : α → Walk β) (g : β → Walk γ) :
    (w.bind f).bind g = w.bind fun x => (f x).bind g := by
  induction w with
  | done x => rfl
  | ask reg next ih => exact congrArg (ask reg) (funext ih)

instance : LawfulMonad Walk := .mk' Walk bind_done (fun _ _ => rfl) bind_bind

/-- One name. -/
def given (reg : Registration) : Walk String := ask reg done

def ofTable (modules : List String) (p : PlacedTable) : Walk (String × TypePair) := do
  let model ← given (modelRegistration modules p)
  let client ← given (clientRegistration modules p)
  return (p.key, ⟨model, client⟩)

def ofResource (r : Resource) : Walk TypeNames := do
  let pairs ← r.tables.mapM (ofTable r.modules)
  return ⟨pairs⟩

/-- All calls in a row, up to the first collision. -/
def run (scope : Scope) : Walk α → Giving α
  | done x => pure x
  | ask reg next => register scope reg >>= fun name => (next name).run scope

theorem run_bind (scope : Scope) (w : Walk α) (f : α → Walk β) :
    (w >>= f).run scope = w.run scope >>= fun x => (f x).run scope := by
  induction w with
  | done x =>
    show (f x).run scope = (pure x : Giving α) >>= fun x => (f x).run scope
    rw [pure_bind]
  | ask reg next ih =>
    show (register scope reg >>= fun name => (next name >>= f).run scope) = _
    simp only [run, ih, bind_assoc]

theorem run_pure (scope : Scope) (x : α) : (pure x : Walk α).run scope = pure x := rfl

theorem run_given (scope : Scope) (reg : Registration) :
    (given reg).run scope = register scope reg := by
  show register scope reg >>= pure = register scope reg
  exact bind_pure _

theorem run_mapM (scope : Scope) (f : α → Walk β) (xs : List α) :
    (xs.mapM f).run scope = xs.mapM fun x => (f x).run scope := by
  induction xs with
  | nil => rfl
  | cons x xs ih => simp only [List.mapM_cons, run_bind, ih, run_pure]

theorem run_ofTable (scope : Scope) (modules : List String) (p : PlacedTable) :
    (ofTable modules p).run scope = resolveTable scope modules p := by
  simp only [ofTable, resolveTable, run_bind, run_given, run_pure]

/-- The calls of the walk are those that resolving makes. -/
theorem run_ofResource (r : Resource) :
    (ofResource r).run (Scope.types r.dottedPath) = resolve r := by
  simp only [ofResource, resolve, run_bind, run_mapM, run_ofTable, run_pure]

/-- The walk makes so many calls if it is refused no name. -/
def Takes : Nat → Walk α → Prop
  | n, done _ => n = 0
  | 0, ask _ _ => False
  | n + 1, ask _ next => ∀ name, (next name).Takes n

theorem Takes.bind {m n : Nat} {w : Walk α} {f : α → Walk β} (hw : w.Takes m)
    (hf : ∀ x, (f x).Takes n) : (w >>= f).Takes (m + n) := by
  induction w generalizing m with
  | done x =>
    cases m with
    | zero => rw [Nat.zero_add]; exact hf x
    | succ m => cases hw
  | ask reg next ih =>
    cases m with
    | zero => cases hw
    | succ m =>
      rw [Nat.succ_add]
      exact fun name => ih name (hw name)

theorem takes_given (reg : Registration) : (given reg).Takes 1 := fun _ => rfl

theorem takes_pure (x : α) : (pure x : Walk α).Takes 0 := rfl

theorem takes_mapM {f : α → Walk β} {n : Nat} (hf : ∀ x, (f x).Takes n) (xs : List α) :
    (xs.mapM f).Takes (xs.length * n) := by
  induction xs with
  | nil => rw [List.length_nil, Nat.zero_mul]; rfl
  | cons x xs ih =>
    rw [List.mapM_cons, List.length_cons, Nat.succ_mul, Nat.add_comm]
    exact (hf x).bind fun y => ih.bind fun ys => takes_pure (y :: ys)

theorem takes_ofTable (modules : List String) (p : PlacedTable) : (ofTable modules p).Takes 2 :=
  (takes_given _).bind (n := 1) fun _ => (takes_given _).bind (n := 0) fun _ => takes_pure _

theorem takes_ofResource (r : Resource) : (ofResource r).Takes (registrations r).length := by
  have hlength : (registrations r).length = r.tables.length * 2 := by
    simp [registrations, List.length_flatMap]
  have htables := takes_mapM (takes_ofTable r.modules) r.tables
  rw [hlength]
  exact htables.bind (n := 0) fun _ => takes_pure _

end Walk

/-! ## One scope of the table -/

def SameIn (s : Scope) (t u : NameTable) : Prop :=
  (∀ w, t.codeName? s w = u.codeName? s w) ∧ ∀ c, t.wireName? s c = u.wireName? s c

namespace SameIn

variable {s : Scope} {t u v : NameTable}

theorem refl (s : Scope) (t : NameTable) : SameIn s t t := ⟨fun _ => rfl, fun _ => rfl⟩

theorem symm (h : SameIn s t u) : SameIn s u t := ⟨fun w => (h.1 w).symm, fun c => (h.2 c).symm⟩

theorem trans (h : SameIn s t u) (h' : SameIn s u v) : SameIn s t v :=
  ⟨fun w => (h.1 w).trans (h'.1 w), fun c => (h.2 c).trans (h'.2 c)⟩

theorem add (h : SameIn s t u) (w c : String) : SameIn s (t.add s w c) (u.add s w c) := by
  constructor
  · intro w'
    rw [NameTable.codeName?_add, NameTable.codeName?_add, h.1]
  · intro c'
    rw [NameTable.wireName?_add, NameTable.wireName?_add, h.2]

theorem add_of_ne {s' : Scope} (hne : s ≠ s') (t : NameTable) (w c : String) :
    SameIn s t (t.add s' w c) := by
  constructor
  · intro w'
    rw [NameTable.codeName?_add, if_neg fun h => hne h.1]
  · intro c'
    rw [NameTable.wireName?_add, if_neg fun h => hne h.1]

end SameIn

/-- A name of one scope is given or refused by what this scope holds. -/
theorem register_sameIn {s : Scope} {t u : NameTable} (h : SameIn s t u) (reg : Registration) :
    (register s reg t).1 = (register s reg u).1
      ∧ SameIn s (register s reg t).2 (register s reg u).2 := by
  unfold register
  obtain ⟨known, hk, he⟩ | ⟨owner, hw, hc, he⟩ | ⟨hw, hc, he⟩ := t.record_cases s reg.key reg.name
  · rw [he, NameTable.record_known reg.name ((h.1 _).symm.trans hk)]
    exact ⟨rfl, h⟩
  · rw [he, NameTable.record_owned ((h.1 _).symm.trans hw) ((h.2 _).symm.trans hc)]
    exact ⟨rfl, h⟩
  · rw [he, NameTable.record_free ((h.1 _).symm.trans hw) ((h.2 _).symm.trans hc)]
    exact ⟨rfl, h.add _ _⟩

/-- Giving a name of one scope leaves every other scope alone. -/
theorem register_elsewhere {s s' : Scope} (hne : s ≠ s') (reg : Registration) (t : NameTable) :
    SameIn s t (register s' reg t).2 := by
  unfold register
  obtain ⟨known, -, he⟩ | ⟨owner, -, -, he⟩ | ⟨-, -, he⟩ := t.record_cases s' reg.key reg.name <;>
    rw [he]
  · exact .refl s t
  · exact .refl s t
  · exact .add_of_ne hne t _ _

theorem Walk.run_sameIn {s : Scope} (w : Walk α) {t u : NameTable} (h : SameIn s t u) :
    (w.run s t).1 = (w.run s u).1 ∧ SameIn s (w.run s t).2 (w.run s u).2 := by
  induction w generalizing t u with
  | done x => exact ⟨rfl, h⟩
  | ask reg next ih =>
    obtain ⟨hresult, htable⟩ := register_sameIn h reg
    rw [run, bind_apply, bind_apply]
    rcases ht : register s reg t with ⟨c | name, t'⟩ <;>
      rcases hu : register s reg u with ⟨c' | name', u'⟩ <;>
      rw [ht, hu] at hresult htable <;> cases hresult
    · exact ⟨rfl, htable⟩
    · exact ih name htable

theorem Walk.run_elsewhere {s s' : Scope} (hne : s ≠ s') (w : Walk α) (t : NameTable) :
    SameIn s t (w.run s' t).2 := by
  induction w generalizing t with
  | done x => exact .refl s t
  | ask reg next ih =>
    have hfirst := register_elsewhere hne reg t
    rw [run, bind_apply]
    rcases ht : register s' reg t with ⟨c | name, t'⟩ <;> rw [ht] at hfirst
    · exact hfirst
    · exact hfirst.trans (ih name t')

/-! ## Workers -/

/-- A walk under way in the scope of its resource, or the collision that ended it. -/
structure Worker where
  scope : Scope
  state : Except Collision (Walk TypeNames)

namespace Worker

def ofResource (r : Resource) : Worker := ⟨Scope.types r.dottedPath, .ok (.ofResource r)⟩

/-- What the worker ended with. -/
def answer? (w : Worker) : Option (Except Collision TypeNames) :=
  match w.state with
  | .error c => some (.error c)
  | .ok (.done names) => some (.ok names)
  | .ok (.ask _ _) => none

/-- The next call, if one is left. -/
def call? (w : Worker) (t : NameTable) : Option (Worker × NameTable) :=
  match w.state with
  | .ok (.ask reg next) =>
    some (⟨w.scope, next <$> (register w.scope reg t).1⟩, (register w.scope reg t).2)
  | _ => none

/-- What the worker ends with if it makes all calls that are left without a pause. -/
def alone (w : Worker) (t : NameTable) : Except Collision TypeNames :=
  w.state >>= fun walk => (walk.run w.scope t).1

/-- So many calls are left, or one of them is refused. -/
def Left (n : Nat) (w : Worker) : Prop := ∀ walk, w.state = .ok walk → walk.Takes n

theorem alone_ofResource (r : Resource) (t : NameTable) :
    (ofResource r).alone t = (resolve r t).1 := by
  rw [← Walk.run_ofResource]
  rfl

theorem left_ofResource (r : Resource) : (ofResource r).Left (registrations r).length := by
  intro walk h
  cases h
  exact Walk.takes_ofResource r

theorem alone_sameIn {w : Worker} {t u : NameTable} (h : SameIn w.scope t u) :
    w.alone t = w.alone u := by
  unfold alone
  cases w.state with
  | error c => rfl
  | ok walk => exact (walk.run_sameIn h).1

/-- One call, and what is the same after it. -/
theorem call?_spec {w w' : Worker} {t t' : NameTable} (h : w.call? t = some (w', t')) :
    w'.scope = w.scope ∧ w'.alone t' = w.alone t
      ∧ (∀ s, s ≠ w.scope → SameIn s t t')
      ∧ ∀ n, w.Left n → ∃ m, n = m + 1 ∧ w'.Left m := by
  obtain ⟨scope, c | names | ⟨reg, next⟩⟩ := w
  · cases h
  · cases h
  · cases h
    refine ⟨rfl, ?_, fun s hs => register_elsewhere hs reg t, fun n hn => ?_⟩
    · show _ = (Walk.run scope (.ask reg next) t).1
      rw [Walk.run, bind_apply, alone]
      rcases register scope reg t with ⟨c | name, t₁⟩ <;> rfl
    · have htakes := hn _ rfl
      cases n with
      | zero => cases htakes
      | succ m =>
        refine ⟨m, rfl, fun walk hwalk => ?_⟩
        cases hname : (register scope reg t).1 with
        | error c => rw [hname] at hwalk; cases hwalk
        | ok name =>
          rw [hname] at hwalk
          cases hwalk
          exact htakes name

theorem answer?_of_call?_none {w : Worker} {t : NameTable} (h : w.call? t = none) :
    w.answer? = some (w.alone t) := by
  obtain ⟨scope, c | names | ⟨reg, next⟩⟩ := w
  · rfl
  · rfl
  · cases h

theorem answer?_of_call? {w : Worker} {t : NameTable} (h : (w.call? t).isSome) :
    w.answer? = none := by
  obtain ⟨scope, c | names | ⟨reg, next⟩⟩ := w
  · cases h
  · cases h
  · rfl

end Worker

/-! ## Turns -/

/-- Workers over one table. -/
structure Pool where
  table : NameTable
  workers : List Worker

namespace Pool

def start (t : NameTable) (rs : List Resource) : Pool := ⟨t, rs.map .ofResource⟩

/-- Worker `i` makes its next call. -/
def call? (p : Pool) (i : Nat) : Option Pool := do
  let w ← p.workers[i]?
  let (w', t') ← w.call? p.table
  return ⟨t', p.workers.set i w'⟩

/-- One call after another, each by the worker whose turn it is. -/
def calls? (p : Pool) (turns : List Nat) : Option Pool := turns.foldlM call? p

theorem call?_eq_some {p p' : Pool} {i : Nat} (h : p.call? i = some p') :
    ∃ w w', p.workers[i]? = some w ∧ w.call? p.table = some (w', p'.table)
      ∧ p'.workers = p.workers.set i w' := by
  unfold call? at h
  obtain ⟨w, hw, h⟩ := Option.bind_eq_some_iff.mp h
  obtain ⟨⟨w', t'⟩, hcall, h⟩ := Option.bind_eq_some_iff.mp h
  cases h
  exact ⟨w, w', hw, hcall, rfl⟩

theorem call?_isSome {p : Pool} {i : Nat} {w : Worker} (hw : p.workers[i]? = some w) :
    (p.call? i).isSome = (w.call? p.table).isSome := by
  simp only [call?, hw, Option.bind_eq_bind, Option.bind_some]
  cases w.call? p.table <;> rfl

end Pool

/-- A worker that has made so many calls of its resource and still ends as if it had been alone with
the table `t`. -/
structure Worker.OnCourse (t : NameTable) (r : Resource) (made : Nat) (u : NameTable)
    (w : Worker) : Prop where
  scope : w.scope = Scope.types r.dottedPath
  answer : w.alone u = (resolve r t).1
  calls : ∃ left, made + left = (registrations r).length ∧ w.Left left

theorem Worker.OnCourse.start (t : NameTable) (r : Resource) :
    (Worker.ofResource r).OnCourse t r 0 t :=
  ⟨rfl, alone_ofResource r t, _, Nat.zero_add _, left_ofResource r⟩

/-- A call of the worker itself. -/
theorem Worker.OnCourse.call {t u u' : NameTable} {r : Resource} {made : Nat} {w w' : Worker}
    (h : w.OnCourse t r made u) (hcall : w.call? u = some (w', u')) :
    w'.OnCourse t r (made + 1) u' := by
  obtain ⟨hscope, halone, -, hleft⟩ := call?_spec hcall
  obtain ⟨n, hn, hw⟩ := h.calls
  obtain ⟨m, rfl, hw'⟩ := hleft n hw
  exact ⟨hscope.trans h.scope, halone.trans h.answer, m, by omega, hw'⟩

/-- A call of a worker with another scope. -/
theorem Worker.OnCourse.elsewhere {t u u' : NameTable} {r : Resource} {made : Nat}
    {w v v' : Worker} (h : w.OnCourse t r made u) (hcall : v.call? u = some (v', u'))
    (hne : w.scope ≠ v.scope) : w.OnCourse t r made u' := by
  obtain ⟨-, -, hothers, -⟩ := call?_spec hcall
  exact ⟨h.scope, (alone_sameIn (hothers _ hne).symm).trans h.answer, h.calls⟩

namespace Pool

/-- After these turns every worker is on course. -/
structure OnCourse (t : NameTable) (rs : List Resource) (turns : List Nat) (p : Pool) : Prop where
  size : p.workers.length = rs.length
  each : ∀ (i : Nat) (r : Resource) (w : Worker), rs[i]? = some r → p.workers[i]? = some w →
    w.OnCourse t r (turns.count i) p.table

theorem onCourse_start (t : NameTable) (rs : List Resource) : (start t rs).OnCourse t rs [] := by
  refine ⟨List.length_map _, fun i r w hr hw => ?_⟩
  rw [start, List.getElem?_map, hr] at hw
  cases hw
  exact .start t r

section Run

variable {t : NameTable} {rs : List Resource}
  (hapart : rs.Pairwise fun r r' => r.dottedPath ≠ r'.dottedPath)

include hapart

theorem scope_ne {i j : Nat} (hne : i ≠ j) {r r' : Resource} (hr : rs[i]? = some r)
    (hr' : rs[j]? = some r') : Scope.types r.dottedPath ≠ Scope.types r'.dottedPath := by
  obtain ⟨hi, rfl⟩ := List.getElem?_eq_some_iff.mp hr
  obtain ⟨hj, rfl⟩ := List.getElem?_eq_some_iff.mp hr'
  intro hscope
  have hpath := congrArg Scope.path hscope
  obtain hlt | hgt := Nat.lt_or_gt_of_ne hne
  · exact List.pairwise_iff_getElem.mp hapart i j hi hj hlt hpath
  · exact List.pairwise_iff_getElem.mp hapart j i hj hi hgt hpath.symm

theorem OnCourse.call {turns : List Nat} {p p' : Pool} {i : Nat} (h : p.OnCourse t rs turns)
    (hcall : p.call? i = some p') : p'.OnCourse t rs (turns ++ [i]) := by
  obtain ⟨v, v', hv, hcall, hworkers⟩ := call?_eq_some hcall
  have hlt : i < p.workers.length := (List.getElem?_eq_some_iff.mp hv).1
  refine ⟨by rw [hworkers, List.length_set, h.size], fun j r w hr hw => ?_⟩
  rw [hworkers] at hw
  rw [List.count_append, List.count_singleton]
  by_cases hij : i = j
  · subst hij
    rw [List.getElem?_set_self hlt] at hw
    cases hw
    simpa using (h.each i r v hr hv).call hcall
  · rw [List.getElem?_set_ne hij] at hw
    obtain ⟨r', hr'⟩ : ∃ r', rs[i]? = some r' := by
      rw [List.getElem?_eq_getElem (h.size ▸ hlt)]
      exact ⟨_, rfl⟩
    have hne : w.scope ≠ v.scope := by
      rw [(h.each j r w hr hw).scope, (h.each i r' v hr' hv).scope]
      exact scope_ne hapart (Ne.symm hij) hr hr'
    simpa [hij] using (h.each j r w hr hw).elsewhere hcall hne

theorem OnCourse.calls {made turns : List Nat} {p p' : Pool} (h : p.OnCourse t rs made)
    (hcalls : p.calls? turns = some p') : p'.OnCourse t rs (made ++ turns) := by
  induction turns generalizing made p with
  | nil =>
    cases hcalls
    rwa [List.append_nil]
  | cons i turns ih =>
    rw [calls?, List.foldlM_cons] at hcalls
    obtain ⟨p₁, hcall, hcalls⟩ := Option.bind_eq_some_iff.mp hcalls
    have hrest := ih (h.call hapart hcall) hcalls
    rwa [List.append_assoc, List.singleton_append] at hrest

end Run

end Pool

/-- However the calls of the workers follow one another, no worker makes more calls than its resource
has names to register, and each either has the very answer that resolving its resource alone would
give, or has none yet and another call to make. -/
theorem names_of_interleaving (t : NameTable) {rs : List Resource}
    (hapart : rs.Pairwise fun r r' => r.dottedPath ≠ r'.dottedPath) {turns : List Nat} {p : Pool}
    (hturns : (Pool.start t rs).calls? turns = some p) :
    ∀ i r, rs[i]? = some r → turns.count i ≤ (registrations r).length
      ∧ ∃ w, p.workers[i]? = some w ∧ (w.answer? = some (resolve r t).1
        ∨ w.answer? = none ∧ (p.call? i).isSome) := by
  have hcourse := (Pool.onCourse_start t rs).calls hapart hturns
  intro i r hr
  obtain ⟨w, hw⟩ : ∃ w, p.workers[i]? = some w := by
    rw [List.getElem?_eq_getElem (hcourse.size ▸ (List.getElem?_eq_some_iff.mp hr).1)]
    exact ⟨_, rfl⟩
  obtain ⟨-, hanswer, left, hmade, -⟩ := hcourse.each i r w hr hw
  rw [List.nil_append] at hmade
  refine ⟨by omega, w, hw, ?_⟩
  rw [Pool.call?_isSome hw]
  cases hcall : w.call? p.table with
  | none => exact .inl (by rw [Worker.answer?_of_call?_none hcall, hanswer])
  | some next => exact .inr ⟨Worker.answer?_of_call? (by rw [hcall]; rfl), rfl⟩

/-! ## Two workers -/

/-- The client of the root and the model of the table `client` ask for one name. -/
def clashResource : Resource :=
  ⟨.config, ["x"], ["x"], none, none, [], [⟨"client", "client", none, none, [], []⟩], [.get]⟩

def plainResource : Resource := ⟨.config, ["y"], ["y"], none, none, [], [], [.get]⟩

def clash : Collision := ⟨Scope.types "config.x", "XClient", "client:", "model:client"⟩

def plainNames : TypeNames := ⟨[("", ⟨"Y", "YClient"⟩)]⟩

theorem walk_clashResource : Walk.ofResource clashResource
    = .ask ⟨"model:", "X"⟩ fun model => .ask ⟨"client:", "XClient"⟩ fun client =>
      .ask ⟨"model:client", "XClient"⟩ fun below => .ask ⟨"client:client", "XClientClient"⟩ fun inner =>
      .done ⟨[("", ⟨model, client⟩), ("client", ⟨below, inner⟩)]⟩ := rfl

theorem walk_plainResource : Walk.ofResource plainResource
    = .ask ⟨"model:", "Y"⟩ fun model => .ask ⟨"client:", "YClient"⟩ fun client =>
      .done ⟨[("", ⟨model, client⟩)]⟩ := rfl

theorem calls?_clash : ∃ t, (Pool.start .empty [clashResource, plainResource]).calls? [0, 1, 0, 0, 1]
    = some ⟨t, [⟨Scope.types "config.x", .error clash⟩,
      ⟨Scope.types "config.y", .ok (.done plainNames)⟩]⟩ := by
  have hclash : clashResource.dottedPath = "config.x" := by decide
  have hplain : plainResource.dottedPath = "config.y" := by decide
  simp only [Pool.calls?, Pool.start, Pool.call?, Worker.call?, Worker.ofResource, List.map_cons,
    List.map_nil, hclash, hplain, walk_clashResource, walk_plainResource, List.foldlM_cons,
    List.foldlM_nil, List.getElem?_cons_zero, List.getElem?_cons_succ, List.set_cons_zero,
    List.set_cons_succ, Functor.map, Except.map, Option.pure_def, Option.bind_eq_bind,
    Option.bind_some, Option.bind_fun_some, register, NameTable.record, ← NameTable.add.eq_1,
    NameTable.codeName?_empty, NameTable.wireName?_empty, NameTable.codeName?_add,
    NameTable.wireName?_add, Scope.types, Scope.mk.injEq, String.reduceEq, and_false, and_true,
    and_self, ↓reduceIte, clash, plainNames, Option.some.injEq, Pool.mk.injEq, exists_eq']

/-- One worker is refused its third call, between the two of the other; each ends as it would alone. -/
theorem names_of_interleaving_clash :
    [clashResource, plainResource].Pairwise (fun r r' => r.dottedPath ≠ r'.dottedPath)
      ∧ ∃ p, (Pool.start .empty [clashResource, plainResource]).calls? [0, 1, 0, 0, 1] = some p
        ∧ (resolve clashResource .empty).1 = .error clash
        ∧ (resolve plainResource .empty).1 = .ok plainNames := by
  have hapart : [clashResource, plainResource].Pairwise
      (fun r r' => r.dottedPath ≠ r'.dottedPath) := by decide
  obtain ⟨t, hturns⟩ := calls?_clash
  have halone := names_of_interleaving .empty hapart hturns
  refine ⟨hapart, _, hturns, ?_, ?_⟩
  · obtain ⟨-, w, hw, hanswer | ⟨hnone, -⟩⟩ := halone 0 clashResource rfl <;> cases hw
    · exact (Option.some.inj hanswer).symm
    · cases hnone
  · obtain ⟨-, w, hw, hanswer | ⟨hnone, -⟩⟩ := halone 1 plainResource rfl <;> cases hw
    · exact (Option.some.inj hanswer).symm
    · cases hnone

end RestForge.Naming
