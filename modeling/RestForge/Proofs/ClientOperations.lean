import RestForge.Proofs.References
import RestForge.Proofs.ResourceShape

/-!
# What the client of a table offers

The operations of a client are generated method by method, with a key where the table has one. This
file says from the outside which functions there are, and compares.

* `Offered`: the public functions that a table calls for, by name.
* `TakesKey`, `SendsChecked`: the key of a function, and what happens to a payload before it is sent.
* `Faithful`: everything that is promised of the client of one table.
* `mem_operations_iff`, `key_eq`, `mkeyField?_eq`: the operations of a table and their key.
* `listed_iff`: the methods of a resource are those that the document names, in any case.
* `client_faithful`: the file of clients has one implementation for each table, and it is faithful.
-/

set_option autoImplicit false

namespace RestForge.Emit

open Source Naming Schema

/-! ## Promises -/

/-- Two functions belong to every client; the others go by the methods of the resource. -/
inductive Offered (r : Resource) (p : PlacedTable) : String → Prop where
  | new : Offered r p "new"
  | endpoint : Offered r p "endpoint"
  | get (method : r.supports .get = true) : Offered r p "get"
  | getByKey (method : r.supports .get = true) (key : p.mkey ≠ none) : Offered r p "get_by_key"
  | post (method : r.supports .post = true) : Offered r p "post"
  | put (method : r.supports .put = true) : Offered r p "put"
  | delete (method : r.supports .delete = true) : Offered r p "delete"

def int64Type : Ty := .named (.rel ["i64"])

/-- There is a key if the table has an identifying field, and it is a whole number if the field is
one. -/
structure TakesKey (p : PlacedTable) (f : Function) : Prop where
  keyed : (∃ q ∈ f.params, q.name = "key") ↔ p.mkey ≠ none
  integer : ∀ q ∈ f.params, q.name = "key" →
    (q.type = int64Type ↔ ∃ g ∈ p.fields, isKey p g = true ∧ g.type = .integer)

/-- The record that goes to the endpoint has passed a check of the table itself, and nothing before
that has to do with the endpoint. -/
structure SendsChecked (files : ArtifactKind → File) (p : PlacedTable) (check : Check)
    (method : String) (f : Function) : Prop where
  body : ∃ before path args, f.body = before
    ++ [.run (.question (callPath (.rel path) [.ref (.var "body")])),
      .result (.method endpointField method (args ++ [.ref (.var "body")]) false)]
    ∧ LeadsTo files ["super"] path .validators p.chain (.function (checkFunction p check))
    ∧ ∀ s ∈ before, Path.rel ["self"] ∉ s.paths

/-- The document names the method, in any case of its letters. -/
def Listed (doc : Json) (m : Method) : Prop :=
  ∃ (members : Record) (items : List Json) (word : String), doc = .object members
    ∧ members.get? "methods" = some (.array items) ∧ .string word ∈ items ∧ NamesMethod m word

structure Faithful (doc : Json) (r : Resource) (names : TypeNames) (files : ArtifactKind → File)
    (p : PlacedTable) (i : ImplItem) : Prop where
  offered : ∀ name, (∃ f ∈ i.functions, f.isPublic = true ∧ f.name = name) ↔ Offered r p name
  once : (i.functions.map Function.name).Nodup
  keys : ∀ f ∈ i.functions, f.name ∈ ["put", "delete"] → TakesKey p f
  single : ∀ f ∈ i.functions, f.name = "get" →
    ∃ value, f.returns = some (outcome value (runtimeType "ClientError"))
      ∧ (value = .named (.rel ["super", "model", names.model p])
        ↔ p = .ofResource r ∧ p.mkey = none)
      ∧ (value = applied "Vec" [.named (.rel ["super", "model", names.model p])]
        ↔ ¬ (p = .ofResource r ∧ p.mkey = none))
  creates : ∀ f ∈ i.functions, f.name = "post" → SendsChecked files p .create "post" f
  updates : ∀ f ∈ i.functions, f.name = "put" → SendsChecked files p .update "put" f
  constants : (i.constants.map Constant.name).Nodup
  methods : ∃ c ∈ i.constants, ∃ ms : List Method, c.name = "SUPPORTED_METHODS"
    ∧ c.value = .ref (.array (ms.map fun m => .path (methodPath m)))
    ∧ ms.Sublist [.get, .post, .put, .delete]
    ∧ ∀ m, (m ∈ ms ↔ r.supports m = true) ∧ (m ∈ ms ↔ Listed doc m)

/-! ## Keys -/

section Keyed

variable {limit : Nat} {p : PlacedTable} (hp : WellFormed limit p)

include hp

theorem exists_isKey {key : String} (h : p.mkey = some key) :
    ∃ g ∈ p.fields, g.wireName = key ∧ isKey p g = true := by
  obtain ⟨type, hmem, -⟩ := hp.key key h
  obtain ⟨g, hg, he⟩ := List.mem_map.mp hmem
  have hwire : g.wireName = key := congrArg Prod.fst he
  exact ⟨g, hg, hwire, by simp [isKey, h, hwire]⟩

theorem isKey_unique {f g : Field} (hf : f ∈ p.fields) (hg : g ∈ p.fields) (hfk : isKey p f = true)
    (hgk : isKey p g = true) : f = g := by
  rw [isKey, beq_iff_eq] at hfk hgk
  exact List.inj_on_of_nodup_map hp.names.wires hf hg (Option.some.inj (hfk.trans hgk.symm))

theorem mkeyField?_eq {g : Field} (hg : g ∈ p.fields) (hkey : isKey p g = true) :
    p.mkeyField? = some g := by
  have hmkey : p.mkey = some g.wireName := (beq_iff_eq.mp hkey).symm
  rw [PlacedTable.mkeyField?, hmkey, Option.bind_some]
  rcases hfind : p.fields.find? (fun f => f.wireName == g.wireName) with _ | f
  · exact absurd (List.find?_eq_none.mp hfind g hg) (by simp)
  · have hwire : f.wireName = g.wireName := by simpa using List.find?_some hfind
    have hmem := List.mem_of_find?_eq_some hfind
    rw [hfind, isKey_unique hp hmem hg (by simp [isKey, hmkey, hwire]) hkey]

/-- The key of a table is that of its identifying field. -/
theorem key_eq : (p.mkey = none ∧ Key.of? p = none)
    ∨ ∃ g ∈ p.fields, isKey p g = true ∧ Key.of? p = some ⟨g.wireName, g.type == .integer⟩ := by
  cases hmkey : p.mkey with
  | none => exact .inl ⟨rfl, by simp [Key.of?, PlacedTable.mkeyField?, hmkey]⟩
  | some key =>
    obtain ⟨g, hg, -, hkey⟩ := exists_isKey hp hmkey
    exact .inr ⟨g, hg, hkey, by rw [Key.of?, mkeyField?_eq hp hg hkey]; rfl⟩

theorem key_eq_none_iff : Key.of? p = none ↔ p.mkey = none := by
  obtain ⟨hmkey, hkey⟩ | ⟨g, hg, hg', hkey⟩ := key_eq hp
  · simp [hmkey, hkey]
  · have hmkey : p.mkey = some g.wireName := (beq_iff_eq.mp hg').symm
    simp [hmkey, hkey]

theorem keyParam_type {k : Key} (hk : Key.of? p = some k) :
    k.param.type = int64Type ↔ ∃ g ∈ p.fields, isKey p g = true ∧ g.type = .integer := by
  obtain ⟨-, hnone⟩ | ⟨g, hg, hg', hkey⟩ := key_eq hp
  · rw [hk] at hnone
    cases hnone
  · obtain rfl := Option.some.inj (hk.symm.trans hkey)
    have hparam : (Key.param ⟨g.wireName, g.type == .integer⟩).type = int64Type
        ↔ g.type = .integer := by
      by_cases htype : g.type = .integer
      · simp [Key.param, htype, int64Type]
      · simp [Key.param, htype, int64Type, strRef, Ty.named]
    rw [hparam]
    refine ⟨fun htype => ⟨g, hg, hg', htype⟩, ?_⟩
    rintro ⟨f, hf, hf', htype⟩
    rwa [isKey_unique hp hg hf hg' hf']

/-- A function whose first parameters are those of the key, with no other of that name. -/
theorem takesKey_of_params {f : Function} {others : List Param}
    (hparams : f.params = keyParams (Key.of? p) ++ others) (hothers : ∀ q ∈ others, q.name ≠ "key") :
    TakesKey p f := by
  have hkey : ∀ q ∈ f.params, q.name = "key" → ∃ k, Key.of? p = some k ∧ q = k.param := by
    intro q hq hname
    rw [hparams] at hq
    obtain hq | hq := List.mem_append.mp hq
    · obtain ⟨k, hk, rfl⟩ := List.mem_map.mp hq
      exact ⟨k, Option.mem_toList.mp hk, rfl⟩
    · exact absurd hname (hothers q hq)
  constructor
  · rw [← not_iff_not, not_not, ← key_eq_none_iff hp]
    constructor
    · intro hnone
      by_contra hsome
      obtain ⟨k, hk⟩ := Option.ne_none_iff_exists'.mp hsome
      refine hnone ⟨k.param, ?_, rfl⟩
      rw [hparams, hk]
      exact List.mem_append_left _ List.mem_cons_self
    · rintro hnone ⟨q, hq, hname⟩
      obtain ⟨k, hk, -⟩ := hkey q hq hname
      rw [hnone] at hk
      cases hk
  · intro q hq hname
    obtain ⟨k, hk, rfl⟩ := hkey q hq hname
    exact keyParam_type hp hk

end Keyed

/-! ## Operations -/

theorem mem_operations_iff {r : Resource} {p : PlacedTable} {o : Operation} :
    o ∈ operations r p ↔ r.supports o.method = true ∧ o ∈ operationsOf p o.method := by
  rw [operations, List.mem_flatMap, Resource.supports, List.contains_iff_mem]
  constructor
  · rintro ⟨m, hm, ho⟩
    obtain rfl := Operation.method_of_mem ho
    exact ⟨hm, ho⟩
  · rintro ⟨hm, ho⟩
    exact ⟨_, hm, ho⟩

theorem isPublic_operationFunction (names : TypeNames) (p : PlacedTable) (o : Operation) :
    (operationFunction names p o).isPublic = true := by
  cases o <;> rfl

section Client

variable {limit : Nat} {r : Resource} {names : TypeNames} {p : PlacedTable}

/-- The functions of a client, one by one. -/
theorem mem_functions_iff {f : Function} : f ∈ (clientImpl r names p).functions
    ↔ f ∈ [newFunction, fromEndpointFunction names p, endpointFunction]
      ∨ ∃ o ∈ operations r p, f = operationFunction names p o := by
  rw [clientImpl, List.mem_append, List.mem_map]
  exact or_congr_right (exists_congr fun o => and_congr_right fun _ => eq_comm)

/-- A function with the name of an operation is that of an operation. -/
theorem operation_of_name {f : Function} (hf : f ∈ (clientImpl r names p).functions)
    (hname : f.name ∉ ["new", "from_endpoint", "endpoint"]) :
    ∃ o ∈ operations r p, f = operationFunction names p o ∧ f.name = o.name := by
  obtain hfixed | ⟨o, ho, rfl⟩ := mem_functions_iff.mp hf
  · refine absurd ?_ hname
    obtain rfl | rfl | rfl := by simpa using hfixed
    · exact List.mem_cons_self
    · exact List.mem_cons_of_mem _ List.mem_cons_self
    · exact List.mem_cons_of_mem _ (List.mem_cons_of_mem _ List.mem_cons_self)
  · exact ⟨o, ho, rfl, Operation.name_operationFunction names p o⟩

theorem offered_of_operation (hp : WellFormed limit p) {o : Operation} (ho : o ∈ operations r p) :
    Offered r p o.name := by
  obtain ⟨hmethod, hmem⟩ := mem_operations_iff.mp ho
  cases o with
  | get => exact .get hmethod
  | getByKey k =>
    refine .getByKey hmethod fun hnone => ?_
    rw [Operation.method, operationsOf, (key_eq_none_iff hp).mpr hnone] at hmem
    simp at hmem
  | post => exact .post hmethod
  | put k => exact .put hmethod
  | delete k => exact .delete hmethod

theorem operation_of_offered (hp : WellFormed limit p) {name : String} (h : Offered r p name) :
    name ∈ ["new", "endpoint"] ∨ ∃ o ∈ operations r p, o.name = name := by
  cases h with
  | new => exact .inl (by simp)
  | endpoint => exact .inl (by simp)
  | get method =>
    exact .inr ⟨.get, mem_operations_iff.mpr ⟨method, List.mem_cons_self⟩, rfl⟩
  | getByKey method key =>
    obtain ⟨k, hk⟩ := Option.ne_none_iff_exists'.mp (mt (key_eq_none_iff hp).mp key)
    refine .inr ⟨.getByKey k, mem_operations_iff.mpr ⟨method, ?_⟩, rfl⟩
    simp [operationsOf, Operation.method, hk]
  | post method =>
    exact .inr ⟨.post, mem_operations_iff.mpr ⟨method, List.mem_singleton_self _⟩, rfl⟩
  | put method =>
    exact .inr ⟨.put (Key.of? p), mem_operations_iff.mpr ⟨method, List.mem_singleton_self _⟩, rfl⟩
  | delete method =>
    exact .inr ⟨.delete (Key.of? p), mem_operations_iff.mpr ⟨method, List.mem_singleton_self _⟩, rfl⟩

theorem offered_iff (hp : WellFormed limit p) (name : String) :
    (∃ f ∈ (clientImpl r names p).functions, f.isPublic = true ∧ f.name = name)
      ↔ Offered r p name := by
  constructor
  · rintro ⟨f, hf, hpublic, rfl⟩
    obtain hfixed | ⟨o, ho, rfl⟩ := mem_functions_iff.mp hf
    · obtain rfl | rfl | rfl := by simpa using hfixed
      · exact .new
      · cases hpublic
      · exact .endpoint
    · rw [Operation.name_operationFunction]
      exact offered_of_operation hp ho
  · intro h
    obtain hfixed | ⟨o, ho, rfl⟩ := operation_of_offered hp h
    · obtain rfl | rfl := by simpa using hfixed
      · exact ⟨newFunction, mem_functions_iff.mpr (.inl (by simp)), rfl, rfl⟩
      · exact ⟨endpointFunction, mem_functions_iff.mpr (.inl (by simp)), rfl, rfl⟩
    · exact ⟨_, mem_functions_iff.mpr (.inr ⟨o, ho, rfl⟩), isPublic_operationFunction names p o,
        Operation.name_operationFunction names p o⟩

/-! ## Keys of operations -/

theorem takesKey_put (hp : WellFormed limit p) :
    TakesKey p (putFunction names p (Key.of? p)) := by
  refine takesKey_of_params hp rfl fun q hq => ?_
  rw [List.mem_singleton.mp hq]
  simp [payloadParam]

theorem takesKey_delete (hp : WellFormed limit p) : TakesKey p (deleteFunction (Key.of? p)) := by
  have hparams : (deleteFunction (Key.of? p)).params = keyParams (Key.of? p) ++ [] :=
    (List.append_nil _).symm
  exact takesKey_of_params hp hparams (by simp)

/-- An operation that changes an object takes the key of the table. -/
theorem key_of_mem {o : Operation} (ho : o ∈ operations r p) :
    (∀ k, o = .put k → k = Key.of? p) ∧ ∀ k, o = .delete k → k = Key.of? p := by
  obtain ⟨-, hmem⟩ := mem_operations_iff.mp ho
  constructor
  · rintro k rfl
    exact Operation.put.inj (List.mem_singleton.mp hmem)
  · rintro k rfl
    exact Operation.delete.inj (List.mem_singleton.mp hmem)

/-! ## Payloads -/

theorem self_notMem_keyToText (k : Option Key) :
    ∀ s ∈ keyToText k, Path.rel ["self"] ∉ s.paths := by
  intro s hs
  obtain ⟨k, -, hs⟩ := List.mem_flatMap.mp hs
  rw [Key.toText] at hs
  split at hs
  · obtain rfl | rfl := by simpa using hs
    · simp [Expr.var, Path.rel]
    · simp [Expr.var, Path.rel]
  · cases hs

/-- The record that is checked is the one that is sent. -/
theorem sendsChecked_of_body (hp : p ∈ r.tables) (check : Check) {method : String}
    {before : List Stmt} {args : List Expr} {f : Function}
    (hbody : f.body = before ++ checkedBody p check.name
      ++ [.result (.method endpointField method (args ++ [bodyRef]) false)])
    (hbefore : ∀ s ∈ before, Path.rel ["self"] ∉ s.paths) :
    SendsChecked (tree r names) p check method f := by
  refine ⟨⟨before ++ [.bindName "body"
      (.question (callPath (runtime ["Model", "to_record"]) [.var "payload"]))],
    ((validatorsModule p).child check.name).names, args, ?_, ?_, ?_⟩⟩
  · rw [hbody, checkedBody]
    simp [bodyRef, Path.child, Path.rel, validatorsModule]
  · exact ⟨⟨_, _, rfl, rfl⟩, check_located hp check⟩
  · rw [List.forall_mem_append]
    refine ⟨hbefore, fun s hs => ?_⟩
    rw [List.mem_singleton.mp hs]
    simp [Expr.var, Path.rel, runtime, Path.glob]

/-! ## Methods -/

theorem readsSingle_iff (hp : p ∈ r.tables) (hr : (PlacedTable.ofResource r).IsNamed) :
    readsSingle p = true ↔ p = .ofResource r ∧ p.mkey = none := by
  rw [readsSingle, Bool.and_eq_true, Option.isNone_iff_eq_none]
  refine and_congr_left fun _ => ⟨fun hroot => ?_, fun he => by rw [he]; rfl⟩
  have hchain : p.chain = [] := List.isEmpty_iff.mp hroot
  exact List.inj_on_of_nodup_map (PlacedTable.nodup_chains hr) hp (ofResource_mem_tables r) hchain

end Client

theorem mem_listed_iff {items : List Json} {listed : List Method}
    (h : List.Forall₂ (fun item m => ∃ word, item = .string word ∧ NamesMethod m word) items listed)
    (m : Method) : m ∈ listed ↔ ∃ word, .string word ∈ items ∧ NamesMethod m word := by
  induction h with
  | nil => simp
  | @cons item m' items listed hhead _ ih =>
    obtain ⟨word, rfl, hword⟩ := hhead
    rw [List.mem_cons, ih]
    constructor
    · rintro (rfl | ⟨word', hmem, hword'⟩)
      · exact ⟨word, List.mem_cons_self, hword⟩
      · exact ⟨word', List.mem_cons_of_mem _ hmem, hword'⟩
    · rintro ⟨word', hmem, hword'⟩
      obtain he | hmem := List.mem_cons.mp hmem
      · cases he
        -- a word names one method only
        have hsame := (namesMethod_iff.mpr hword').symm.trans (namesMethod_iff.mpr hword)
        exact .inl (Option.some.inj hsame)
      · exact .inr ⟨word', hmem, hword'⟩

/-- Order, case and repetitions in the document do not show. -/
theorem listed_iff {limit : Nat} {doc : Json} {r : Resource} {t t' : NameTable}
    (h : readResource limit doc t = (.ok r, t')) : r.methods.Sublist [.get, .post, .put, .delete]
      ∧ ∀ m, m ∈ r.methods ↔ Listed doc m := by
  obtain ⟨members, header, _, _, _, rfl, hheader, -, -, hmethods, -⟩ := readResource_ok_iff.mp h
  obtain ⟨items, listed, hitems, hnamed, hlisted⟩ := hheader.methods
  rw [hmethods, hlisted]
  refine ⟨List.filter_sublist, fun m => ?_⟩
  have hall : m ∈ Method.all := by cases m <;> decide
  rw [List.mem_filter, List.contains_iff_mem, and_iff_right hall, mem_listed_iff hnamed]
  constructor
  · rintro ⟨word, hmem, hword⟩
    exact ⟨members, items, word, rfl, hitems, hmem, hword⟩
  · rintro ⟨_, _, word, ⟨⟩, hitems', hmem, hword⟩
    rw [hitems] at hitems'
    cases hitems'
    exact ⟨word, hmem, hword⟩

/-! ## Clients -/

section Faithful

variable {limit : Nat} {r : Resource} {names : TypeNames} {p : PlacedTable}

theorem keys_faithful (hformed : WellFormed limit p) : ∀ f ∈ (clientImpl r names p).functions,
    f.name ∈ ["put", "delete"] → TakesKey p f := by
  intro f hf hname
  have hother : f.name ∉ ["new", "from_endpoint", "endpoint"] := by
    obtain he | he : f.name = "put" ∨ f.name = "delete" := by simpa using hname
    · rw [he]; decide
    · rw [he]; decide
  obtain ⟨o, ho, rfl, he⟩ := operation_of_name hf hother
  rw [he] at hname
  obtain ⟨hput, hdelete⟩ := key_of_mem ho
  cases o with
  | put k =>
    rw [hput k rfl]
    exact takesKey_put hformed
  | delete k =>
    rw [hdelete k rfl]
    exact takesKey_delete hformed
  | _ => simp [Operation.name] at hname

theorem single_faithful (hr : (PlacedTable.ofResource r).IsNamed) (hp : p ∈ r.tables) :
    ∀ f ∈ (clientImpl r names p).functions, f.name = "get" →
      ∃ value, f.returns = some (outcome value (runtimeType "ClientError"))
        ∧ (value = .named (.rel ["super", "model", names.model p])
          ↔ p = .ofResource r ∧ p.mkey = none)
        ∧ (value = applied "Vec" [.named (.rel ["super", "model", names.model p])]
          ↔ ¬ (p = .ofResource r ∧ p.mkey = none)) := by
  intro f hf hname
  obtain ⟨o, -, rfl, he⟩ := operation_of_name hf (by rw [hname]; decide)
  rw [hname] at he
  cases o with
  | get =>
    refine ⟨_, rfl, ?_⟩
    rw [← readsSingle_iff hp hr]
    cases readsSingle p <;> simp [modelRef, applied, Ty.named, Path.rel]
  | _ => simp [Operation.name] at he

theorem creates_faithful (hp : p ∈ r.tables) : ∀ f ∈ (clientImpl r names p).functions,
    f.name = "post" → SendsChecked (tree r names) p .create "post" f := by
  intro f hf hname
  obtain ⟨o, -, rfl, he⟩ := operation_of_name hf (by rw [hname]; decide)
  rw [hname] at he
  cases o with
  | post =>
    have hbody : (postFunction names p).body = [] ++ checkedBody p Check.create.name
        ++ [.result (.method endpointField "post" ([] ++ [bodyRef]) false)] := rfl
    exact sendsChecked_of_body hp .create hbody (by simp)
  | _ => simp [Operation.name] at he

theorem updates_faithful (hp : p ∈ r.tables) : ∀ f ∈ (clientImpl r names p).functions,
    f.name = "put" → SendsChecked (tree r names) p .update "put" f := by
  intro f hf hname
  obtain ⟨o, -, rfl, he⟩ := operation_of_name hf (by rw [hname]; decide)
  rw [hname] at he
  cases o with
  | put k =>
    have hbody : (putFunction names p k).body = keyToText k ++ checkedBody p Check.update.name
        ++ [.result (.method endpointField "put" ([keyArgument k] ++ [bodyRef]) false)] := rfl
    exact sendsChecked_of_body hp .update hbody (self_notMem_keyToText k)
  | _ => simp [Operation.name] at he

theorem nodup_clientConstants : ((clientConstants r p).map Constant.name).Nodup := by
  cases hk : p.mkey <;> simp [clientConstants, mkeyConstant, hk]

theorem methods_constant (r : Resource) (p : PlacedTable) :
    ∃ c ∈ clientConstants r p, c.name = "SUPPORTED_METHODS"
    ∧ c.value = .ref (.array (r.methods.map fun m => .path (methodPath m))) :=
  ⟨_, List.mem_append_right _ List.mem_cons_self, rfl, rfl⟩

end Faithful

theorem faithful_clientImpl {limit : Nat} {doc : Json} {r : Resource} {names : TypeNames}
    {p : PlacedTable} {t t' : NameTable} (h : readResource limit doc t = (.ok r, t'))
    (hready : Ready r names) (hformed : WellFormed limit p) (hp : p ∈ r.tables) :
    Faithful doc r names (tree r names) p (clientImpl r names p) := by
  obtain ⟨hsublist, hlisted⟩ := listed_iff h
  obtain ⟨c, hc, hname, hvalue⟩ := methods_constant r p
  refine ⟨offered_iff hformed, nodup_clientFunctions hready p, keys_faithful hformed,
    single_faithful hready.named hp, creates_faithful hp, updates_faithful hp,
    nodup_clientConstants, c, hc, r.methods, hname, hvalue, hsublist, fun m => ⟨?_, hlisted m⟩⟩
  rw [Resource.supports, List.contains_iff_mem]

/-- **A client offers exactly what its resource supports.** Take a resource that was read from a
document, the type names it was given in the run, and its file of clients, if it can be generated. For
the root and every nested table the file has one implementation under the name of the client of the
table. Its public functions are those that the methods and the key of the table call for, each once;
the key is taken, the answer read and the payload checked as the table asks for; and the methods are
listed in a fixed order, however the document has them. -/
theorem client_faithful {before after : List NamingStep} {limit : Nat} {doc : Json} {r : Resource}
    {t : NameTable} {names : TypeNames}
    (hread : readResource limit doc (tableFrom .empty before) = (.ok r, t))
    (hresolved : Run.ResolvedIn (before ++ .read limit doc :: after) (r, names)) {file : File}
    (hfile : source r names .client = .ok file) {p : PlacedTable} (hp : p ∈ r.tables) :
    ∃ i, (∀ j, .impl j ∈ file.items ∧ j.target = names.client p ↔ j = i)
      ∧ Faithful doc r names (tree r names) p i := by
  have hready := ready_of_run (mem_resourcesFrom_of_read hread) hresolved
  obtain ⟨-, -, -, -, -, hformed⟩ := readResource_wellFormed hread
  obtain rfl := source_ok hfile
  refine ⟨clientImpl r names p, fun j => ⟨?_, ?_⟩,
    faithful_clientImpl hread hready (hformed p hp) hp⟩
  · rintro ⟨hj, htarget⟩
    obtain ⟨q, hq, he | he⟩ := mem_typeItems.mp hj
    · cases he
    · cases he
      rw [List.inj_on_of_nodup_map hready.clients hq hp htarget]
  · rintro rfl
    exact ⟨mem_typeItems.mpr ⟨p, hp, .inr rfl⟩, rfl⟩

/-! ## A keyed table in a keyed resource -/

def portSteps : List NamingStep := [.read 1 (.object portDocument), .resolve portResource]

def portNames : TypeNames :=
  ⟨[("", ⟨"NetPort", "NetPortClient"⟩), ("links", ⟨"NetPortLinks", "NetPortLinksClient"⟩)]⟩

def linksPlaced : PlacedTable :=
  ⟨"config.net.port.links", "net/port/links", ["links"], none, some "state", [stateRead], []⟩

theorem linksPlaced_mem : linksPlaced ∈ portResource.tables := by
  have htables : portResource.tables = [.ofResource portResource, linksPlaced] := rfl
  rw [htables]
  exact List.mem_cons_of_mem _ List.mem_cons_self

theorem walk_portResource : Walk.ofResource portResource
    = .ask ⟨"model:", "NetPort"⟩ fun model => .ask ⟨"client:", "NetPortClient"⟩ fun client =>
      .ask ⟨"model:links", "NetPortLinks"⟩ fun below =>
      .ask ⟨"client:links", "NetPortLinksClient"⟩ fun inner =>
      .done ⟨[("", ⟨model, client⟩), ("links", ⟨below, inner⟩)]⟩ := rfl

theorem portResource_named : (resolve portResource .empty).1 = .ok portNames := by
  have hdotted : portResource.dottedPath = "config.net.port" := by decide
  rw [← Walk.run_ofResource, walk_portResource, hdotted]
  simp only [Walk.run, bind_apply, register, NameTable.record, ← NameTable.add.eq_1,
    NameTable.codeName?_empty, NameTable.wireName?_empty, NameTable.codeName?_add,
    NameTable.wireName?_add, Scope.types, String.reduceEq, and_false, ↓reduceIte]
  rfl

theorem portResource_resolved : Run.ResolvedIn portSteps (portResource, portNames) := by
  have hfresh : SameIn (Scope.types portResource.dottedPath) .empty
      (tableFrom .empty [.read 1 (.object portDocument)]) :=
    (program_readResource 1 (.object portDocument)).sameTypes .empty _ rfl
  exact ⟨[.read 1 (.object portDocument)], [], rfl,
    (resolve_sameIn hfresh).symm.trans portResource_named⟩

/-- The document lists `put` and `GET`, and the nested table is identified by a text. -/
theorem client_faithful_links :
    ∃ t i, readResource 1 (.object portDocument) (tableFrom .empty []) = (.ok portResource, t)
      ∧ Run.ResolvedIn portSteps (portResource, portNames)
      ∧ source portResource portNames .client = .ok (clientFile portResource portNames)
      ∧ linksPlaced ∈ portResource.tables
      ∧ (i.functions.filter Function.isPublic).map Function.name
        = ["new", "endpoint", "get", "get_by_key", "put"]
      ∧ Faithful (.object portDocument) portResource portNames (tree portResource portNames)
        linksPlaced i := by
  obtain ⟨t, hread⟩ := portDocument_read
  obtain ⟨i, hunique, hfaithful⟩ :=
    client_faithful hread portResource_resolved (by rfl) linksPlaced_mem
  refine ⟨t, i, hread, portResource_resolved, rfl, linksPlaced_mem, ?_, hfaithful⟩
  have hself := (hunique (clientImpl portResource portNames linksPlaced)).mp
    ⟨mem_typeItems.mpr ⟨_, linksPlaced_mem, .inr rfl⟩, rfl⟩
  rw [← hself]
  rfl

end RestForge.Emit
