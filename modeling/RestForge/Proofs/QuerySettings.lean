import RestForge.Proofs.RecordViews
import RestForge.Rest.Query

/-!
# Settings and the query that they make

The parameters of a read are set by calls, in any order and number. What is sent can be told from
the calls: a named parameter comes from the calls that name it, and anything else from the raw
parameters.

* `named?`, `supplied`: what a call sets by name, and the raw parameters that it adds.
* `namedText?`, `rawText?`: what calls leave of a named parameter and of a raw one.
* `Settled`: parameters that hold just what calls leave; `Settled.set`, `settled_ofSettings`: one
  call and all calls keep it so.
* `get?_query`: the value of each key; `query_ext`: the values make the query.
* `query_of_settings`: the query of any calls, and calls that can be exchanged.
-/

set_option autoImplicit false

namespace RestForge.Rest

/-! ## What calls leave -/

namespace ParamSetting

/-- The parameter that a call sets by its name, and the text it gives to it. -/
def named? : ParamSetting → Option (String × String)
  | vdom value => some ("vdom", value)
  | filter value => some ("filter", value)
  | format field => some ("format", field)
  | start value => some ("start", value.repr)
  | count value => some ("count", value.repr)
  | withMeta value => some ("with_meta", if value then "true" else "false")
  | datasource value => some ("datasource", if value then "true" else "false")
  | extra _ _ | withExtra _ => none

/-- The raw parameters that a call adds. -/
def supplied : ParamSetting → Query
  | extra key value => [(key, value)]
  | withExtra params => Query.ofList params
  | _ => []

def text? (key : String) (s : ParamSetting) : Option String :=
  s.named?.bind fun p => if p.1 = key then some p.2 else none

/-- The parameter that a call sets by its name; all calls that add raw parameters are alike. -/
def name? (s : ParamSetting) : Option String := s.named?.map Prod.fst

end ParamSetting

/-- The texts that calls gave to a named parameter, in their order. -/
def textsOf (settings : List ParamSetting) (key : String) : List String :=
  settings.filterMap (ParamSetting.text? key)

/-- The last text counts, but of the fields asked for all do. -/
def namedText? (settings : List ParamSetting) (key : String) : Option String :=
  if key = "format" ∧ textsOf settings key ≠ [] then
    some (String.intercalate "|" (textsOf settings key))
  else (textsOf settings key).getLast?

/-- The last call that adds the raw parameter counts. -/
def rawText? (settings : List ParamSetting) (key : String) : Option String :=
  (settings.filterMap fun s => s.supplied.get? key).getLast?

/-! ## One call -/

/-- The named parameters in the order in which they are written. -/
def paramNames : List String :=
  ["vdom", "filter", "format", "start", "count", "with_meta", "datasource"]

namespace GetParams

def values (p : GetParams) : List (Option String) :=
  [p.vdom, p.filter, p.formatText?, p.start.map Nat.repr, p.count.map Nat.repr,
    p.withMeta.map boolText, p.datasource.map boolText]

theorem named_eq (p : GetParams) : p.named
    = (paramNames.zip p.values).filterMap fun param => param.2.map fun value => (param.1, value) :=
  rfl

end GetParams

theorem GetParams.boolText_eq (b : Bool) : boolText b = if b then "true" else "false" := by
  cases b <;> rfl

theorem textsOf_concat (settings : List ParamSetting) (s : ParamSetting) (key : String) :
    textsOf (settings ++ [s]) key = textsOf settings key ++ (s.text? key).toList := by
  rw [textsOf, List.filterMap_append, ← textsOf]
  cases hs : s.text? key <;> simp [hs]

theorem namedText?_concat (settings : List ParamSetting) (s : ParamSetting) (key : String) :
    namedText? (settings ++ [s]) key = match s.text? key with
      | none => namedText? settings key
      | some text => some (if key = "format" then
          String.intercalate "|" (textsOf settings key ++ [text]) else text) := by
  unfold namedText?
  rw [textsOf_concat]
  cases s.text? key with
  | none => rw [Option.toList_none, List.append_nil]
  | some text => by_cases hkey : key = "format" <;> simp [hkey]

theorem rawText?_concat (settings : List ParamSetting) (s : ParamSetting) (key : String) :
    rawText? (settings ++ [s]) key = (s.supplied.get? key).or (rawText? settings key) := by
  rw [rawText?, rawText?, List.filterMap_append, List.getLast?_append]
  cases hs : s.supplied.get? key <;> simp [hs]

/-- Parameters that hold just what calls leave. -/
structure Settled (settings : List ParamSetting) (p : GetParams) : Prop where
  format : p.format = textsOf settings "format"
  values : p.values = paramNames.map (namedText? settings)
  extra : ∀ key, p.extra.get? key = rawText? settings key
  sorted : KeyedList.Sorted p.extra

/-- Raw parameters are put over those that are there. -/
theorem get?_insertAll (params : List (String × String)) (q : Query) (key : String) :
    (q.insertAll params).get? key = ((Query.ofList params).get? key).or (q.get? key) := by
  have hparams : (Query.ofList params).get? key = params.reverse.lookup key :=
    KeyedList.get?_ofList params key
  rw [hparams]
  exact KeyedList.get?_insertEach params q key

theorem Settled.values_set {settings : List ParamSetting} {p : GetParams} (h : Settled settings p)
    (s : ParamSetting) : (p.set s).values = paramNames.map (namedText? (settings ++ [s])) := by
  have hvalues := h.values
  simp only [GetParams.values, GetParams.formatText?, h.format, List.isEmpty_iff, paramNames,
    List.map_cons, List.map_nil, List.cons.injEq, and_true] at hvalues
  -- a call changes the one value that it names
  cases s <;> simp [GetParams.values, GetParams.formatText?, GetParams.set, paramNames,
    namedText?_concat, ParamSetting.text?, ParamSetting.named?, h.format, GetParams.boolText_eq,
    hvalues]

theorem Settled.set {settings : List ParamSetting} {p : GetParams} (h : Settled settings p)
    (s : ParamSetting) : Settled (settings ++ [s]) (p.set s) := by
  refine ⟨?_, h.values_set s, fun key => ?_, ?_⟩
  · rw [textsOf_concat, ← h.format]
    cases s <;> simp [GetParams.set, ParamSetting.text?, ParamSetting.named?]
  · rw [rawText?_concat, ← h.extra]
    cases s with
    | extra k value => exact get?_insertAll [(k, value)] p.extra key
    | withExtra params => exact get?_insertAll params p.extra key
    | _ => rfl
  · cases s with
    | extra k value => exact KeyedList.sorted_alter h.sorted _ _
    | withExtra params => exact KeyedList.sorted_insertEach params h.sorted
    | _ => exact h.sorted

/-! ## All calls -/

theorem settled_ofSettings (settings : List ParamSetting) :
    Settled settings (GetParams.ofSettings settings) := by
  induction settings using List.reverseRecOn with
  | nil => exact ⟨rfl, rfl, fun _ => rfl, .nil⟩
  | append_singleton settings s ih =>
    rw [GetParams.ofSettings, List.foldl_concat]
    exact ih.set s

/-- Of the values that are set each is found under its name. -/
theorem lookup_reverse_named (names : List String) (f : String → Option String) (key : String) :
    (names.filterMap fun name => (f name).map fun value => (name, value)).reverse.lookup key
      = if key ∈ names then f key else none := by
  induction names with
  | nil => rfl
  | cons name names ih =>
    cases hf : f name with
    | none =>
      rw [List.filterMap_cons_none (by rw [hf]; rfl), ih]
      by_cases hkey : key = name <;> simp [hkey, hf]
    | some value =>
      rw [List.filterMap_cons_some (by rw [hf]; rfl), List.reverse_cons, List.lookup_append, ih]
      by_cases hkey : key = name
      · subst hkey
        by_cases hmem : key ∈ names <;> simp [hmem, hf]
      · have hne : (key == name) = false := by simp [hkey]
        simp [List.lookup_cons, hkey, hne]

theorem mem_paramNames_of_text? {key text : String} {s : ParamSetting}
    (h : s.text? key = some text) : key ∈ paramNames := by
  cases s <;> simp [ParamSetting.text?, ParamSetting.named?] at h <;> simp [paramNames, ← h.1]

theorem namedText?_of_notMem {settings : List ParamSetting} {key : String} (h : key ∉ paramNames) :
    namedText? settings key = none := by
  have hnone : textsOf settings key = [] :=
    List.filterMap_eq_nil_iff.mpr fun s _ => Option.eq_none_iff_forall_ne_some.mpr fun text ht =>
      h (mem_paramNames_of_text? ht)
  simp [namedText?, hnone]

section Query

variable (settings : List ParamSetting)

theorem get?_query (key : String) : (GetParams.ofSettings settings).query.get? key
    = (namedText? settings key).or (rawText? settings key) := by
  obtain ⟨-, hvalues, hextra, -⟩ := settled_ofSettings settings
  have hnamed : (GetParams.ofSettings settings).named.reverse.lookup key
      = namedText? settings key := by
    rw [GetParams.named_eq, hvalues, ← List.map_prod_left_eq_zip, List.filterMap_map]
    refine (lookup_reverse_named paramNames (namedText? settings) key).trans ?_
    split
    · rfl
    · rename_i hkey
      exact (namedText?_of_notMem hkey).symm
  rw [← hnamed, ← hextra]
  exact KeyedList.get?_insertEach _ _ key

theorem sorted_query : KeyedList.Sorted (GetParams.ofSettings settings).query :=
  KeyedList.sorted_insertEach _ (settled_ofSettings settings).sorted

theorem isSome_namedText? (key : String) :
    (namedText? settings key).isSome ↔ ∃ s ∈ settings, (s.text? key).isSome := by
  have htexts : textsOf settings key ≠ [] ↔ ∃ s ∈ settings, (s.text? key).isSome := by
    simp [textsOf, List.filterMap_eq_nil_iff, Option.isSome_iff_ne_none]
  rw [← htexts, namedText?]
  split
  · rename_i h
    simp [h.2]
  · exact List.getLast?_isSome

theorem isSome_rawText? (key : String) :
    (rawText? settings key).isSome ↔ ∃ s ∈ settings, (s.supplied.get? key).isSome := by
  rw [rawText?, List.getLast?_isSome]
  simp [List.filterMap_eq_nil_iff, Option.isSome_iff_ne_none]

theorem mem_query_iff (key : String) : key ∈ (GetParams.ofSettings settings).query.map Prod.fst
    ↔ ∃ s ∈ settings, (s.text? key).isSome ∨ (s.supplied.get? key).isSome := by
  have hget := get?_query settings key
  rw [Query.get?] at hget
  rw [← KeyedList.get?_isSome_iff, hget, Option.isSome_or, Bool.or_eq_true, isSome_namedText?,
    isSome_rawText?]
  simp only [and_or_left, exists_or]

end Query

/-! ## Exchange -/

theorem filterMap_exchange {α β : Type} {f : α → Option β} {a b : α} (h : f a = none ∨ f b = none)
    (before after : List α) : (before ++ a :: b :: after).filterMap f
      = (before ++ b :: a :: after).filterMap f := by
  obtain h | h := h <;> simp [List.filterMap_append, List.filterMap_cons, h]

theorem ParamSetting.name?_of_text? {s : ParamSetting} {key text : String}
    (h : s.text? key = some text) : s.name? = some key := by
  obtain ⟨p, hp, htext⟩ := Option.bind_eq_some_iff.mp h
  obtain ⟨hkey, -⟩ := Option.ite_none_right_eq_some.mp htext
  rw [name?, hp, Option.map_some, hkey]

theorem ParamSetting.text?_none_or {a b : ParamSetting} (h : a.name? ≠ b.name?) (key : String) :
    a.text? key = none ∨ b.text? key = none := by
  cases ha : a.text? key with
  | none => exact .inl rfl
  | some text =>
    refine .inr (Option.eq_none_iff_forall_ne_some.mpr fun other hb => h ?_)
    rw [name?_of_text? ha, name?_of_text? hb]

theorem ParamSetting.supplied_none_or {a b : ParamSetting} (h : a.name? ≠ b.name?) (key : String) :
    a.supplied.get? key = none ∨ b.supplied.get? key = none := by
  have hnamed : ∀ s : ParamSetting, s.name? ≠ none → s.supplied.get? key = none := by
    intro s hs
    cases s with
    | extra | withExtra => exact absurd rfl hs
    | _ => rfl
  by_cases ha : a.name? = none
  · exact .inr (hnamed b fun hb => h (ha.trans hb.symm))
  · exact .inl (hnamed a ha)

theorem query_ext {settings settings' : List ParamSetting}
    (hnamed : ∀ key, textsOf settings' key = textsOf settings key)
    (hraw : ∀ key, rawText? settings' key = rawText? settings key) :
    (GetParams.ofSettings settings').query = (GetParams.ofSettings settings).query := by
  refine KeyedList.sorted_ext (sorted_query settings) (sorted_query settings') fun key => ?_
  have hget := get?_query settings' key
  rw [namedText?, hnamed, hraw, ← namedText?, ← get?_query] at hget
  exact hget

theorem query_exchange {a b : ParamSetting} (h : a.name? ≠ b.name?)
    (before after : List ParamSetting) :
    (GetParams.ofSettings (before ++ b :: a :: after)).query
      = (GetParams.ofSettings (before ++ a :: b :: after)).query :=
  query_ext
    (fun key => filterMap_exchange (ParamSetting.text?_none_or h key).symm before after)
    (fun key => congrArg List.getLast?
      (filterMap_exchange (ParamSetting.supplied_none_or h key).symm before after))

/-- The query that calls make. -/
structure QueryOf (settings : List ParamSetting) (q : Query) : Prop where
  /-- A named parameter is over a raw one of the same name, whichever was set first. -/
  value : ∀ key, q.get? key = (namedText? settings key).or (rawText? settings key)
  keys : ∀ key, key ∈ q.map Prod.fst
    ↔ ∃ s ∈ settings, (s.text? key).isSome ∨ (s.supplied.get? key).isSome
  sorted : KeyedList.Sorted q
  exchange : ∀ before a b after, settings = before ++ a :: b :: after → a.name? ≠ b.name? →
    (GetParams.ofSettings (before ++ b :: a :: after)).query = q

/-- **The query of any calls.** A named parameter has the text of the last call that set it, all the
fields asked for being one text, and any other key the value of the last call that added it; a key
that no call gave is not there. Neighbouring calls can be exchanged unless they set the same named
parameter or both add raw ones. -/
theorem query_of_settings (settings : List ParamSetting) :
    QueryOf settings (GetParams.ofSettings settings).query := by
  refine ⟨get?_query settings, mem_query_iff settings, sorted_query settings, ?_⟩
  rintro before a b after rfl h
  exact query_exchange h before after

end RestForge.Rest
