import Mathlib.Data.List.Forall2
import Mathlib.Data.List.TakeWhile
import RestForge.Proofs.Pieces
import RestForge.Proofs.Reading

/-!
# The format of a schema

What a document must hold to describe a resource, said of the document alone, and what the readers of
its members make of that.

* `Omitted`, `OptionalText`: members that may be left out.
* `HasHeader`, `PathText`: category, path and methods.
* `HasHead`, `OptionList`: one field, without the table that may be nested in it.
* `readHeader_ok_iff`, `readFieldHead_ok_iff`: each reader succeeds exactly on what it is made for,
  whatever the place in the document.
-/

set_option autoImplicit false

namespace RestForge.Schema

open Naming Text

/-! ## Members that may be left out -/

/-- An absent member and `null` mean the same. -/
def Omitted (doc : Record) (key : String) : Prop :=
  doc.get? key = none ∨ doc.get? key = some .null

inductive OptionalText (doc : Record) (key : String) : Option String → Prop where
  | omitted (h : Omitted doc key) : OptionalText doc key none
  | text (s : String) (h : doc.get? key = some (.string s)) : OptionalText doc key (some s)

theorem present?_eq_none_iff {doc : Record} {key : String} :
    present? doc key = none ↔ Omitted doc key := by
  unfold present? Omitted
  rcases doc.get? key with _ | (_ | _ | _ | _ | _ | _) <;> simp

theorem present?_eq_some_iff {doc : Record} {key : String} {value : Json} :
    present? doc key = some value ↔ doc.get? key = some value ∧ value ≠ .null := by
  unfold present?
  rcases doc.get? key with _ | (_ | _ | _ | _ | _ | _) <;> simp
  all_goals rintro rfl; simp

theorem optionalString_ok_iff {doc : Record} {key : String} {spot : Spot} {o : Option String} :
    optionalString doc key spot = .ok o ↔ OptionalText doc key o := by
  unfold optionalString
  constructor
  · intro h
    rcases hp : present? doc key with _ | (_ | _ | _ | s | _ | _) <;> rw [hp] at h <;> cases h
    · exact .omitted (present?_eq_none_iff.mp hp)
    · exact .text s (present?_eq_some_iff.mp hp).1
  · rintro (h | ⟨s, h⟩)
    · rw [present?_eq_none_iff.mpr h]
    · rw [present?_eq_some_iff.mpr ⟨h, by simp⟩]

theorem OptionalText.unique {doc : Record} {key : String} {o o' : Option String}
    (h : OptionalText doc key o) (h' : OptionalText doc key o') : o = o' := by
  have hread : optionalString doc key (.member key) = .ok o := optionalString_ok_iff.mpr h
  rw [optionalString_ok_iff.mpr h'] at hread
  exact (Except.ok.inj hread).symm

theorem except_bind_ok_iff {ε α β : Type} {e : Except ε α} {f : α → Except ε β} {y : β} :
    (e >>= f) = .ok y ↔ ∃ x, e = .ok x ∧ f x = .ok y := by
  refine ⟨except_bind_ok, ?_⟩
  rintro ⟨x, rfl, h⟩
  exact h

/-! ## Paths -/

/-- A path is its segments with slashes between them; further slashes at both ends do not count. -/
structure PathText (raw : String) (segments : List String) : Prop where
  slashes : ∃ left right, raw.toList = List.replicate left '/'
    ++ (String.intercalate "/" segments).toList ++ List.replicate right '/'
  nonempty : segments ≠ []
  segment : ∀ s ∈ segments, s ≠ "" ∧ '/' ∉ s.toList

theorem dropWhile_replicate_append {c d : Char} {cs : List Char} (n : Nat) (h : d ≠ c) :
    (List.replicate n c ++ d :: cs).dropWhile (· == c) = d :: cs := by
  induction n with
  | zero => simp [h]
  | succ n ih => simpa [List.replicate_succ] using ih

theorem takeWhile_eq_replicate (c : Char) (cs : List Char) :
    ∃ n, cs.takeWhile (· == c) = List.replicate n c := by
  refine ⟨(cs.takeWhile (· == c)).length, List.eq_replicate_iff.mpr ⟨rfl, ?_⟩⟩
  intro d hd
  simpa using List.mem_takeWhile_imp hd

theorem intercalate_ends {segments : List String} (hne : segments ≠ [])
    (h : ∀ s ∈ segments, s ≠ "" ∧ '/' ∉ s.toList) :
    ∃ first rest last before, (String.intercalate "/" segments).toList = first :: rest
      ∧ first ≠ '/' ∧ (String.intercalate "/" segments).toList = before ++ [last]
      ∧ last ≠ '/' := by
  induction segments with
  | nil => exact absurd rfl hne
  | cons s segments ih =>
    obtain ⟨hs, hslash⟩ := h s (by simp)
    have hchars : s.toList ≠ [] := by simpa using hs
    obtain ⟨c, cs, hc⟩ := List.exists_cons_of_ne_nil hchars
    have hfirst : c ≠ '/' := by
      rintro rfl
      exact hslash (by simp [hc])
    cases segments with
    | nil =>
      have hlast := List.dropLast_append_getLast hchars
      refine ⟨c, cs, s.toList.getLast hchars, s.toList.dropLast, by simpa using hc, hfirst,
        by simpa using hlast.symm, fun he => hslash ?_⟩
      rw [← he]
      exact List.getLast_mem hchars
    | cons t segments =>
      obtain ⟨-, -, last, before, -, -, he, hlast⟩ :=
        ih (by simp) fun u hu => h u (List.mem_cons_of_mem _ hu)
      rw [String.intercalate_cons_cons]
      simp only [String.toList_append, he, hc]
      exact ⟨c, cs ++ "/".toList ++ (before ++ [last]), last, c :: cs ++ "/".toList ++ before,
        by simp, hfirst, by simp, hlast⟩

/-- Trimming and cutting find the segments of a path again. -/
theorem pathText_iff {raw : String} {segments : List String} :
    (trimWhere (· == '/') raw ≠ "" ∧ split '/' (trimWhere (· == '/') raw) = segments
      ∧ "" ∉ segments) ↔ PathText raw segments := by
  constructor
  · rintro ⟨hne, rfl, hempty⟩
    have hjoin : String.intercalate "/" (split '/' (trimWhere (· == '/') raw))
        = trimWhere (· == '/') raw := intercalate_split '/' _
    refine ⟨?_, split_ne_nil _ _, fun s hs => ⟨fun he => hempty (he ▸ hs), ?_⟩⟩
    · rw [hjoin]
      obtain ⟨left, hleft⟩ := takeWhile_eq_replicate '/' raw.toList
      obtain ⟨right, hright⟩ :=
        takeWhile_eq_replicate '/' (raw.toList.dropWhile (· == '/')).reverse
      refine ⟨left, right, ?_⟩
      have hrest : raw.toList.dropWhile (· == '/')
          = dropEndWhile (· == '/') (raw.toList.dropWhile (· == '/'))
            ++ List.replicate right '/' := by
        have hparts := congrArg List.reverse
          (List.takeWhile_append_dropWhile (p := (· == '/'))
            (l := (raw.toList.dropWhile (· == '/')).reverse))
        rw [hright, List.reverse_append, List.reverse_reverse, List.reverse_replicate] at hparts
        exact hparts.symm
      calc raw.toList
          = raw.toList.takeWhile (· == '/') ++ raw.toList.dropWhile (· == '/') :=
            List.takeWhile_append_dropWhile.symm
        _ = _ := by
            rw [hleft, List.append_assoc]
            simp only [trimWhere, String.toList_ofList]
            rw [← hrest]
    · rw [split_eq, List.mem_map] at hs
      obtain ⟨l, hl, rfl⟩ := hs
      rw [String.toList_ofList]
      exact notMem_of_mem_splitOn hl
  · rintro ⟨⟨left, right, hraw⟩, hne, hsegment⟩
    obtain ⟨first, rest, last, before, hfirst, hf, hlast, hl⟩ := intercalate_ends hne hsegment
    have htrim : trimWhere (· == '/') raw = String.intercalate "/" segments := by
      have hdrop : raw.toList.dropWhile (· == '/')
          = (String.intercalate "/" segments).toList ++ List.replicate right '/' := by
        rw [hraw, hfirst, List.append_assoc, List.cons_append]
        exact dropWhile_replicate_append left hf
      rw [trimWhere, hdrop, hlast, dropEndWhile, List.reverse_append, List.reverse_replicate,
        List.reverse_append, List.reverse_singleton, List.singleton_append,
        dropWhile_replicate_append right hl, List.reverse_cons, List.reverse_reverse, ← hlast,
        String.ofList_toList]
    have hcut : split '/' (String.intercalate "/" segments) = segments :=
      split_intercalate (fun s hs => (hsegment s hs).2) hne
    rw [htrim, hcut]
    refine ⟨fun he => ?_, rfl, fun hmem => (hsegment "" hmem).1 rfl⟩
    rw [he] at hfirst
    cases hfirst

/-! ## Header -/

inductive CategoryWord : String → Category → Prop where
  | config : CategoryWord "config" .config
  | cmdb : CategoryWord "cmdb" .config
  | monitor : CategoryWord "monitor" .monitor

/-- The name of the method in any case of its letters. -/
def NamesMethod (m : Method) (word : String) : Prop :=
  word.toList.map Char.toUpper = m.text.toList

structure HasHeader (doc : Record) (h : Header) : Prop where
  category : ∃ word, doc.get? "category" = some (.string word) ∧ CategoryWord word h.category
  path : ∃ raw, doc.get? "path" = some (.string raw) ∧ PathText raw h.segments
  methods : ∃ items listed, doc.get? "methods" = some (.array items)
    ∧ List.Forall₂ (fun item m => ∃ word, item = .string word ∧ NamesMethod m word) items listed
    ∧ h.methods = Method.all.filter listed.contains

theorem categoryWord_iff {word : String} {c : Category} :
    Category.ofSpelling? word = some c ↔ CategoryWord word c := by
  unfold Category.ofSpelling?
  constructor
  · intro h
    split at h
    · rename_i hword
      cases h
      obtain rfl | rfl : word = "config" ∨ word = "cmdb" := by simpa using hword
      · exact .config
      · exact .cmdb
    · split at h
      · rename_i hword
        cases h
        rw [hword]
        exact .monitor
      · cases h
  · rintro (_ | _ | _) <;> rfl

theorem namesMethod_iff {word : String} {m : Method} :
    Method.ofSpelling? word = some m ↔ NamesMethod m word := by
  unfold Method.ofSpelling? NamesMethod
  dsimp only
  constructor
  · intro h
    have hfound := List.find?_some h
    rw [beq_iff_eq] at hfound
    rw [hfound, String.toList_ofList]
  · intro h
    rw [h, String.ofList_toList]
    cases m <;> rfl

theorem readCategory_ok_iff {doc : Record} {c : Category} :
    readCategory doc = .ok c
      ↔ ∃ word, doc.get? "category" = some (.string word) ∧ CategoryWord word c := by
  unfold readCategory
  constructor
  · intro h
    rcases hp : present? doc "category" with _ | (_ | _ | _ | word | _ | _) <;>
      simp only [hp] at h
    case some.string =>
      cases hc : Category.ofSpelling? word with
      | none => rw [hc] at h; cases h
      | some found =>
        rw [hc] at h
        cases h
        exact ⟨word, (present?_eq_some_iff.mp hp).1, categoryWord_iff.mp hc⟩
    all_goals cases h
  · rintro ⟨word, hword, hc⟩
    rw [present?_eq_some_iff.mpr ⟨hword, by simp⟩]
    simp only [categoryWord_iff.mpr hc]

theorem readSegments_ok_iff {doc : Record} {segments : List String} :
    readSegments doc = .ok segments
      ↔ ∃ raw, doc.get? "path" = some (.string raw) ∧ PathText raw segments := by
  have hany : ∀ l : List String, l.any String.isEmpty = true ↔ "" ∈ l := by
    intro l
    simp [List.any_eq_true]
  unfold readSegments
  simp only [except_bind_ok_iff, optionalString_ok_iff]
  constructor
  · rintro ⟨_, hpath | ⟨raw, hpath⟩, h⟩
    · cases h
    · refine ⟨raw, hpath, pathText_iff.mp ?_⟩
      dsimp only at h
      generalize trimWhere (· == '/') raw = path at h ⊢
      by_cases hempty : path.isEmpty = true
      · rw [if_pos hempty] at h
        cases h
      · rw [if_neg hempty] at h
        by_cases hsegment : (split '/' path).any String.isEmpty = true
        · rw [if_pos hsegment] at h
          cases h
        · rw [if_neg hsegment] at h
          have he : split '/' path = segments := Except.ok.inj h
          rw [he, hany] at hsegment
          exact ⟨by simpa using hempty, he, hsegment⟩
  · rintro ⟨raw, hpath, htext⟩
    obtain ⟨hne, hsplit, hempty⟩ := pathText_iff.mpr htext
    refine ⟨some raw, .text raw hpath, ?_⟩
    dsimp only
    rw [if_neg (by simpa using hne), hsplit, if_neg (mt (hany _).mp hempty)]
    rfl

theorem readMethod_ok_iff {i : Nat} {item : Json} {m : Method} :
    readMethod i item = .ok m ↔ ∃ word, item = .string word ∧ NamesMethod m word := by
  constructor
  · intro h
    rcases item with _ | _ | _ | word | _ | _ <;> rw [readMethod] at h
    case string =>
      cases hm : Method.ofSpelling? word with
      | none => rw [hm] at h; cases h
      | some found =>
        rw [hm] at h
        cases h
        exact ⟨word, rfl, namesMethod_iff.mp hm⟩
    all_goals cases h
  · rintro ⟨word, rfl, hm⟩
    rw [readMethod, namesMethod_iff.mpr hm]

theorem readMethodsFrom_ok_iff {i : Nat} {items : List Json} {listed : List Method} :
    readMethodsFrom i items = .ok listed
      ↔ List.Forall₂ (fun item m => ∃ word, item = .string word ∧ NamesMethod m word)
        items listed := by
  induction items generalizing i listed with
  | nil =>
    rw [readMethodsFrom, List.forall₂_nil_left_iff]
    exact ⟨fun h => by cases h; rfl, fun h => by rw [h]⟩
  | cons item items ih =>
    rw [readMethodsFrom]
    simp only [except_bind_ok_iff, readMethod_ok_iff, ih]
    constructor
    · rintro ⟨m, hm, ms, hms, h⟩
      cases h
      exact .cons hm hms
    · rintro (_ | ⟨hm, hms⟩)
      exact ⟨_, hm, _, hms, rfl⟩

theorem readMethods_ok_iff {doc : Record} {methods : List Method} :
    readMethods doc = .ok methods
      ↔ ∃ items listed, doc.get? "methods" = some (.array items)
        ∧ List.Forall₂ (fun item m => ∃ word, item = .string word ∧ NamesMethod m word) items listed
        ∧ methods = Method.all.filter listed.contains := by
  unfold readMethods
  constructor
  · intro h
    rcases hp : present? doc "methods" with _ | (_ | _ | _ | _ | items | _) <;> simp only [hp] at h
    case some.array =>
      obtain ⟨listed, hlisted, h⟩ := except_bind_ok h
      cases h
      exact ⟨items, listed, (present?_eq_some_iff.mp hp).1, readMethodsFrom_ok_iff.mp hlisted, rfl⟩
    all_goals cases h
  · rintro ⟨items, listed, hitems, hlisted, rfl⟩
    rw [present?_eq_some_iff.mpr ⟨hitems, by simp⟩]
    exact except_bind_ok_iff.mpr ⟨listed, readMethodsFrom_ok_iff.mpr hlisted, rfl⟩

theorem readHeader_ok_iff {doc : Record} {h : Header} :
    readHeader doc = .ok h ↔ HasHeader doc h := by
  unfold readHeader
  simp only [except_bind_ok_iff, readCategory_ok_iff, readSegments_ok_iff, readMethods_ok_iff]
  constructor
  · rintro ⟨category, hcategory, segments, hsegments, methods, hmethods, he⟩
    cases he
    exact ⟨hcategory, hsegments, hmethods⟩
  · rintro ⟨hcategory, hpath, hmethods⟩
    exact ⟨_, hcategory, _, hpath, _, hmethods, rfl⟩

theorem HasHeader.unique {doc : Record} {h h' : Header} (hh : HasHeader doc h)
    (hh' : HasHeader doc h') : h = h' := by
  have hread := readHeader_ok_iff.mpr hh
  rw [readHeader_ok_iff.mpr hh'] at hread
  exact (Except.ok.inj hread).symm

/-! ## Fields -/

/-- An option is a text, or an object with a name. -/
inductive OptionText : Json → String → Prop where
  | text (s : String) : OptionText (.string s) s
  | named (members : Record) (s : String) (h : members.get? "name" = some (.string s)) :
    OptionText (.object members) s

inductive OptionList (item : Record) : List String → Prop where
  | omitted (h : Omitted item "options") : OptionList item []
  | listed (options : List Json) (texts : List String)
    (h : item.get? "options" = some (.array options))
    (each : List.Forall₂ OptionText options texts) : OptionList item texts

/-- A default that is no text is kept as the text of its value. -/
inductive DefaultText (item : Record) : Option String → Prop where
  | omitted (h : Omitted item "default") : DefaultText item none
  | text (s : String) (h : item.get? "default" = some (.string s)) : DefaultText item (some s)
  | other (value : Json) (h : item.get? "default" = some value) (hnull : value ≠ .null)
    (htext : ∀ s, value ≠ .string s) : DefaultText item (some value.compact)

structure HasHead (item : Record) (head : FieldHead) : Prop where
  name : item.get? "name" = some (.string head.name)
  named : head.name ≠ ""
  type : ∃ tag, item.get? "type" = some (.string tag)
    ∧ (tag = head.type.text ∨ tag ∈ head.type.aliases)
  required : (Omitted item "required" ∧ head.required = false)
    ∨ item.get? "required" = some (.bool head.required)
  options : OptionList item head.values
  enums : head.values ≠ [] ↔ head.type = .enum
  default : DefaultText item head.default

theorem readName_ok_iff {l : Location} {seen : List String} {item : Record} {name : String} :
    readName l seen item = .ok name
      ↔ item.get? "name" = some (.string name) ∧ name ≠ "" ∧ name ∉ seen := by
  constructor
  · intro h
    have hseen := readName_ok h
    unfold readName at h
    split at h
    · rename_i given hname
      split at h
      · cases h
      · rename_i hempty
        split at h
        · cases h
        · cases h
          exact ⟨hname, by simpa using hempty, hseen⟩
    · cases h
  · rintro ⟨hname, hne, hseen⟩
    unfold readName
    simp [hname, hne, hseen]

theorem fieldTag_iff {tag : String} {type : FieldType} :
    FieldType.ofSpelling? tag = some type ↔ tag = type.text ∨ tag ∈ type.aliases := by
  constructor
  · intro h
    have hfound := List.find?_some h
    rw [Bool.or_eq_true, beq_iff_eq, List.contains_iff_mem] at hfound
    exact hfound.imp_left Eq.symm
  · rintro (rfl | htag)
    · cases type <;> rfl
    · have hall : ∀ word ∈ type.aliases, FieldType.ofSpelling? word = some type := by
        cases type <;> decide
      exact hall tag htag

theorem readType_ok_iff {l : Location} {name : String} {item : Record} {type : FieldType} :
    readType l name item = .ok type
      ↔ ∃ tag, item.get? "type" = some (.string tag) ∧ (tag = type.text ∨ tag ∈ type.aliases) := by
  unfold readType
  constructor
  · intro h
    split at h
    · rename_i tag htag
      cases ht : FieldType.ofSpelling? tag with
      | none => rw [ht] at h; cases h
      | some found =>
        rw [ht] at h
        cases h
        exact ⟨tag, htag, fieldTag_iff.mp ht⟩
    · cases h
  · rintro ⟨tag, htag, ht⟩
    simp only [htag, fieldTag_iff.mpr ht]

theorem readRequired_ok_iff {l : Location} {item : Record} {b : Bool} :
    readRequired l item = .ok b
      ↔ (Omitted item "required" ∧ b = false) ∨ item.get? "required" = some (.bool b) := by
  unfold readRequired
  constructor
  · intro h
    rcases hp : present? item "required" with _ | (_ | given | _ | _ | _ | _) <;>
      rw [hp] at h <;> cases h
    · exact .inl ⟨present?_eq_none_iff.mp hp, rfl⟩
    · exact .inr (present?_eq_some_iff.mp hp).1
  · rintro (⟨homitted, rfl⟩ | hgiven)
    · rw [present?_eq_none_iff.mpr homitted]
    · rw [present?_eq_some_iff.mpr ⟨hgiven, by simp⟩]

theorem readOption_ok_iff {l : Location} {j : Nat} {item : Json} {s : String} :
    readOption l j item = .ok s ↔ OptionText item s := by
  constructor
  · intro h
    rcases item with _ | _ | _ | given | _ | members
    case string =>
      cases h
      exact .text _
    case object =>
      rw [readOption] at h
      split at h
      · rename_i given hname
        cases h
        exact .named members _ hname
      · cases h
    all_goals cases h
  · intro h
    cases h with
    | text => rfl
    | named members _ h => rw [readOption, h]

theorem readOptionsFrom_ok_iff {l : Location} {j : Nat} {items : List Json}
    {texts : List String} :
    readOptionsFrom l j items = .ok texts ↔ List.Forall₂ OptionText items texts := by
  induction items generalizing j texts with
  | nil =>
    rw [readOptionsFrom, List.forall₂_nil_left_iff]
    exact ⟨fun h => by cases h; rfl, fun h => by rw [h]⟩
  | cons item items ih =>
    rw [readOptionsFrom]
    simp only [except_bind_ok_iff, readOption_ok_iff, ih]
    constructor
    · rintro ⟨s, hs, ss, hss, h⟩
      cases h
      exact .cons hs hss
    · rintro (_ | ⟨hs, hss⟩)
      exact ⟨_, hs, _, hss, rfl⟩

theorem readOptions_ok_iff {l : Location} {name : String} {type : FieldType} {item : Record}
    {texts : List String} :
    readOptions l name type item = .ok texts
      ↔ OptionList item texts ∧ (texts ≠ [] ↔ type = .enum) := by
  -- once the list is read, what is left looks at the type and at whether the list is empty
  have hcheck : ∀ options : List String,
      (if type = .enum then
        if options.isEmpty then flaw (.enumWithoutOptions l name) else .ok options
      else
        if options.isEmpty then .ok options else flaw (.optionsWithoutEnum l name))
          = (.ok texts : Except Refusal (List String))
        ↔ options = texts ∧ (texts ≠ [] ↔ type = .enum) := by
    intro options
    by_cases htype : type = .enum <;> cases options <;> simp [htype, flaw] <;> grind
  unfold readOptions
  rcases hp : present? item "options" with _ | value
  · refine (hcheck []).trans ?_
    constructor
    · rintro ⟨rfl, henum⟩
      exact ⟨.omitted (present?_eq_none_iff.mp hp), henum⟩
    · rintro ⟨hlist, henum⟩
      cases hlist with
      | omitted h => exact ⟨rfl, henum⟩
      | listed options _ h each =>
        rw [present?_eq_some_iff.mpr ⟨h, by simp⟩] at hp
        cases hp
  · obtain ⟨hvalue, hnull⟩ := present?_eq_some_iff.mp hp
    constructor
    · intro h
      rcases value with _ | _ | _ | _ | options | _
      case array =>
        obtain ⟨read, hread, h⟩ := except_bind_ok h
        obtain ⟨rfl, henum⟩ := (hcheck read).mp h
        exact ⟨.listed options read hvalue (readOptionsFrom_ok_iff.mp hread), henum⟩
      all_goals cases h
    · rintro ⟨hlist, henum⟩
      cases hlist with
      | omitted h =>
        rw [present?_eq_none_iff.mpr h] at hp
        cases hp
      | listed options _ h each =>
        obtain rfl : value = .array options := Option.some.inj (hvalue.symm.trans h)
        exact except_bind_ok_iff.mpr
          ⟨texts, readOptionsFrom_ok_iff.mpr each, (hcheck texts).mpr ⟨rfl, henum⟩⟩

theorem readDefault_eq_iff {item : Record} {o : Option String} :
    readDefault item = o ↔ DefaultText item o := by
  unfold readDefault
  constructor
  · rintro rfl
    rcases hp : present? item "default" with _ | (_ | _ | _ | s | _ | _)
    · exact .omitted (present?_eq_none_iff.mp hp)
    · exact absurd rfl (present?_eq_some_iff.mp hp).2
    case some.string => exact .text s (present?_eq_some_iff.mp hp).1
    all_goals
      exact .other _ (present?_eq_some_iff.mp hp).1 (present?_eq_some_iff.mp hp).2 (by simp)
  · rintro (h | ⟨s, h⟩ | ⟨value, h, hnull, htext⟩)
    · rw [present?_eq_none_iff.mpr h]
    · rw [present?_eq_some_iff.mpr ⟨h, by simp⟩]
    · rw [present?_eq_some_iff.mpr ⟨h, hnull⟩]
      cases value <;> first | rfl | exact absurd rfl (htext _)

theorem readFieldHead_ok_iff {l : Location} {seen : List String} {item : Record}
    {head : FieldHead} :
    readFieldHead l seen item = .ok head ↔ HasHead item head ∧ head.name ∉ seen := by
  unfold readFieldHead
  simp only [except_bind_ok_iff, readName_ok_iff, readType_ok_iff, readRequired_ok_iff,
    readOptions_ok_iff]
  constructor
  · rintro ⟨name, ⟨hname, hne, hseen⟩, type, htype, required, hrequired, values, ⟨hvalues, henum⟩, he⟩
    cases he
    exact ⟨⟨hname, hne, htype, hrequired, hvalues, henum, readDefault_eq_iff.mp rfl⟩, hseen⟩
  · rintro ⟨⟨hname, hne, htype, hrequired, hvalues, henum, hdefault⟩, hseen⟩
    refine ⟨_, ⟨hname, hne, hseen⟩, _, htype, _, hrequired, _, ⟨hvalues, henum⟩, ?_⟩
    rw [readDefault_eq_iff.mpr hdefault]
    rfl

end RestForge.Schema
