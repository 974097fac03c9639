import RestForge.Proofs.TokenPaths

/-!
# Paths in a tree

* `Expr.paths`, `Stmt.paths`, `Function.paths`, …: the paths in a tree, those of the file and those that
  lead out.
* `Stmt.isEnded`: only the last statement of a block leaves out the semicolon.
* `Function.sealed`, `StructItem.sealed`, `ImplItem.sealed`: if the paths in a tree have a property,
  then so do those in its tokens.
-/

set_option autoImplicit false

namespace RestForge.Source

/-! ## Paths in a tree -/

namespace Ty

mutual

@[simp] def paths : Ty → List Path
  | path p args => p :: pathsAll args
  | ref _ target => target.paths
  | slice item => item.paths
  | tuple items => pathsAll items
  | dyn bound => [bound]

@[simp] def pathsAll : List Ty → List Path
  | [] => []
  | t :: ts => t.paths ++ pathsAll ts

end

end Ty

@[simp] def Pattern.paths : Pattern → List Path
  | name _ => []
  | tuple _ => []
  | variant p arg => p :: arg.paths
  | record p _ => [p]

namespace Expr

mutual

@[simp] def paths : Expr → List Path
  | path p => [p]
  | text _ => []
  | int _ => []
  | ref e => e.paths
  | deref e => e.paths
  | question e => e.paths
  | call f args _ => f.paths ++ pathsAll args
  | method receiver _ args _ => receiver.paths ++ pathsAll args
  | field base _ => base.paths
  | array items => pathsAll items
  | tuple items => pathsAll items
  | record p fields rest => p :: pathsFields fields ++ if rest then [defaultValue] else []
  | closure _ body => body.paths
  | invoke _ _ args => pathsAll args

@[simp] def pathsAll : List Expr → List Path
  | [] => []
  | e :: es => e.paths ++ pathsAll es

@[simp] def pathsFields : List FieldInit → List Path
  | [] => []
  | .same _ :: fields => pathsFields fields
  | .value _ e :: fields => e.paths ++ pathsFields fields

end

end Expr

namespace Stmt

mutual

@[simp] def paths : Stmt → List Path
  | bind _ pattern value => pattern.paths ++ value.paths
  | expr e _ => e.paths
  | forEach _ items body => items.paths ++ pathsAll body
  | choose on arms => on.paths ++ pathsArms arms

@[simp] def pathsAll : List Stmt → List Path
  | [] => []
  | s :: ss => s.paths ++ pathsAll ss

@[simp] def pathsArms : List Arm → List Path
  | [] => []
  | .block pattern body :: arms => pattern.paths ++ pathsAll body ++ pathsArms arms
  | .value pattern body :: arms => pattern.paths ++ body.paths ++ pathsArms arms

end

/-- Only an expression without a semicolon is open to what follows it. -/
@[simp] def hasEnd : Stmt → Bool
  | expr _ semicolon => semicolon
  | _ => true

mutual

/-- In every block, only the last statement may be open. -/
@[simp] def isEnded : Stmt → Bool
  | bind .. => true
  | expr .. => true
  | forEach _ _ body => isEndedAll body
  | choose _ arms => isEndedArms arms

@[simp] def isEndedAll : List Stmt → Bool
  | [] => true
  | s :: ss => s.isEnded && (s.hasEnd || ss.isEmpty) && isEndedAll ss

@[simp] def isEndedArms : List Arm → Bool
  | [] => true
  | .block _ body :: arms => isEndedAll body && isEndedArms arms
  | .value _ _ :: arms => isEndedArms arms

end

end Stmt

@[simp] def Attribute.paths : Attribute → List Path
  | derive traits => traits
  | _ => []

@[simp] def Constant.paths (c : Constant) : List Path :=
  c.attrs.flatMap Attribute.paths ++ c.type.paths ++ c.value.paths

@[simp] def Function.paths (f : Function) : List Path :=
  f.attrs.flatMap Attribute.paths ++ f.params.flatMap (fun p => p.type.paths)
    ++ f.returns.toList.flatMap Ty.paths ++ Stmt.pathsAll f.body

@[simp] def StructField.paths (f : StructField) : List Path :=
  f.attrs.flatMap Attribute.paths ++ f.type.paths

@[simp] def StructItem.paths (s : StructItem) : List Path :=
  s.attrs.flatMap Attribute.paths ++ s.fields.flatMap StructField.paths

@[simp] def ImplItem.paths (i : ImplItem) : List Path :=
  i.trait?.toList ++ i.constants.flatMap Constant.paths ++ i.functions.flatMap Function.paths

theorem Expr.pathsAll_eq (es : List Expr) : pathsAll es = es.flatMap paths := by
  induction es with
  | nil => rfl
  | cons e es ih => rw [pathsAll, ih, List.flatMap_cons]

theorem Expr.mem_pathsFields {fields : List FieldInit} {p : Path} :
    p ∈ pathsFields fields ↔ ∃ name e, .value name e ∈ fields ∧ p ∈ e.paths := by
  induction fields with
  | nil => simp
  | cons f fields ih => cases f <;> simp [ih, or_and_right, exists_or, and_assoc]

theorem Stmt.pathsAll_eq (ss : List Stmt) : pathsAll ss = ss.flatMap paths := by
  induction ss with
  | nil => rfl
  | cons s ss ih => rw [pathsAll, ih, List.flatMap_cons]

/-- Statements that are not open may stand in front of a block. -/
theorem Stmt.isEndedAll_append {ss ss' : List Stmt}
    (h : ∀ s ∈ ss, s.isEnded = true ∧ s.hasEnd = true) :
    isEndedAll (ss ++ ss') = isEndedAll ss' := by
  induction ss with
  | nil => rfl
  | cons s ss ih =>
    rw [List.forall_mem_cons] at h
    rw [List.cons_append, isEndedAll, h.1.1, h.1.2, ih h.2]
    rfl

/-! ## Tokens of a tree -/

section Tree

variable {P : Path → Prop}

namespace Ty

mutual

theorem within : ∀ t : Ty, (∀ p ∈ t.paths, P p) → Within P t.tokens
  | path p [], h => Path.within (h p (by simp [paths]))
  | path p (arg :: args), h => by
    rw [paths, List.forall_mem_cons] at h
    have hargs := withinAll (arg :: args) h.2
    rw [tokensAll] at hargs
    have hbetween := (((Path.within h.1).then_mark '<').append_within (.commaSeparated hargs false))
    exact (hbetween.then_mark '>').within
  | ref isStatic target, h => by
    have htarget := within target h
    cases isStatic with
    | false => exact (Sealed.mark '&' false).append_within htarget
    | true =>
      have hlifetime : Sealed P (Source.mark '&' ++ lifetime) :=
        (Sealed.mark '&' false).append ((Sealed.mark '\'' true).append (.word (by decide)))
      exact hlifetime.append_within htarget
  | slice item, h => (Sealed.group .bracket (within item h)).within
  | tuple items, h => (Sealed.group .paren (.commaSeparated (withinAll items h) false)).within
  | dyn bound, h =>
    (Sealed.word (by decide)).append_within (Path.within (h bound (by simp [paths])))

theorem withinAll : ∀ ts : List Ty, (∀ p ∈ pathsAll ts, P p) → ∀ part ∈ tokensAll ts, Within P part
  | [], _ => by simp [tokensAll]
  | t :: ts, h => by
    rw [pathsAll, List.forall_mem_append] at h
    exact List.forall_mem_cons.mpr ⟨within t h.1, withinAll ts h.2⟩

end

end Ty

theorem Pattern.within : ∀ t : Pattern, (∀ p ∈ t.paths, P p) → Within P t.tokens
  | name n, _ => .word n
  | tuple names, _ => by
    have hnames : ∀ part ∈ names.map word, Within P part :=
      List.forall_mem_map.mpr fun n _ => .word n
    exact (Sealed.group .paren (.commaSeparated hnames false)).within
  | variant p arg, h => by
    rw [paths, List.forall_mem_cons] at h
    exact ((Path.within h.1).then_group .paren (Pattern.within arg h.2)).within
  | record p fields, h => by
    have hfields : Sealed P (fields.flatMap fun f => word f ++ mark ',') :=
      .flatMap fun f _ => (Within.word f).then_mark ','
    have hinside := (hfields.append (.marks ['.', '.'])).within
    exact ((Path.within (h p (by simp [paths]))).then_group .brace hinside).within

namespace Expr

mutual

theorem within : ∀ e : Expr, (∀ p ∈ e.paths, P p) → Within P e.tokens
  | path p, h => Path.within (h p (by simp [paths]))
  | text _, _ => (Sealed.literal _).within
  | int _, _ => (Sealed.literal _).within
  | ref e, h => (Sealed.mark '&' false).append_within (within e h)
  | deref e, h => (Sealed.mark '*' false).append_within (within e h)
  | question e, h => ((within e h).then_mark '?').within
  | call f args trailing, h => by
    rw [paths, List.forall_mem_append] at h
    exact ((within f h.1).then_group .paren (.commaSeparated (withinAll args h.2) trailing)).within
  | method receiver name args trailing, h => by
    rw [paths, List.forall_mem_append] at h
    have hname := ((within receiver h.1).then_mark '.').then_name name
    exact (hname.then_group .paren (.commaSeparated (withinAll args h.2) trailing)).within
  | field base name, h => ((within base h).then_mark '.').then_name name
  | array items, h => (Sealed.group .bracket (.commaSeparated (withinAll items h) false)).within
  | tuple items, h => (Sealed.group .paren (.commaSeparated (withinAll items h) false)).within
  | record p fields rest, h => by
    rw [paths, List.cons_append, List.forall_mem_cons, List.forall_mem_append] at h
    have hrest :
        Sealed P (if rest then marks ['.', '.'] ++ defaultValue.tokens ++ parens [] else []) := by
      cases rest with
      | false => exact .nil
      | true =>
        have hdefault := Path.within (h.2.2 defaultValue (by simp))
        exact ((Sealed.marks ['.', '.']).append_within hdefault).then_group .paren Sealed.nil.within
    exact ((Path.within h.1).then_group .brace ((sealedFields fields h.2.1).append hrest).within).within
  | closure param body, h =>
    (((Sealed.mark '|' false).then_name param).then_mark '|').append_within (within body h)
  | invoke name d args, h =>
    (((Within.word name).then_mark '!').append
      (.group d (.commaSeparated (withinAll args h) false))).within

theorem withinAll : ∀ es : List Expr, (∀ p ∈ pathsAll es, P p) →
    ∀ part ∈ tokensAll es, Within P part
  | [], _ => by simp [tokensAll]
  | e :: es, h => by
    rw [pathsAll, List.forall_mem_append] at h
    exact List.forall_mem_cons.mpr ⟨within e h.1, withinAll es h.2⟩

theorem sealedFields : ∀ fields : List FieldInit, (∀ p ∈ pathsFields fields, P p) →
    Sealed P (tokensFields fields)
  | [], _ => .nil
  | .same name :: fields, h => ((Within.word name).then_mark ',').append (sealedFields fields h)
  | .value name e :: fields, h => by
    rw [pathsFields, List.forall_mem_append] at h
    have hvalue := ((Within.word name).then_mark ':').append_within (within e h.1)
    exact (hvalue.then_mark ',').append (sealedFields fields h.2)

end

end Expr

namespace Stmt

mutual

theorem within : ∀ s : Stmt, s.isEnded = true → (∀ p ∈ s.paths, P p) →
    Within P s.tokens ∧ (s.hasEnd = true → Sealed P s.tokens)
  | bind isMutable pattern value, _, h => by
    rw [paths, List.forall_mem_append] at h
    have hlet : Sealed P (word "let" ++ if isMutable then word "mut" else []) := by
      cases isMutable with
      | false => exact (Sealed.word (by decide)).append .nil
      | true => exact (Sealed.word (by decide)).append (.word (by decide))
    have hpattern := (hlet.append_within (pattern.within h.1)).then_mark '='
    have hsealed := (hpattern.append_within (value.within h.2)).then_mark ';'
    exact ⟨hsealed.within, fun _ => hsealed⟩
  | expr e true, _, h =>
    have hsealed := (e.within h).then_mark ';'
    ⟨hsealed.within, fun _ => hsealed⟩
  | expr e false, _, h => by
    rw [tokens, if_neg Bool.false_ne_true, List.append_nil]
    exact ⟨e.within h, fun hend => absurd hend Bool.false_ne_true⟩
  | forEach name items body, he, h => by
    rw [paths, List.forall_mem_append] at h
    have hname : Within P (word "for" ++ word name) := (Sealed.word (by decide)).then_name name
    have hin : Sealed P (word "for" ++ word name ++ word "in") :=
      hname.append (.word (by decide)) fun _ => rfl
    have hsealed := (hin.append_within (items.within h.1)).then_group .brace (withinAll body he h.2)
    exact ⟨hsealed.within, fun _ => hsealed⟩
  | choose on arms, he, h => by
    rw [paths, List.forall_mem_append] at h
    have hon : Within P (word "match" ++ on.tokens) :=
      (Sealed.word (by decide)).append_within (on.within h.1)
    have hsealed := hon.then_group .brace (sealedArms arms he h.2).within
    exact ⟨hsealed.within, fun _ => hsealed⟩

theorem withinAll : ∀ ss : List Stmt, isEndedAll ss = true → (∀ p ∈ pathsAll ss, P p) →
    Within P (tokensAll ss)
  | [], _, _ => Sealed.nil.within
  | s :: ss, he, h => by
    rw [pathsAll, List.forall_mem_append] at h
    rw [isEndedAll, Bool.and_eq_true, Bool.and_eq_true, Bool.or_eq_true] at he
    obtain ⟨hopen, hsealed⟩ := within s he.1.1 h.1
    rw [tokensAll]
    obtain hend | hlast := he.1.2
    · exact (hsealed hend).append_within (withinAll ss he.2 h.2)
    · rw [List.isEmpty_iff.mp hlast, tokensAll, List.append_nil]
      exact hopen

theorem sealedArms : ∀ arms : List Arm, isEndedArms arms = true → (∀ p ∈ pathsArms arms, P p) →
    Sealed P (tokensArms arms)
  | [], _, _ => .nil
  | .block pattern body :: arms, he, h => by
    rw [pathsArms, List.forall_mem_append, List.forall_mem_append] at h
    rw [isEndedArms, Bool.and_eq_true] at he
    have hblock := (pattern.within h.1.1).then_arrow.append (.group .brace (withinAll body he.1 h.1.2))
    exact hblock.append (sealedArms arms he.2 h.2)
  | .value pattern body :: arms, he, h => by
    rw [pathsArms, List.forall_mem_append, List.forall_mem_append] at h
    have hvalue := (pattern.within h.1.1).then_arrow.append_within (body.within h.1.2)
    exact (hvalue.then_mark ',').append (sealedArms arms he h.2)

end

end Stmt

theorem Attribute.sealed {a : Attribute} (h : ∀ p ∈ a.paths, P p) : Sealed P a.tokens := by
  have harguments : Sealed P a.arguments := by
    cases a with
    | doc text => exact (Sealed.mark '=' false).append (.literal _)
    | derive traits =>
      have htraits : ∀ part ∈ traits.map Path.tokens, Within P part :=
        List.forall_mem_map.mpr fun p hp => Path.within (h p hp)
      exact .group .paren (.commaSeparated htraits false)
    | test => exact .nil
    | testOnly => exact .group .paren (.word _)
    | rename wire =>
      have heq : ∀ w s, w ∉ outward → Sealed P (word w ++ mark '=' ++ Source.text s) :=
        fun w s hw => ((Sealed.word hw).append (.mark '=' false)).append (.literal _)
      have hdefault : Sealed P (word "default" ++ mark ',') :=
        (Sealed.word (by decide)).append (.mark ',' false)
      have hrename := (heq "rename" wire (by decide)).append (.mark ',' false)
      have hskip := heq "skip_serializing_if" "Option::is_none" (by decide)
      have hall := (hrename.append hdefault).append hskip
      simp only [← List.append_assoc] at hall
      exact .group .paren hall.within
  have hname : a.name ∉ outward := by cases a <;> simp [name, outward]
  exact (Sealed.mark '#' false).append (.group .bracket ((Sealed.word hname).append harguments).within)

theorem sealed_attributes {attrs : List Attribute} (h : ∀ p ∈ attrs.flatMap Attribute.paths, P p) :
    Sealed P (attributeTokens attrs) :=
  .flatMap fun _ ha => Attribute.sealed fun p hp => h p (List.mem_flatMap.mpr ⟨_, ha, hp⟩)

theorem sealed_visibility (isPublic : Bool) : Sealed P (visibilityTokens isPublic) := by
  cases isPublic with
  | false => exact .nil
  | true => exact .word (by decide)

theorem Constant.sealed {c : Constant} (h : ∀ p ∈ c.paths, P p) : Sealed P c.tokens := by
  rw [paths, List.forall_mem_append, List.forall_mem_append] at h
  have hword := ((sealed_attributes h.1.1).append (sealed_visibility c.isPublic)).append
    (.word (w := "const") (by decide))
  have htype := ((hword.then_name c.name).then_mark ':').append_within (c.type.within h.1.2)
  exact ((htype.then_mark '=').append_within (c.value.within h.2)).then_mark ';'

theorem Function.sealed {f : Function} (he : Stmt.isEndedAll f.body = true)
    (h : ∀ p ∈ f.paths, P p) : Sealed P f.tokens := by
  rw [paths, List.forall_mem_append, List.forall_mem_append, List.forall_mem_append] at h
  obtain ⟨⟨⟨hattrs, hparams⟩, hreturns⟩, hbody⟩ := h
  have hword := ((sealed_attributes hattrs).append (sealed_visibility f.isPublic)).append
    (.word (w := "fn") (by decide))
  have hparts : ∀ part ∈ f.receiver ++ f.params.map Param.tokens, Within P part := by
    refine List.forall_mem_append.mpr ⟨?_, List.forall_mem_map.mpr fun p hp => ?_⟩
    · rw [receiver]
      split
      · exact List.forall_mem_singleton.mpr ((Sealed.mark '&' false).then_name _)
      · simp
    · exact ((Within.word p.name).then_mark ':').append_within
        (p.type.within fun q hq => hparams q (List.mem_flatMap.mpr ⟨p, hp, hq⟩))
  have hhead := (hword.then_name f.name).then_group .paren (.commaSeparated hparts f.trailing)
  refine (hhead.append_within ?_).then_group .brace (Stmt.withinAll f.body he hbody)
  cases hr : f.returns with
  | none => exact Sealed.nil.within
  | some t =>
    refine (Sealed.marks ['-', '>']).append_within (t.within fun q hq => hreturns q ?_)
    simpa [hr] using hq

theorem StructField.sealed {f : StructField} (h : ∀ p ∈ f.paths, P p) : Sealed P f.tokens := by
  rw [paths, List.forall_mem_append] at h
  have hname := ((sealed_attributes h.1).append (sealed_visibility f.isPublic)).then_name f.name
  exact ((hname.then_mark ':').append_within (f.type.within h.2)).then_mark ','

theorem StructItem.sealed {s : StructItem} (h : ∀ p ∈ s.paths, P p) : Sealed P s.tokens := by
  rw [paths, List.forall_mem_append] at h
  have hwords := ((sealed_attributes h.1).append (.word (w := "pub") (by decide))).append
    (.word (w := "struct") (by decide))
  have hfields : Sealed P (s.fields.flatMap StructField.tokens) := .flatMap fun f hf =>
    f.sealed fun p hp => h.2 p (List.mem_flatMap.mpr ⟨f, hf, hp⟩)
  exact (hwords.then_name s.name).then_group .brace hfields.within

theorem ImplItem.sealed {i : ImplItem} (he : ∀ f ∈ i.functions, Stmt.isEndedAll f.body = true)
    (h : ∀ p ∈ i.paths, P p) : Sealed P i.tokens := by
  rw [paths, List.forall_mem_append, List.forall_mem_append] at h
  obtain ⟨⟨htrait, hconstants⟩, hfunctions⟩ := h
  have hconstant : Sealed P (i.constants.flatMap Constant.tokens) := .flatMap fun c hc =>
    c.sealed fun p hp => hconstants p (List.mem_flatMap.mpr ⟨c, hc, hp⟩)
  have hfunction : Sealed P (i.functions.flatMap Function.tokens) := .flatMap fun f hf =>
    f.sealed (he f hf) fun p hp => hfunctions p (List.mem_flatMap.mpr ⟨f, hf, hp⟩)
  refine (((Sealed.word (by decide)).append ?_).then_name i.target).then_group .brace
    (hconstant.append hfunction).within
  cases hi : i.trait? with
  | none => exact .nil
  | some p => exact (Path.within (htrait p (by simp [hi]))).append (.word (by decide)) fun _ => rfl

theorem sealed_innerDocs (docs : List String) : Sealed P (docs.flatMap innerDocTokens) := by
  refine .flatMap fun text _ => ?_
  have hdoc : Sealed P (word "doc" ++ mark '=' ++ Source.text text) :=
    ((Sealed.word (by decide)).append (.mark '=' false)).append (.literal _)
  exact ((Sealed.mark '#' false).append (.mark '!' false)).append (.group .bracket hdoc.within)

end Tree

end RestForge.Source
