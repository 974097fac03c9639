import Mathlib.Data.List.Basic
import RestForge.Proofs.QuotedText
import RestForge.Source.Tree

/-!
# Documentation in tokens

The documentation of a file is read out of its tokens: the texts of the attributes `#[doc = "…"]` and
`#![doc = "…"]`, wherever they stand.

* `docTexts`: the texts in tokens.
* `Plain`: there is no `#` in tokens, and so no attribute.
* `Documents`: the texts that tokens add to those of what follows them.
* `Item.docs`, `File.docTexts_tokens`: the documentation of a tree, and that of its tokens.
-/

set_option autoImplicit false

namespace RestForge.Source

/-! ## Reading -/

/-- The text between the brackets of an attribute, if it is documentation. -/
def docText? : List Token → Option String
  | [.word "doc", .mark '=' _, .literal s] => Text.unquote? s
  | _ => none

mutual

def Token.docTexts : Token → List String
  | .group _ body => Source.docTexts body
  | _ => []

def docTexts : List Token → List String
  | [] => []
  | .mark '#' _ :: .group .bracket body :: ts => (docText? body).toList ++ docTexts ts
  | .mark '#' _ :: .mark '!' _ :: .group .bracket body :: ts =>
    (docText? body).toList ++ docTexts ts
  | t :: ts => t.docTexts ++ docTexts ts

end

/-! ## Tokens without attributes -/

mutual

def Token.Plain : Token → Prop
  | .mark c _ => c ≠ '#'
  | .group _ body => Source.Plain body
  | _ => True

def Plain : List Token → Prop
  | [] => True
  | t :: ts => t.Plain ∧ Plain ts

end

@[simp] theorem plain_nil : Plain [] := trivial

@[simp] theorem plain_append {ts us : List Token} : Plain (ts ++ us) ↔ Plain ts ∧ Plain us := by
  induction ts with
  | nil => simp
  | cons t ts ih => rw [List.cons_append, Plain, Plain, ih, and_assoc]

@[simp] theorem plain_word (w : String) : Plain (word w) := ⟨trivial, trivial⟩

@[simp] theorem plain_literal (s : String) : Plain [.literal s] := ⟨trivial, trivial⟩

@[simp] theorem plain_text (s : String) : Plain (text s) := plain_literal _

@[simp] theorem plain_mark {c : Char} : Plain (mark c) ↔ c ≠ '#' := by
  simp [mark, Plain, Token.Plain]

@[simp] theorem plain_marks {cs : List Char} : Plain (marks cs) ↔ '#' ∉ cs := by
  induction cs with
  | nil => simp [marks]
  | cons c cs ih =>
    cases cs with
    | nil => simp [marks, Plain, Token.Plain, eq_comm]
    | cons c' cs =>
      have hstep : marks (c :: c' :: cs) = .mark c true :: marks (c' :: cs) := rfl
      rw [hstep, Plain, ih, Token.Plain, ne_comm]
      simp

@[simp] theorem plain_group {d : Delimiter} {body : List Token} :
    Plain [.group d body] ↔ Plain body := by
  simp [Plain, Token.Plain]

@[simp] theorem plain_parens {body : List Token} : Plain (parens body) ↔ Plain body := plain_group

@[simp] theorem plain_brackets {body : List Token} : Plain (brackets body) ↔ Plain body :=
  plain_group

@[simp] theorem plain_braces {body : List Token} : Plain (braces body) ↔ Plain body := plain_group

theorem plain_flatMap {α : Type} {f : α → List Token} {xs : List α} (h : ∀ x ∈ xs, Plain (f x)) :
    Plain (xs.flatMap f) := by
  induction xs with
  | nil => exact plain_nil
  | cons x xs ih =>
    rw [List.flatMap_cons, plain_append]
    exact ⟨h x List.mem_cons_self, ih fun x hx => h x (List.mem_cons_of_mem _ hx)⟩

theorem plain_intercalate {sep : List Token} {parts : List (List Token)} (hsep : Plain sep)
    (h : ∀ part ∈ parts, Plain part) : Plain (List.intercalate sep parts) := by
  induction parts with
  | nil => exact plain_nil
  | cons part parts ih =>
    obtain ⟨hpart, hparts⟩ := List.forall_mem_cons.mp h
    cases parts with
    | nil =>
      rw [List.intercalate_singleton]
      exact hpart
    | cons next parts =>
      rw [List.intercalate_cons_cons, plain_append, plain_append]
      exact ⟨⟨hpart, hsep⟩, ih hparts⟩

theorem plain_commaSeparated {parts : List (List Token)} (h : ∀ part ∈ parts, Plain part)
    (trailing : Bool) : Plain (commaSeparated trailing parts) := by
  have hjoined : Plain (List.intercalate (mark ',') parts) := plain_intercalate (by simp) h
  unfold commaSeparated
  cases parts with
  | nil => exact plain_nil
  | cons part parts => cases trailing <;> simp [hjoined]

@[simp] theorem plain_visibility (isPublic : Bool) : Plain (visibilityTokens isPublic) := by
  cases isPublic <;> simp [visibilityTokens]

mutual

theorem Token.docTexts_of_plain : ∀ t : Token, t.Plain → t.docTexts = []
  | .word _, _ => rfl
  | .mark _ _, _ => rfl
  | .literal _, _ => rfl
  | .group _ body, h => by
    have hbody := docTexts_append_of_plain body h []
    rwa [List.append_nil] at hbody

theorem docTexts_append_of_plain : ∀ ts : List Token, Plain ts → ∀ rest,
    docTexts (ts ++ rest) = docTexts rest
  | [], _, _ => rfl
  | t :: ts, h, rest => by
    have hrest : docTexts (t :: (ts ++ rest)) = t.docTexts ++ docTexts (ts ++ rest) := by
      rw [docTexts]
      · rintro _ _ _ rfl
        exact absurd rfl h.1
      · rintro _ _ _ _ rfl
        exact absurd rfl h.1
    rw [List.cons_append, hrest, t.docTexts_of_plain h.1, docTexts_append_of_plain ts h.2]
    rfl

end

/-! ## Plain trees -/

@[simp] theorem Path.plain (p : Path) : Plain p.tokens := by
  have hcolons : Plain colons := by simp [colons]
  have hnames : Plain (List.intercalate colons (p.names.map word)) :=
    plain_intercalate hcolons (by simp)
  cases h : p.isGlobal <;> simp [Path.tokens, h, hnames, hcolons]

namespace Ty

mutual

theorem plain : ∀ t : Ty, Plain t.tokens
  | path p [] => p.plain
  | path p (arg :: args) => by
    have hargs : Plain (commaSeparated false (arg.tokens :: tokensAll args)) :=
      plain_commaSeparated (plainAll (arg :: args)) false
    simp [tokens, hargs]
  | ref isStatic target => by
    cases isStatic <;> simp [tokens, lifetime, target.plain, Plain, Token.Plain]
  | slice item => by simp [tokens, item.plain]
  | tuple items => by simp [tokens, plain_commaSeparated (plainAll items)]
  | dyn bound => by simp [tokens]

theorem plainAll : ∀ ts : List Ty, ∀ part ∈ tokensAll ts, Plain part
  | [] => by simp [tokensAll]
  | t :: ts => List.forall_mem_cons.mpr ⟨t.plain, plainAll ts⟩

end

end Ty

theorem Pattern.plain : ∀ t : Pattern, Plain t.tokens
  | name n => plain_word n
  | tuple names => by
    have hnames : Plain (commaSeparated false (names.map word)) :=
      plain_commaSeparated (by simp) false
    simp [tokens, hnames]
  | variant p arg => by simp [tokens, arg.plain]
  | record p fields => by
    have hfields : Plain (fields.flatMap fun f => word f ++ mark ',') :=
      plain_flatMap fun f _ => by simp
    simp [tokens, hfields]

namespace Expr

mutual

theorem plain : ∀ e : Expr, Plain e.tokens
  | path p => p.plain
  | text s => plain_text s
  | int n => plain_literal _
  | ref e => by simp [tokens, e.plain]
  | deref e => by simp [tokens, e.plain]
  | question e => by simp [tokens, e.plain]
  | call f args trailing => by simp [tokens, f.plain, plain_commaSeparated (plainAll args)]
  | method receiver name args trailing => by
    simp [tokens, receiver.plain, plain_commaSeparated (plainAll args)]
  | field base name => by simp [tokens, base.plain]
  | array items => by simp [tokens, plain_commaSeparated (plainAll items)]
  | tuple items => by simp [tokens, plain_commaSeparated (plainAll items)]
  | record p fields rest => by cases rest <;> simp [tokens, plainFields fields]
  | closure param body => by simp [tokens, body.plain]
  | invoke name d args => by simp [tokens, plain_commaSeparated (plainAll args)]

theorem plainAll : ∀ es : List Expr, ∀ part ∈ tokensAll es, Plain part
  | [] => by simp [tokensAll]
  | e :: es => List.forall_mem_cons.mpr ⟨e.plain, plainAll es⟩

theorem plainFields : ∀ fields : List FieldInit, Plain (tokensFields fields)
  | [] => plain_nil
  | .same name :: fields => by simp [tokensFields, plainFields fields]
  | .value name e :: fields => by simp [tokensFields, e.plain, plainFields fields]

end

end Expr

namespace Stmt

mutual

theorem plain : ∀ s : Stmt, Plain s.tokens
  | bind isMutable pattern value => by
    cases isMutable <;> simp [tokens, pattern.plain, value.plain]
  | expr e semicolon => by cases semicolon <;> simp [tokens, e.plain]
  | forEach name items body => by simp [tokens, items.plain, plainAll body]
  | choose on arms => by simp [tokens, on.plain, plainArms arms]

theorem plainAll : ∀ ss : List Stmt, Plain (tokensAll ss)
  | [] => plain_nil
  | s :: ss => by simp [tokensAll, s.plain, plainAll ss]

theorem plainArms : ∀ arms : List Arm, Plain (tokensArms arms)
  | [] => plain_nil
  | .block pattern body :: arms => by
    simp [tokensArms, pattern.plain, plainAll body, plainArms arms]
  | .value pattern body :: arms => by
    simp [tokensArms, pattern.plain, body.plain, plainArms arms]

end

end Stmt

/-! ## What tokens document -/

/-- Whatever follows the tokens, they add these texts. -/
def Documents (ts : List Token) (docs : List String) : Prop :=
  ∀ rest, docTexts (ts ++ rest) = docs ++ docTexts rest

namespace Documents

variable {ts us : List Token} {docs docs' : List String}

theorem eq (h : Documents ts docs) : docTexts ts = docs := by
  have hall := h []
  rwa [List.append_nil, docTexts, List.append_nil] at hall

theorem plain (h : Plain ts) : Documents ts [] := docTexts_append_of_plain ts h

theorem append (h : Documents ts docs) (h' : Documents us docs') :
    Documents (ts ++ us) (docs ++ docs') := by
  intro rest
  rw [List.append_assoc, h, h', List.append_assoc]

theorem then_plain (h : Documents ts docs) (hu : Plain us) : Documents (ts ++ us) docs := by
  have happend := h.append (plain hu)
  rwa [List.append_nil] at happend

theorem group (d : Delimiter) (h : Documents ts docs) : Documents [.group d ts] docs := by
  intro rest
  have hstep : docTexts ([.group d ts] ++ rest) = docTexts ts ++ docTexts rest := rfl
  rw [hstep, h.eq]

theorem flatMap {α : Type} {f : α → List Token} {g : α → List String}
    (h : ∀ x, Documents (f x) (g x)) (xs : List α) : Documents (xs.flatMap f) (xs.flatMap g) := by
  induction xs with
  | nil => exact plain plain_nil
  | cons x xs ih => exact (h x).append ih

end Documents

/-! ## The documentation of a tree -/

def Attribute.doc? : Attribute → Option String
  | doc text => some text
  | _ => none

def docsOf (attrs : List Attribute) : List String := attrs.filterMap Attribute.doc?

theorem docText?_attribute (a : Attribute) : docText? (word a.name ++ a.arguments) = a.doc? := by
  cases a with
  | doc text => exact Text.unquote?_literal text
  | _ => rfl

theorem attributes_document (attrs : List Attribute) :
    Documents (attributeTokens attrs) (docsOf attrs) := by
  have hone : ∀ a : Attribute, Documents a.tokens a.doc?.toList := by
    intro a rest
    have hstep : docTexts (a.tokens ++ rest)
        = (docText? (word a.name ++ a.arguments)).toList ++ docTexts rest := rfl
    rw [hstep, docText?_attribute]
  have hall := Documents.flatMap hone attrs
  rwa [← List.filterMap_eq_flatMap_toList] at hall

theorem innerDocs_document (docs : List String) : Documents (docs.flatMap innerDocTokens) docs := by
  have hone : ∀ text : String, Documents (innerDocTokens text) [text] := by
    intro text rest
    have hstep : docTexts (innerDocTokens text ++ rest)
        = (Text.unquote? (Text.literal text)).toList ++ docTexts rest := rfl
    rw [hstep, Text.unquote?_literal]
    rfl
  have hall := Documents.flatMap hone docs
  rwa [List.flatMap_singleton'] at hall

theorem Constant.document (c : Constant) : Documents c.tokens (docsOf c.attrs) := by
  simp only [tokens, List.append_assoc]
  exact (attributes_document c.attrs).then_plain (by simp [c.type.plain, c.value.plain])

theorem Function.document (f : Function) : Documents f.tokens (docsOf f.attrs) := by
  have hparts : ∀ part ∈ f.receiver ++ f.params.map Param.tokens, Plain part := by
    refine List.forall_mem_append.mpr ⟨?_, List.forall_mem_map.mpr fun p _ => ?_⟩
    · rw [receiver]
      split <;> simp
    · simp [Param.tokens, p.type.plain]
  simp only [tokens, List.append_assoc]
  refine (attributes_document f.attrs).then_plain ?_
  simp only [plain_append, plain_visibility, plain_word, plain_parens, plain_braces, true_and]
  refine ⟨plain_commaSeparated hparts f.trailing, ?_, Stmt.plainAll f.body⟩
  cases f.returns with
  | none => exact plain_nil
  | some t => simp [t.plain]

theorem StructField.document (f : StructField) : Documents f.tokens (docsOf f.attrs) := by
  simp only [tokens, List.append_assoc]
  exact (attributes_document f.attrs).then_plain (by simp [f.type.plain])

def StructItem.docs (s : StructItem) : List String :=
  docsOf s.attrs ++ s.fields.flatMap fun f => docsOf f.attrs

theorem StructItem.document (s : StructItem) : Documents s.tokens s.docs := by
  have hwords : Documents (attributeTokens s.attrs ++ word "pub" ++ word "struct" ++ word s.name)
      (docsOf s.attrs) :=
    (((attributes_document s.attrs).then_plain (plain_word _)).then_plain (plain_word _)).then_plain
      (plain_word _)
  exact hwords.append (.group .brace (.flatMap StructField.document s.fields))

def ImplItem.docs (i : ImplItem) : List String :=
  (i.constants.flatMap fun c => docsOf c.attrs) ++ i.functions.flatMap fun f => docsOf f.attrs

theorem ImplItem.document (i : ImplItem) : Documents i.tokens i.docs := by
  have hinside := (Documents.flatMap Constant.document i.constants).append
    (Documents.flatMap Function.document i.functions)
  refine (Documents.plain ?_).append (hinside.group .brace)
  cases i.trait? with
  | none => simp
  | some p => simp

namespace Item

mutual

def docs : Item → List String
  | constant c => docsOf c.attrs
  | function f => docsOf f.attrs
  | struct s => s.docs
  | impl i => i.docs
  | module attrs _ _ items => docsOf attrs ++ docsAll items
  | moduleFile attrs _ _ => docsOf attrs
  | reexport _ => []

def docsAll : List Item → List String
  | [] => []
  | i :: is => i.docs ++ docsAll is

end

mutual

theorem document : ∀ i : Item, Documents i.tokens i.docs
  | constant c => c.document
  | function f => f.document
  | struct s => s.document
  | impl i => i.document
  | module attrs isPublic name items => by
    have hwords : Documents
        (attributeTokens attrs ++ visibilityTokens isPublic ++ word "mod" ++ word name)
        (docsOf attrs) :=
      (((attributes_document attrs).then_plain (plain_visibility _)).then_plain
        (plain_word _)).then_plain (plain_word _)
    exact hwords.append (.group .brace (documentAll items))
  | moduleFile attrs isPublic name => by
    simp only [tokens, List.append_assoc]
    exact (attributes_document attrs).then_plain (by simp)
  | reexport p => .plain (by simp [tokens])

theorem documentAll : ∀ items : List Item, Documents (tokensAll items) (docsAll items)
  | [] => .plain plain_nil
  | i :: is => (document i).append (documentAll is)

end

theorem docsAll_eq (items : List Item) : docsAll items = items.flatMap docs := by
  induction items with
  | nil => rfl
  | cons i items ih => rw [docsAll, ih, List.flatMap_cons]

theorem docsAll_append (items items' : List Item) :
    docsAll (items ++ items') = docsAll items ++ docsAll items' := by
  rw [docsAll_eq, List.flatMap_append, ← docsAll_eq, ← docsAll_eq]

end Item

theorem File.docTexts_tokens (f : File) : docTexts f.tokens = f.docs ++ Item.docsAll f.items :=
  ((innerDocs_document f.docs).append (Item.documentAll f.items)).eq

end RestForge.Source
