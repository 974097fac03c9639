import RestForge.Proofs.NestedPaths
import RestForge.Proofs.QuotedText
import RestForge.Proofs.TokenPaths

/-!
# Structs and implementations in tokens

What a file declares is read out of its tokens, without the tree that they come from.

* `Block`, `blocks`: braces and what stands in front of them.
* `structs`, `implsOf`: the structs of a file, and its implementations of one trait.
* `FieldText`, `fields?`: the fields of a struct; `listed?`: the texts of a constant list.
* `fields?_tokens`, `blocksFrom_struct`, `blocksFrom_impl`: reading what was written.
-/

set_option autoImplicit false

namespace RestForge.Source

open Emit (wireName?)

/-! ## Blocks -/

/-- A pair of braces, with the tokens since the braces before it. -/
structure Block where
  header : List Token
  body : List Token

def blocksFrom (seen : List Token) : List Token → List Block
  | [] => []
  | .group .brace body :: ts => ⟨seen, body⟩ :: blocksFrom [] ts
  | t :: ts => blocksFrom (seen ++ [t]) ts

def blocks : List Token → List Block := blocksFrom []

/-! ## Headers -/

def structName? (header : List Token) : Option String :=
  match header.reverse with
  | .word name :: .word "struct" :: _ => some name
  | _ => none

/-- The names of the trait and of the type in the header of an implementation. -/
def traitImpl? (header : List Token) : Option (List String × String) :=
  match header.reverse with
  | .word name :: .word "for" :: ts =>
    match ts.reverse with
    | .word "impl" :: path => some (following path, name)
    | _ => none
  | _ => none

/-- The name of a struct, with what stands between its braces. -/
def structIn? (b : Block) : Option (String × List Token) :=
  (structName? b.header).map fun name => (name, b.body)

/-- The type that a trait of this path is implemented for, with what stands between the braces. -/
def implIn? (path : List String) (b : Block) : Option (String × List Token) :=
  match traitImpl? b.header with
  | some (trait, name) => if trait = path then some (name, b.body) else none
  | none => none

def structs (ts : List Token) : List (String × List Token) := (blocks ts).filterMap structIn?

def implsOf (path : List String) (ts : List Token) : List (String × List Token) :=
  (blocks ts).filterMap (implIn? path)

/-! ## Fields -/

/-- A field of a struct: its names on the wire, its own name and the tokens of its type. -/
structure FieldText where
  renames : List String
  name : String
  type : List Token

/-- The wire name that stands between the brackets of an attribute. -/
def rename? : List Token → Option String
  | [.word "serde", .group .paren (.word "rename" :: .mark '=' _ :: .literal s :: _)] => Text.unquote? s
  | _ => none

/-- One field behind its attributes, given the wire names in the attributes before. -/
def fieldFrom? (renames : List String) : List Token → Option FieldText
  | .mark '#' _ :: .group .bracket inside :: ts => fieldFrom? (renames ++ (rename? inside).toList) ts
  | .word "pub" :: .word name :: .mark ':' _ :: type => some ⟨renames, name, type⟩
  | _ => none

def isComma : Token → Bool
  | .mark ',' _ => true
  | _ => false

/-- The fields between the braces of a struct, each with a comma behind it. -/
def fields? (body : List Token) : Option (List FieldText) :=
  (body.splitOnP isComma).dropLast.mapM (fieldFrom? [])

def textOf? : Token → Option String
  | .literal s => Text.unquote? s
  | _ => none

def isEquals : Token → Bool
  | .mark '=' _ => true
  | _ => false

/-- The texts of a list, if the braces hold nothing but a constant of this name for it. -/
def listed? (constant : String) : List Token → Option (List String)
  | .word "const" :: .word name :: ts =>
    match ts.dropWhile fun t => !isEquals t with
    | [.mark '=' _, .mark '&' _, .group .bracket items, .mark ';' _] =>
      if name = constant then some (items.filterMap textOf?) else none
    | _ => none
  | _ => none

/-! ## Reading blocks -/

/-- There are no braces among the tokens. -/
def IsOpen (ts : List Token) : Prop := ∀ body, .group .brace body ∉ ts

theorem blocksFrom_append (seen : List Token) {ts : List Token} (h : IsOpen ts) (rest : List Token) :
    blocksFrom seen (ts ++ rest) = blocksFrom (seen ++ ts) rest := by
  induction ts generalizing seen with
  | nil => rw [List.nil_append, List.append_nil]
  | cons t ts ih =>
    have hts : IsOpen ts := fun body hbody => h body (List.mem_cons_of_mem _ hbody)
    rw [List.cons_append, blocksFrom, ih _ hts, List.append_assoc, List.singleton_append]
    rintro body rfl
    exact h body List.mem_cons_self

theorem isOpen_attributeTokens (attrs : List Attribute) : IsOpen (attributeTokens attrs) := by
  intro body hbody
  obtain ⟨a, -, ha⟩ := List.mem_flatMap.mp hbody
  simp [Attribute.tokens, mark, brackets] at ha

/-- A path is made of names and colons. -/
theorem Path.mem_tokens {p : Path} {t : Token} (h : t ∈ p.tokens) :
    (∃ name, t = .word name) ∨ ∃ joint, t = .mark ':' joint := by
  have hcolons : t ∈ colons → ∃ joint, t = .mark ':' joint := by
    intro ht
    obtain rfl | ht := List.mem_cons.mp ht
    · exact ⟨true, rfl⟩
    · exact ⟨false, List.mem_singleton.mp ht⟩
  obtain ⟨isGlobal, _ | ⟨n, names⟩⟩ := p
  · cases isGlobal with
    | false => cases h
    | true => exact .inr (hcolons h)
  · rw [tokens_cons] at h
    obtain hfront | h := List.mem_append.mp h
    · cases isGlobal with
      | false => cases hfront
      | true => exact .inr (hcolons hfront)
    · obtain rfl | htail := List.mem_cons.mp h
      · exact .inl ⟨n, rfl⟩
      · obtain ⟨m, -, hm⟩ := List.mem_flatMap.mp htail
        obtain hm | hm := List.mem_append.mp hm
        · exact .inr (hcolons hm)
        · exact .inl ⟨m, List.mem_singleton.mp hm⟩

theorem Path.isOpen_tokens (p : Path) : IsOpen p.tokens := by
  intro body hbody
  obtain ⟨_, he⟩ | ⟨_, he⟩ := mem_tokens hbody <;> cases he

def StructItem.header (s : StructItem) : List Token :=
  attributeTokens s.attrs ++ word "pub" ++ word "struct" ++ word s.name

def ImplItem.header (i : ImplItem) : List Token :=
  word "impl"
    ++ (match i.trait? with
      | some p => p.tokens ++ word "for"
      | none => [])
    ++ word i.target

theorem blocksFrom_struct (seen : List Token) (s : StructItem) (rest : List Token) :
    blocksFrom seen (s.tokens ++ rest)
      = ⟨seen ++ s.header, s.fields.flatMap StructField.tokens⟩ :: blocksFrom [] rest := by
  have hopen : IsOpen s.header := by
    intro body hbody
    simp only [StructItem.header, word, List.mem_append, List.mem_singleton, reduceCtorEq,
      or_false] at hbody
    exact isOpen_attributeTokens _ body hbody
  rw [StructItem.tokens, ← StructItem.header, List.append_assoc, blocksFrom_append seen hopen]
  rfl

theorem blocksFrom_impl (i : ImplItem) (rest : List Token) : blocksFrom [] (i.tokens ++ rest)
    = ⟨i.header, i.constants.flatMap Constant.tokens ++ i.functions.flatMap Function.tokens⟩
      :: blocksFrom [] rest := by
  have hopen : IsOpen i.header := by
    intro body hbody
    rw [ImplItem.header] at hbody
    cases htrait : i.trait? with
    | none => simp [htrait, word] at hbody
    | some p =>
      simp only [htrait, word, List.mem_append, List.mem_singleton, reduceCtorEq, or_false,
        false_or] at hbody
      exact p.isOpen_tokens body hbody
  have htokens : i.tokens = i.header
      ++ braces (i.constants.flatMap Constant.tokens ++ i.functions.flatMap Function.tokens) := rfl
  rw [htokens, List.append_assoc, blocksFrom_append [] hopen]
  rfl

theorem structIn?_struct (seen : List Token) (s : StructItem) (body : List Token) :
    structIn? ⟨seen ++ s.header, body⟩ = some (s.name, body) := by
  simp [structIn?, structName?, StructItem.header, word]

theorem implIn?_struct (path : List String) (seen : List Token) (s : StructItem) (body : List Token) :
    implIn? path ⟨seen ++ s.header, body⟩ = none := by
  simp [implIn?, traitImpl?, StructItem.header, word]

/-! ## Reading fields -/

theorem rename?_attribute (a : Attribute) : rename? (word a.name ++ a.arguments) = wireName? a := by
  cases a with
  | rename wire => exact Text.unquote?_literal wire
  | _ => rfl

theorem fieldFrom?_attributes (renames : List String) (attrs : List Attribute) (ts : List Token) :
    fieldFrom? renames (attributeTokens attrs ++ ts)
      = fieldFrom? (renames ++ attrs.filterMap wireName?) ts := by
  induction attrs generalizing renames with
  | nil => rw [List.filterMap_nil, List.append_nil, attributeTokens, List.flatMap_nil, List.nil_append]
  | cons a attrs ih =>
    have hstep : fieldFrom? renames (attributeTokens (a :: attrs) ++ ts)
        = fieldFrom? (renames ++ (rename? (word a.name ++ a.arguments)).toList)
          (attributeTokens attrs ++ ts) := rfl
    rw [hstep, ih, rename?_attribute, List.append_assoc]
    cases h : wireName? a <;> simp [h]

/-- What is read of a field that was written into tokens. -/
def StructField.read (f : StructField) : FieldText := ⟨f.attrs.filterMap wireName?, f.name, f.type.tokens⟩

/-- The tokens of a field without the comma behind it. -/
def StructField.part (f : StructField) : List Token :=
  attributeTokens f.attrs ++ visibilityTokens f.isPublic ++ word f.name ++ mark ':' ++ f.type.tokens

theorem fieldFrom?_part {f : StructField} (h : f.isPublic = true) :
    fieldFrom? [] f.part = some f.read := by
  have hassoc : f.part = attributeTokens f.attrs
      ++ (visibilityTokens f.isPublic ++ (word f.name ++ (mark ':' ++ f.type.tokens))) := by
    simp only [StructField.part, List.append_assoc]
  rw [hassoc, fieldFrom?_attributes, h]
  rfl

theorem isComma_attributeTokens {attrs : List Attribute} :
    ∀ t ∈ attributeTokens attrs, isComma t = false := by
  intro t ht
  obtain ⟨a, -, ht⟩ := List.mem_flatMap.mp ht
  obtain rfl | ht := List.mem_cons.mp ht
  · rfl
  · obtain rfl := List.mem_singleton.mp ht
    rfl

theorem splitOnP_parts {fs : List StructField} (h : ∀ f ∈ fs, ∀ t ∈ f.part, isComma t = false) :
    (fs.flatMap StructField.tokens).splitOnP isComma = fs.map StructField.part ++ [[]] := by
  induction fs with
  | nil => exact List.splitOnP_nil
  | cons f fs ih =>
    obtain ⟨hf, hfs⟩ := List.forall_mem_cons.mp h
    have hsplit : (f :: fs).flatMap StructField.tokens
        = f.part ++ .mark ',' false :: fs.flatMap StructField.tokens := by
      rw [List.flatMap_cons, StructField.tokens, ← StructField.part, List.append_assoc]
      rfl
    rw [hsplit, List.splitOnP_append_cons_of_forall_mem hf _ rfl, ih hfs]
    rfl

theorem fields?_tokens {fs : List StructField} (hpublic : ∀ f ∈ fs, f.isPublic = true)
    (htypes : ∀ f ∈ fs, ∀ t ∈ f.type.tokens, isComma t = false) :
    fields? (fs.flatMap StructField.tokens) = some (fs.map StructField.read) := by
  have hparts : ∀ f ∈ fs, ∀ t ∈ f.part, isComma t = false := by
    intro f hf t ht
    simp only [StructField.part, hpublic f hf, visibilityTokens, if_pos, word, mark, List.mem_append,
      List.mem_singleton] at ht
    obtain (((ht | rfl) | rfl) | rfl) | ht := ht
    · exact isComma_attributeTokens t ht
    · rfl
    · rfl
    · rfl
    · exact htypes f hf t ht
  rw [fields?, splitOnP_parts hparts, List.dropLast_concat]
  clear htypes hparts
  induction fs with
  | nil => rfl
  | cons f fs ih =>
    obtain ⟨hf, hfs⟩ := List.forall_mem_cons.mp hpublic
    rw [List.map_cons, List.mapM_cons, fieldFrom?_part hf, ih hfs]
    rfl

end RestForge.Source
