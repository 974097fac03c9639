import Mathlib.Data.List.Pairwise
import RestForge.Proofs.OutputPaths
import RestForge.Proofs.TypeNames

/-!
# The layout and the order of the resources

A directory is built by adding one resource after another. Two that are added to different places, with
the same wire names wherever they share a way, may be added in either order.

* `alter_alter`, `alter_comm`: two changes by key, of one value or of two.
* `Apart`: two chains of segments that end in different places and agree where they go together.
* `graft_comm`: adding two resources in either order; `layOut_perm`: adding any number of them.
* `apart_of_placed`: segments that one table of names placed are apart.
-/

set_option autoImplicit false

namespace RestForge.KeyedList

variable {α : Type}

theorem alter_alter (key : String) (f g : Option α → α) (l : List (String × α)) :
    alter key f (alter key g l) = alter key (fun v => f (some (g v))) l := by
  induction l with
  | nil => simp [alter]
  | cons p l ih =>
    obtain ⟨k, v⟩ := p
    by_cases hk : key = k
    · simp [alter, hk]
    · by_cases hlt : key < k
      · simp [alter, hk, hlt]
      · simp [alter, hk, hlt, ih]

theorem alter_comm_of_lt {key key' : String} (h : key < key') (f g : Option α → α)
    (l : List (String × α)) :
    alter key f (alter key' g l) = alter key' g (alter key f l) := by
  have hne : key ≠ key' := ne_of_lt h
  have hnlt : ¬ key' < key := not_lt_of_gt h
  induction l with
  | nil => simp [alter, hne, hne.symm, h, hnlt]
  | cons p l ih =>
    obtain ⟨k, v⟩ := p
    by_cases hk : key = k
    · subst hk
      simp [alter, hne.symm, hnlt]
    · by_cases hlt : key < k
      · -- the smaller key goes in front, wherever the other one goes
        by_cases hk' : key' = k
        · subst hk'
          simp [alter, hne, hne.symm, h, hnlt]
        · by_cases hlt' : key' < k <;> simp [alter, hne, hne.symm, h, hnlt, hk, hlt, hk', hlt']
      · have hgt : k < key' := lt_of_le_of_lt (not_lt.mp hlt) h
        simp [alter, hk, hlt, (ne_of_lt hgt).symm, not_lt_of_gt hgt, ih]

theorem alter_comm {key key' : String} (hne : key ≠ key') (f g : Option α → α)
    (l : List (String × α)) :
    alter key f (alter key' g l) = alter key' g (alter key f l) := by
  obtain hlt | hgt := lt_or_gt_of_ne hne
  · exact alter_comm_of_lt hlt f g l
  · exact (alter_comm_of_lt hgt g f l).symm

end RestForge.KeyedList

namespace RestForge.Crate

open Naming Schema KeyedList

/-! ## Adding two resources -/

/-- Chains that end in different places; as long as they name the same directories they have the same
wire names. -/
def Apart : List Segment → List Segment → Prop
  | [], [] => False
  | [], _ :: _ => True
  | _ :: _, [] => True
  | s :: ss, s' :: ss' => s.module = s'.module → s.wire = s'.wire ∧ Apart ss ss'

theorem Apart.symm {ss ss' : List Segment} (h : Apart ss ss') : Apart ss' ss := by
  induction ss generalizing ss' with
  | nil =>
    cases ss' with
    | nil => exact h
    | cons => trivial
  | cons s ss ih =>
    cases ss' with
    | nil => trivial
    | cons s' ss' => exact fun he => ⟨(h he.symm).1.symm, ih (h he.symm).2⟩

theorem ModuleNode.graft_comm (e e' : ResourceEntry) {ss ss' : List Segment} (h : Apart ss ss')
    (n : ModuleNode) : graft e ss (graft e' ss' n) = graft e' ss' (graft e ss n) := by
  -- on the part that the chains share; where they part, the changes are at different keys
  induction ss generalizing ss' n with
  | nil =>
    obtain ⟨dotted, resource, children⟩ := n
    cases ss' with
    | nil => exact h.elim
    | cons s' ss' => simp only [graft]
  | cons s ss ih =>
    obtain ⟨dotted, resource, children⟩ := n
    cases ss' with
    | nil => simp only [graft]
    | cons s' ss' =>
      simp only [graft, ModuleNode.node.injEq, true_and]
      by_cases hmodule : s.module = s'.module
      · obtain ⟨hwire, hrest⟩ := h hmodule
        simp only [hmodule, hwire, alter_alter, Option.getD_some]
        congr 1
        funext child
        exact ih hrest _
      · exact alter_comm hmodule _ _ _

/-! ## Adding all resources of a category -/

/-- Resources that are added to different places of the directories. -/
def ResourceEntry.IsApart (e e' : ResourceEntry) : Prop :=
  e.category = e'.category → Apart e.segments e'.segments

instance : Std.Symm ResourceEntry.IsApart where
  symm _ _ h := fun hcategory => (h hcategory.symm).symm

section Order

variable {entries entries' : List ResourceEntry} (h : entries.Perm entries')
  (hapart : entries.Pairwise ResourceEntry.IsApart)

include h hapart

theorem categoryNode?_perm (c : Category) : categoryNode? entries c = categoryNode? entries' c := by
  have hmine := h.filter fun e => e.category == c
  have hcategory : ∀ e ∈ entries.filter (fun e => e.category == c), e ∈ entries ∧ e.category = c :=
    fun e he => by simpa using he
  have hcomm : ∀ e ∈ entries.filter (fun e => e.category == c),
      ∀ e' ∈ entries.filter (fun e => e.category == c), ∀ n : ModuleNode,
      (n.graft e e.segments).graft e' e'.segments = (n.graft e' e'.segments).graft e e.segments := by
    intro e he e' he' n
    obtain ⟨hmem, hc⟩ := hcategory e he
    obtain ⟨hmem', hc'⟩ := hcategory e' he'
    by_cases hsame : e = e'
    · rw [hsame]
    · have hplaces := hapart.forall hmem hmem' hsame
      exact ModuleNode.graft_comm e' e (hplaces (hc.trans hc'.symm)).symm n
  have hfold := hmine.foldl_eq' (f := fun n e => n.graft e e.segments) hcomm
    (ModuleNode.fresh c.text)
  unfold categoryNode?
  generalize entries.filter (fun e => e.category == c) = mine at hmine hfold
  generalize entries'.filter (fun e => e.category == c) = mine' at hmine hfold
  cases mine with
  | nil => rw [hmine.nil_eq]
  | cons e rest =>
    cases mine' with
    | nil => exact absurd hmine.eq_nil (by simp)
    | cons e' rest' => exact congrArg some hfold

theorem moduleFiles_perm : moduleFiles entries = moduleFiles entries' := by
  unfold moduleFiles
  simp only [categoryNode?_perm h hapart]

/-- The module files do not depend on the order in which the resources are laid out. -/
theorem layOut_perm {files : List ModuleFile} (hfiles : layOut entries = .ok files) :
    layOut entries' = .ok files := by
  obtain ⟨u, hnames, hpure⟩ := except_bind_ok hfiles
  cases hpure
  have hnames' : Emit.checkNames (entries'.flatMap fun e => [e.client, e.model]) = .ok () := by
    refine Emit.checkNames_ok_iff.mpr fun name hname => Emit.checkNames_ok_iff.mp hnames name ?_
    exact (h.flatMap_right _).mem_iff.mpr hname
  rw [layOut, hnames', moduleFiles_perm h hapart]
  rfl

end Order

/-! ## Segments of one table of names -/

/-- Segments below one parent share a module only if they share the wire name, so that the places are
as different as the wire paths. -/
theorem apart_of_placed {t : NameTable} (ht : t.TwoWay) {parent : String}
    {segments segments' modules modules' : List String} (h : Placed t parent segments modules)
    (h' : Placed t parent segments' modules') (hne : segments ≠ segments') :
    Apart (List.zipWith Segment.mk modules segments) (List.zipWith Segment.mk modules' segments') := by
  induction segments generalizing parent segments' modules modules' with
  | nil =>
    cases segments' with
    | nil => exact absurd rfl hne
    | cons segment' segments' =>
      cases modules <;> cases modules' <;> trivial
  | cons segment segments ih =>
    cases modules with
    | nil => exact h.elim
    | cons module modules =>
      cases segments' <;> cases modules'
      · trivial
      · exact h'.elim
      · exact h'.elim
      · intro hmodule
        have hmodule : module = _ := hmodule
        subst hmodule
        obtain rfl := ht.wire_unique h.1 h'.1
        exact ⟨rfl, ih h.2 h'.2 fun he => hne (by rw [he])⟩

/-- Resources of different dotted paths that were read into one table are laid out in different
places. -/
theorem isApart_of_placed {t : NameTable} (ht : t.TwoWay) {r r' : Resource}
    (h : Placed t r.category.text r.segments r.modules)
    (h' : Placed t r'.category.text r'.segments r'.modules) (hne : r.dottedPath ≠ r'.dottedPath)
    (names names' : TypeNames) :
    (ResourceEntry.ofResource r names).IsApart (ResourceEntry.ofResource r' names') := by
  intro hcategory
  have hcategory : r.category = r'.category := hcategory
  rw [← hcategory] at h'
  refine apart_of_placed ht h h' fun hsegments => hne ?_
  rw [Resource.dottedPath, Resource.dottedPath, hcategory, hsegments]

end RestForge.Crate
