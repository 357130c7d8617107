import UrlPulse.Data.Linq

namespace UrlPulse.Data.Nest

/-! Two tables in a one-to-many relation, and the same data nested: every parent
with the children that carry its key.  Each change to the tables has its
counterpart on the nested data, and nesting loses no child that has a parent.
-/

variable {α β κ : Type} [DecidableEq κ] {key : α → κ} {foreign : β → κ}

/-- A parent with children of its own. -/
structure Nested (key : α → κ) (foreign : β → κ) where
  parent : α
  children : List β
  own : ∀ child ∈ children, foreign child = key parent

namespace Nested

omit [DecidableEq κ] in
theorem ext {left right : Nested key foreign} (parent : left.parent = right.parent)
    (children : left.children = right.children) : left = right := by
  cases left
  cases right
  cases parent
  cases children
  rfl

/-- Takes in those of the new children that are its own. -/
def adopt (newborn : List β) (nested : Nested key foreign) : Nested key foreign where
  parent := nested.parent
  children := nested.children ++ newborn.filter fun child => foreign child = key nested.parent
  own := by
    intro child member
    rcases List.mem_append.mp member with old | new
    · exact nested.own child old
    · exact of_decide_eq_true (List.mem_filter.mp new).2

def update (change : α → α) (kept : ∀ parent, key (change parent) = key parent)
    (nested : Nested key foreign) : Nested key foreign where
  parent := change nested.parent
  children := nested.children
  own := fun child member => (nested.own child member).trans (kept nested.parent).symm

@[simp] theorem adopt_parent (newborn : List β) (nested : Nested key foreign) :
    (nested.adopt newborn).parent = nested.parent := rfl

omit [DecidableEq κ] in
@[simp] theorem update_children (change : α → α) (kept : ∀ parent, key (change parent) = key parent)
    (nested : Nested key foreign) : (nested.update change kept).children = nested.children := rfl

omit [DecidableEq κ] in
@[simp] theorem update_parent (change : α → α) (kept : ∀ parent, key (change parent) = key parent)
    (nested : Nested key foreign) : (nested.update change kept).parent = change nested.parent := rfl

end Nested

/-- A parent with what the child table has of its own. -/
def collect (key : α → κ) (foreign : β → κ) (children : List β) (parent : α) : Nested key foreign where
  parent
  children := children.filter fun child => foreign child = key parent
  own := fun _ member => of_decide_eq_true (List.mem_filter.mp member).2

def nest (key : α → κ) (foreign : β → κ) (parents : List α) (children : List β) :
    List (Nested key foreign) :=
  parents.map (collect key foreign children)

variable {parents : List α} {children : List β}

theorem nest_parents : (nest key foreign parents children).map (·.parent) = parents := by
  simp [nest, collect, Function.comp_def]

theorem map_key_nest :
    (nest key foreign parents children).map (fun nested => key nested.parent) = parents.map key := by
  simp [nest, collect, Function.comp_def]

theorem mem_nest {nested : Nested key foreign} :
    nested ∈ nest key foreign parents children ↔
      nested.parent ∈ parents ∧
        nested.children = children.filter fun child => foreign child = key nested.parent := by
  constructor
  · intro member
    obtain ⟨parent, listed, rfl⟩ := List.mem_map.mp member
    exact ⟨listed, rfl⟩
  · intro shape
    exact List.mem_map.mpr ⟨nested.parent, shape.1, Nested.ext rfl shape.2.symm⟩

/-! ## Changes -/

theorem nest_append_children (newborn : List β) :
    nest key foreign parents (children ++ newborn) =
      (nest key foreign parents children).map (Nested.adopt newborn) := by
  simp only [nest, List.map_map]
  apply List.map_congr_left
  intro parent _
  exact Nested.ext rfl (List.filter_append _ _)

/-- A parent under a new key comes with all its children at once. -/
theorem nest_append_parent {parent : α} {newborn : List β}
    (fresh : ∀ child ∈ children, foreign child ≠ key parent)
    (apart : ∀ other ∈ parents, key other ≠ key parent)
    (own : ∀ child ∈ newborn, foreign child = key parent) :
    nest key foreign (parents ++ [parent]) (children ++ newborn) =
      nest key foreign parents children ++ [⟨parent, newborn, own⟩] := by
  simp only [nest, List.map_append, List.map_cons, List.map_nil]
  congr 1
  · apply List.map_congr_left
    intro other listed
    have none : (newborn.filter fun child => foreign child = key other) = [] := by
      apply List.filter_eq_nil_iff.mpr
      intro child member
      rw [own child member]
      simpa using (apart other listed).symm
    exact Nested.ext rfl (by simp [collect, List.filter_append, none])
  · have old : (children.filter fun child => foreign child = key parent) = [] := by
      apply List.filter_eq_nil_iff.mpr
      intro child member
      simpa using fresh child member
    have new : (newborn.filter fun child => foreign child = key parent) = newborn := by
      apply List.filter_eq_self.mpr
      intro child member
      simpa using own child member
    exact congrArg (fun nested => [nested])
      (Nested.ext rfl (by simp [collect, List.filter_append, old, new]))

theorem nest_update (change : α → α) (kept : ∀ parent, key (change parent) = key parent) :
    nest key foreign (parents.map change) children =
      (nest key foreign parents children).map (Nested.update change kept) := by
  simp only [nest, List.map_map]
  apply List.map_congr_left
  intro parent _
  exact Nested.ext rfl (by simp [collect, kept])

/-- Deleting a parent with its children takes away one nested entry. -/
theorem nest_remove (gone : κ) :
    nest key foreign (parents.filter fun parent => key parent ≠ gone)
        (children.filter fun child => foreign child ≠ gone) =
      (nest key foreign parents children).filter fun nested => key nested.parent ≠ gone := by
  have kept : ∀ parent ∈ parents.filter (fun parent => key parent ≠ gone),
      collect key foreign (children.filter fun child => foreign child ≠ gone) parent =
        collect key foreign children parent := by
    intro parent member
    have different : key parent ≠ gone := of_decide_eq_true (List.mem_filter.mp member).2
    refine Nested.ext rfl ?_
    simp only [collect, List.filter_filter]
    apply List.filter_congr
    intro child _
    by_cases points : foreign child = key parent
    · simp [points, different]
    · simp [points]
  rw [nest, List.map_congr_left kept, nest, List.filter_map]
  rfl

/-! ## Back to two tables -/

/-- Where every child has a parent, the nested children are the child table. -/
theorem nest_children_perm (nodup : (parents.map key).Nodup)
    (referenced : ∀ child ∈ children, foreign child ∈ parents.map key) :
    ((nest key foreign parents children).flatMap (·.children)).Perm children := by
  have fibres := Linq.fibres_perm foreign nodup children
  have all : (children.filter fun child => foreign child ∈ parents.map key) = children :=
    List.filter_eq_self.mpr fun child member => decide_eq_true (referenced child member)
  rw [all] at fibres
  simpa only [nest, collect, List.flatMap_map] using fibres

end UrlPulse.Data.Nest
