import Mathlib.Data.List.Perm.Basic

namespace UrlPulse.Data.Eventual

/-! Changes to the flags of a remote table that wait to be made in any order.
They commute, so the table they lead to is known before the order is.
-/

/-- The flags of the keys that are there. -/
abbrev Table (κ : Type) := κ → Option Bool

inductive Change (κ : Type) where
  | toggle (key : κ)
  | remove (key : κ)
deriving DecidableEq

namespace Change

variable {κ : Type}

def key : Change κ → κ
  | .toggle key | .remove key => key

def effect : Change κ → Option Bool → Option Bool
  | .toggle _, flag => flag.map (!·)
  | .remove _, _ => none

@[simp] theorem effect_none (change : Change κ) : change.effect none = none := by
  cases change <;> rfl

theorem effect_comm (first second : Change κ) (flag : Option Bool) :
    first.effect (second.effect flag) = second.effect (first.effect flag) := by
  cases first with
  | toggle target => cases second <;> rfl
  | remove target => cases second <;> rfl

variable [DecidableEq κ]

def apply (change : Change κ) (table : Table κ) : Table κ :=
  fun key => if change.key = key then change.effect (table key) else table key

variable {change : Change κ} {table : Table κ} {key : κ}

theorem apply_of_ne (other : change.key ≠ key) : change.apply table key = table key :=
  if_neg other

@[simp] theorem toggle_apply : (toggle key).apply table key = (table key).map (!·) := if_pos rfl

@[simp] theorem remove_apply : (remove key).apply table key = none := if_pos rfl

theorem apply_none (absent : table key = none) : change.apply table key = none := by
  by_cases same : change.key = key
  · rw [apply, if_pos same, absent, effect_none]
  · rw [apply_of_ne same, absent]

theorem apply_absent (absent : table change.key = none) : change.apply table = table := by
  funext key
  by_cases same : change.key = key
  · rw [apply, if_pos same, ← same, absent, effect_none]
  · exact apply_of_ne same

theorem apply_comm (first second : Change κ) (table : Table κ) :
    first.apply (second.apply table) = second.apply (first.apply table) := by
  funext key
  by_cases atFirst : first.key = key
  · by_cases atSecond : second.key = key
    · simp only [apply, if_pos atFirst, if_pos atSecond, effect_comm]
    · simp only [apply, if_neg atSecond]
  · simp only [apply, if_neg atFirst]

end Change

variable {κ : Type} [DecidableEq κ] {table : Table κ} {waiting others : List (Change κ)} {key : κ}

/-- The table once everything that waits has been done. -/
def eventual (waiting : List (Change κ)) (table : Table κ) : Table κ :=
  waiting.foldr Change.apply table

theorem eventual_append (waiting others : List (Change κ)) (table : Table κ) :
    eventual (waiting ++ others) table = eventual waiting (eventual others table) :=
  List.foldr_append

theorem eventual_perm (same : waiting.Perm others) : eventual waiting table = eventual others table :=
  have : LeftCommutative (Change.apply (κ := κ)) := ⟨Change.apply_comm⟩
  same.foldr_eq table

/-- Nothing that waits brings a key back. -/
theorem eventual_none (absent : table key = none) : eventual waiting table key = none := by
  induction waiting with
  | nil => exact absent
  | cons change rest ih => exact Change.apply_none ih

end UrlPulse.Data.Eventual
