import Mathlib.Algebra.BigOperators.Ring.List
import Mathlib.Algebra.Order.BigOperators.Group.List
import Mathlib.Algebra.Order.Floor.Semiring
import Mathlib.Data.Rat.Floor
import UrlPulse.Data.Linq

namespace UrlPulse.Data.Statistics

open UrlPulse.Data.Linq

/-! Ranks, truncated means and distances in finite sequences.  The value at a rank
is told by counting, so that it does not depend on an order of the sequence, and
so that the ranks of parts can be compared with the rank of the whole.
-/

/-! ## The value at a rank -/

section Ranks

variable {α : Type} [LinearOrder α] {values others : List α} {value other : α} {rank later : Nat}

/-- At least `rank` of the values are up to this one, and fewer are below it. -/
structure Ranked (rank : Nat) (values : List α) (value : α) : Prop where
  member : value ∈ values
  reached : rank ≤ values.countP (· ≤ value)
  fewer : values.countP (· < value) < rank

theorem Ranked.pos (ranked : Ranked rank values value) : 0 < rank :=
  Nat.zero_lt_of_lt ranked.fewer

theorem countP_le_countP_lt (values : List α) (below : value < other) :
    values.countP (· ≤ value) ≤ values.countP (· < other) := by
  apply List.countP_mono_left
  intro element _ upTo
  exact decide_eq_true (lt_of_le_of_lt (of_decide_eq_true upTo) below)

theorem Ranked.le (first : Ranked rank values value) (second : Ranked later values other)
    (order : rank ≤ later) : value ≤ other := by
  by_contra above
  have between := countP_le_countP_lt values (not_le.mp above)
  have fewer := first.fewer
  have reached := second.reached
  omega

theorem Ranked.unique (first : Ranked rank values value) (second : Ranked rank values other) :
    value = other :=
  le_antisymm (first.le second le_rfl) (second.le first le_rfl)

theorem Ranked.perm (ranked : Ranked rank values value) (same : values.Perm others) :
    Ranked rank others value where
  member := same.mem_iff.mp ranked.member
  reached := by
    rw [← same.countP_eq]
    exact ranked.reached
  fewer := by
    rw [← same.countP_eq]
    exact ranked.fewer

/-- The place of a value in the sorted sequence, counted from one, is a rank of it. -/
theorem ranked_of_getElem? {index : Nat} (found : (orderBy id values)[index]? = some value) :
    Ranked (index + 1) values value := by
  obtain ⟨inside, placed⟩ := List.getElem?_eq_some_iff.mp found
  have sorted := orderBy_pairwise id values
  have upTo : ∀ element ∈ (orderBy id values).take (index + 1), element ≤ value := by
    intro element member
    obtain ⟨place, bound, rfl⟩ := List.mem_take_iff_getElem.mp member
    rcases Nat.lt_or_ge place index with earlier | notEarlier
    · rw [← placed]
      exact List.pairwise_iff_getElem.mp sorted place index (by omega) inside earlier
    · have same : place = index := by omega
      subst same
      exact placed.le
  have notBelow : ∀ element ∈ (orderBy id values).drop index, ¬ element < value := by
    intro element member
    obtain ⟨place, bound, rfl⟩ := List.mem_drop_iff_getElem.mp member
    rcases Nat.eq_zero_or_pos place with first | afterwards
    · subst first
      exact not_lt.mpr placed.ge
    · rw [← placed]
      exact not_lt.mpr
        (List.pairwise_iff_getElem.mp sorted index (index + place) inside (by omega) (by omega))
  refine Ranked.perm ⟨List.mem_of_getElem? found, ?_, ?_⟩ (orderBy_perm id values)
  · have all := List.countP_eq_length.mpr fun element member => decide_eq_true (upTo element member)
    rw [List.length_take_of_le (by omega)] at all
    rw [← all]
    exact (List.take_sublist _ _).countP_le
  · have none := List.countP_eq_zero.mpr fun element member =>
      (fun below => notBelow element member (of_decide_eq_true below) :
        ¬ decide (element < value) = true)
    rw [← List.take_append_drop index (orderBy id values), List.countP_append, none]
    have most := List.countP_le_length (p := fun element => decide (element < value))
      (l := (orderBy id values).take index)
    rw [List.length_take_of_le (by omega)] at most
    omega

theorem exists_ranked {rank : Nat} (positive : 0 < rank) (bound : rank ≤ values.length) :
    ∃ value, (orderBy id values)[rank - 1]? = some value ∧ Ranked rank values value := by
  have inside : rank - 1 < (orderBy id values).length := by
    rw [(orderBy_perm id values).length_eq]
    omega
  have found := List.getElem?_eq_getElem inside
  have ranked := ranked_of_getElem? found
  rw [Nat.sub_add_cancel positive] at ranked
  exact ⟨_, found, ranked⟩

/-- A new least element takes the first place and moves every rank up by one. -/
theorem ranked_succ_cons {least : α} (below : ∀ element ∈ values, least ≤ element)
    (positive : 0 < rank) : Ranked (rank + 1) (least :: values) value ↔ Ranked rank values value := by
  constructor
  · intro ranked
    have reached := ranked.reached
    have fewer := ranked.fewer
    by_cases lowest : value = least
    · subst lowest
      simp only [List.countP_cons, le_refl, lt_irrefl, decide_true, decide_false] at reached fewer
      have repeated : 0 < values.countP (· ≤ value) := by simp at reached; omega
      obtain ⟨element, member, upTo⟩ := List.countP_pos_iff.mp repeated
      have same : element = value := le_antisymm (of_decide_eq_true upTo) (below element member)
      have none : values.countP (· < value) = 0 :=
        List.countP_eq_zero.mpr fun element member => by simpa using below element member
      exact ⟨same ▸ member, by simpa using reached, by omega⟩
    · have member : value ∈ values :=
        (List.mem_cons.mp ranked.member).resolve_left lowest
      have above : least < value := lt_of_le_of_ne (below value member) (Ne.symm lowest)
      simp only [List.countP_cons, above.le, above, decide_true, if_true] at reached fewer
      exact ⟨member, by omega, by omega⟩
  · intro ranked
    have reached := ranked.reached
    have fewer := ranked.fewer
    have upTo := below value ranked.member
    refine ⟨List.mem_cons_of_mem least ranked.member, ?_, ?_⟩
    · simp only [List.countP_cons, upTo, decide_true, if_true]
      omega
    · rw [List.countP_cons]
      split <;> omega

/-- What is at a rank with a new least element is what was there before, where the
rank moves along, or where the element a rank lower is the same. -/
theorem Ranked.cons_eq_iff {least : α} (below : ∀ element ∈ values, least ≤ element)
    (before : Ranked rank values value) (after : Ranked later (least :: values) other)
    (grows : later = rank ∨ later = rank + 1) :
    other = value ↔ later = rank + 1 ∨ ∃ kept ∈ values, rank ≤ values.countP (· ≤ kept) ∧
      (kept = least ∨ values.countP (· < kept) + 1 < rank) := by
  have positive := before.pos
  constructor
  · intro same
    rcases grows with stays | moves
    · right
      subst same stays
      refine ⟨other, before.member, before.reached, ?_⟩
      by_cases lowest : other = least
      · exact .inl lowest
      · right
        have above : least < other := lt_of_le_of_ne (below other before.member) (Ne.symm lowest)
        have fewer := after.fewer
        simp only [List.countP_cons, above, decide_true, if_true] at fewer
        exact fewer
    · exact .inl moves
  · intro kept
    rcases grows with stays | moves
    · rcases kept with moves | ⟨kept, member, reached, lower⟩
      · omega
      · subst stays
        have none : values.countP (· < least) = 0 :=
          List.countP_eq_zero.mpr fun element inside => by simpa using below element inside
        have few : values.countP (· < kept) < later := by
          rcases lower with rfl | fewer <;> omega
        have one : Ranked later values kept := ⟨member, reached, few⟩
        have two : Ranked later (least :: values) kept := by
          refine ⟨List.mem_cons_of_mem least member, ?_, ?_⟩
          · simp only [List.countP_cons, below kept member, decide_true, if_true]
            omega
          · rcases lower with rfl | fewer
            · simpa only [List.countP_cons, lt_irrefl, decide_false, Bool.false_eq_true, if_false,
                Nat.add_zero] using few
            · rw [List.countP_cons]
              split <;> omega
        exact (after.unique two).trans (one.unique before)
    · subst moves
      exact after.unique ((ranked_succ_cons below positive).mpr before)

end Ranks

/-! ## Parts and the whole -/

section Parts

variable {α γ : Type} [LinearOrder α] {parts : List γ} {elements : γ → List α} {whole : List α}
  {rank : Nat} {rankOf : γ → Nat} {value : α} {valueOf : γ → α}
  (partition : (parts.flatMap elements).Perm whole) (ranked : Ranked rank whole value)
  (partRanked : ∀ part ∈ parts, Ranked (rankOf part) (elements part) (valueOf part))
include partition ranked partRanked

/-- Ranks that add up to at least the whole's: some part's value is as high. -/
theorem exists_le_part (enough : rank ≤ (parts.map rankOf).sum) :
    ∃ part ∈ parts, value ≤ valueOf part := by
  by_contra none
  have below : ∀ part ∈ parts, rankOf part ≤ (elements part).countP (· < value) := by
    intro part member
    have lower : valueOf part < value := not_le.mp fun high => none ⟨part, member, high⟩
    exact (partRanked part member).reached.trans (countP_le_countP_lt _ lower)
  have summed := List.sum_le_sum below
  have counted : (parts.map fun part => (elements part).countP (· < value)).sum =
      whole.countP (· < value) := by
    rw [← partition.countP_eq, List.countP_flatMap]
    rfl
  have fewer := ranked.fewer
  omega

/-- Ranks that add up, each less one, to less than the whole's: some part's value is as low. -/
theorem exists_part_le (few : (parts.map fun part => rankOf part - 1).sum < rank) :
    ∃ part ∈ parts, valueOf part ≤ value := by
  by_contra none
  have above : ∀ part ∈ parts, (elements part).countP (· ≤ value) ≤ rankOf part - 1 := by
    intro part member
    have higher : value < valueOf part := not_le.mp fun low => none ⟨part, member, low⟩
    have between := countP_le_countP_lt (elements part) higher
    have fewer := (partRanked part member).fewer
    omega
  have summed := List.sum_le_sum above
  have counted : (parts.map fun part => (elements part).countP (· ≤ value)).sum =
      whole.countP (· ≤ value) := by
    rw [← partition.countP_eq, List.countP_flatMap]
    rfl
  have reached := ranked.reached
  omega

end Parts

/-! ## Nearest rank -/

/-- The rank that a share `p` of `count` elements reaches. -/
def nearestRank (p : ℚ) (count : Nat) : Nat := ⌈p * count⌉₊

section NearestRank

variable {p : ℚ} {count : Nat}

theorem nearestRank_pos (positive : 0 < p) (present : 0 < count) : 0 < nearestRank p count :=
  Nat.ceil_pos.mpr (mul_pos positive (Nat.cast_pos.mpr present))

theorem nearestRank_le (bound : p ≤ 1) : nearestRank p count ≤ count :=
  Nat.ceil_le.mpr (mul_le_of_le_one_left (Nat.cast_nonneg count) bound)

theorem nearestRank_mono {q : ℚ} (order : p ≤ q) : nearestRank p count ≤ nearestRank q count :=
  Nat.ceil_mono (mul_le_mul_of_nonneg_right order (Nat.cast_nonneg count))

theorem nearestRank_le_succ (nonneg : 0 ≤ p) : nearestRank p count ≤ nearestRank p (count + 1) := by
  apply Nat.ceil_mono
  push_cast
  linarith

theorem nearestRank_succ_le (bound : p ≤ 1) :
    nearestRank p (count + 1) ≤ nearestRank p count + 1 := by
  apply Nat.ceil_le.mpr
  have reached := Nat.le_ceil (p * count)
  push_cast
  rw [nearestRank]
  linarith

theorem nearestRank_sum_le (p : ℚ) (counts : List Nat) :
    nearestRank p counts.sum ≤ (counts.map (nearestRank p)).sum := by
  induction counts with
  | nil => simp [nearestRank]
  | cons count rest ih =>
      have split : nearestRank p (count + rest.sum) ≤
          nearestRank p count + nearestRank p rest.sum := by
        simp only [nearestRank, Nat.cast_add, mul_add]
        exact Nat.ceil_add_le _ _
      simp only [List.sum_cons, List.map_cons]
      omega

/-- Each rank falls short of its share by less than one when one is taken off. -/
theorem sum_nearestRank_lt (positive : 0 < p) {counts : List Nat} (nonempty : counts ≠ [])
    (occupied : ∀ count ∈ counts, 0 < count) :
    (counts.map fun count => nearestRank p count - 1).sum < nearestRank p counts.sum := by
  have short : ∀ count ∈ counts, ((nearestRank p count - 1 : Nat) : ℚ) < p * count := by
    intro count member
    have rank := nearestRank_pos positive (occupied count member)
    have ceiling := Nat.ceil_lt_add_one
      (mul_nonneg positive.le (Nat.cast_nonneg (α := ℚ) count))
    rw [Nat.cast_sub rank, Nat.cast_one]
    rw [← nearestRank] at ceiling
    linarith
  have total : (((counts.map fun count => nearestRank p count - 1).sum : Nat) : ℚ) <
      p * (counts.sum : Nat) := by
    clear occupied
    induction counts with
    | nil => contradiction
    | cons count rest ih =>
        have first := short count (by simp)
        rw [List.map_cons, List.sum_cons, List.sum_cons, Nat.cast_add, Nat.cast_add, mul_add]
        rcases rest.eq_nil_or_concat with rfl | nonempty
        · simpa using first
        · have more : rest ≠ [] := by
            obtain ⟨init, last, shape⟩ := nonempty
            simp [shape]
          have remaining := ih more fun other member => short other (List.mem_cons_of_mem count member)
          linarith
  have reached := Nat.le_ceil (p * (counts.sum : Nat))
  rw [← nearestRank] at reached
  exact_mod_cast lt_of_lt_of_le total reached

end NearestRank

/-! ## Truncated means -/

def mean (values : List Nat) : Nat := values.sum / values.length

theorem mean_perm {values others : List Nat} (same : values.Perm others) :
    mean values = mean others := by
  rw [mean, mean, same.sum_nat, same.length_eq]

theorem mean_le {values : List Nat} {limit : Nat} (bounded : ∀ value ∈ values, value ≤ limit) :
    mean values ≤ limit :=
  Nat.div_le_of_le_mul (List.sum_le_card_nsmul values limit bounded)

/-- A zero more leaves the mean alone exactly when the sum carries one mean more. -/
theorem mean_cons_zero (values : List Nat) :
    mean (0 :: values) = mean values ↔ values.sum / values.length ≤ values.sum % values.length := by
  rcases Nat.eq_zero_or_pos values.length with none | some
  · simp [mean, List.eq_nil_of_length_eq_zero none]
  · have divided := Nat.div_add_mod values.sum values.length
    have remainder := Nat.mod_lt values.sum some
    have multiple : values.length * (values.sum / values.length) =
        values.sum / values.length * values.length := Nat.mul_comm _ _
    simp only [mean, List.sum_cons, List.length_cons, Nat.zero_add]
    generalize values.sum / values.length = quotient at divided multiple ⊢
    constructor
    · intro kept
      have below := Nat.div_mul_le_self values.sum (values.length + 1)
      rw [kept, Nat.mul_succ] at below
      omega
    · intro carried
      apply Nat.div_eq_of_lt_le
      · rw [Nat.mul_succ]
        omega
      · rw [Nat.mul_succ, Nat.succ_mul]
        omega

section Means

variable {γ : Type} {parts : List γ} {elements : γ → List Nat} {whole : List Nat}
  (partition : (parts.flatMap elements).Perm whole)
include partition

theorem sum_parts : whole.sum = (parts.map fun part => (elements part).sum).sum := by
  rw [← partition.sum_nat, List.flatMap, List.sum_flatten, List.map_map]
  rfl

theorem length_parts : whole.length = (parts.map fun part => (elements part).length).sum := by
  rw [← partition.length_eq, List.length_flatMap]

variable (nonempty : whole ≠ []) (occupied : ∀ part ∈ parts, elements part ≠ [])
include nonempty occupied

/-- The mean of the whole is not below every part's. -/
theorem exists_mean_le : ∃ part ∈ parts, mean (elements part) ≤ mean whole := by
  by_contra none
  have above : ∀ part ∈ parts,
      (mean whole + 1) * (elements part).length ≤ (elements part).sum := by
    intro part member
    have higher : mean whole < mean (elements part) := not_le.mp fun low => none ⟨part, member, low⟩
    exact (Nat.le_div_iff_mul_le (List.length_pos_iff.mpr (occupied part member))).mp higher
  have summed := List.sum_le_sum above
  rw [List.sum_map_mul_left, ← length_parts partition, ← sum_parts partition] at summed
  have reached := (Nat.le_div_iff_mul_le (List.length_pos_iff.mpr nonempty)).mpr summed
  exact absurd reached (Nat.not_succ_le_self _)

theorem exists_le_mean : ∃ part ∈ parts, mean whole ≤ mean (elements part) := by
  by_contra none
  have below : ∀ part ∈ parts, (elements part).sum < mean whole * (elements part).length := by
    intro part member
    have lower : mean (elements part) < mean whole := not_le.mp fun high => none ⟨part, member, high⟩
    exact (Nat.div_lt_iff_lt_mul (List.length_pos_iff.mpr (occupied part member))).mp lower
  have several : parts ≠ [] := by
    intro empty
    rw [empty] at partition
    exact nonempty (List.nil_perm.mp partition)
  have summed := List.sum_lt_sum_of_ne_nil several _ _ below
  rw [List.sum_map_mul_left, ← length_parts partition, ← sum_parts partition] at summed
  exact absurd (Nat.div_mul_le_self whole.sum whole.length) (not_le.mpr summed)

end Means

/-! ## Values that keep a distance -/

/-- Increasing values a gap apart do not fit into a range more often than it has room. -/
theorem length_mul_le_of_apart {gap low high : Nat} {values : List Nat}
    (apart : values.Pairwise fun left right => left + gap ≤ right)
    (inside : ∀ value ∈ values, low ≤ value ∧ value ≤ high) (room : low ≤ high + gap) :
    low + values.length * gap ≤ high + gap := by
  induction values generalizing low with
  | nil => simpa using room
  | cons first rest ih =>
      obtain ⟨ahead, apartRest⟩ := List.pairwise_cons.mp apart
      have bounds := inside first List.mem_cons_self
      have later : ∀ value ∈ rest, low + gap ≤ value ∧ value ≤ high := by
        intro value member
        have away := ahead value member
        exact ⟨by omega, (inside value (List.mem_cons_of_mem first member)).2⟩
      have counted := ih apartRest later (by omega)
      rw [List.length_cons, Nat.succ_mul]
      omega

/-- Ranges that follow one another and each hold a value hold as many as they are. -/
theorem le_countP_of_ranges {β : Type} (value : β → Nat) {low width count : Nat} {elements : List β}
    (each : ∀ i < count, ∃ element ∈ elements,
      low + i * width ≤ value element ∧ value element < low + (i + 1) * width) :
    count ≤ elements.countP fun element =>
      low ≤ value element ∧ value element < low + count * width := by
  induction count with
  | zero => exact Nat.zero_le _
  | succ count ih =>
      have earlier := ih fun i below => each i (Nat.lt_succ_of_lt below)
      obtain ⟨element, member, after, before⟩ := each count (Nat.lt_succ_self count)
      have wider : low + count * width ≤ low + (count + 1) * width :=
        Nat.add_le_add_left (Nat.mul_le_mul_right width (Nat.le_succ count)) low
      -- those of the last range come on top of those of the others
      rw [List.countP_eq_countP_filter_add elements _ fun element => value element < low + count * width,
        List.countP_filter, List.countP_filter]
      refine Nat.add_le_add (earlier.trans (List.countP_mono_left ?_)) ?_
      · intro other _ inside
        simp only [decide_eq_true_eq] at inside
        simp only [Bool.and_eq_true, decide_eq_true_eq]
        exact ⟨⟨inside.1, inside.2.trans_le wider⟩, inside.2⟩
      · refine List.countP_pos_iff.mpr ⟨element, member, ?_⟩
        simp only [Bool.and_eq_true, decide_eq_true_eq, Bool.not_eq_true', decide_eq_false_iff_not]
        exact ⟨⟨(Nat.le_add_right _ _).trans after, before⟩, not_lt_of_ge after⟩

end UrlPulse.Data.Statistics
