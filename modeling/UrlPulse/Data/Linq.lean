import Mathlib.Algebra.GroupWithZero.Nat
import Mathlib.Data.List.Dedup
import Mathlib.Data.List.Sort

namespace UrlPulse.Data.Linq

/-! Stable sorting and first-appearance grouping of finite sequences, with the
partition laws their clients count with.  Nothing here depends on what the
elements are: a client supplies the key. -/

variable {α κ : Type}

/-- Stable ascending sort: elements with equal keys keep their order. -/
def orderBy [LinearOrder κ] (key : α → κ) (values : List α) : List α :=
  values.insertionSort (fun left right => key left ≤ key right)

def orderByDescending [LinearOrder κ] (key : α → κ) (values : List α) : List α :=
  values.insertionSort (fun left right => key right ≤ key left)

theorem orderBy_perm [LinearOrder κ] (key : α → κ) (values : List α) :
    (orderBy key values).Perm values :=
  List.perm_insertionSort _ values

@[simp] theorem mem_orderBy [LinearOrder κ] {key : α → κ} {values : List α} {value : α} :
    value ∈ orderBy key values ↔ value ∈ values :=
  (orderBy_perm key values).mem_iff

theorem orderBy_pairwise [LinearOrder κ] (key : α → κ) (values : List α) :
    (orderBy key values).Pairwise fun left right => key left ≤ key right := by
  let below : α → α → Prop := fun left right => key left ≤ key right
  have total : Std.Total below := ⟨fun left right => le_total (key left) (key right)⟩
  have transitive : IsTrans α below := ⟨fun _ _ _ first second => le_trans first second⟩
  exact List.pairwise_insertionSort below values

/-- Where no two elements share a key, the order they come in does not show. -/
theorem orderBy_eq_of_perm [LinearOrder κ] {key : α → κ} {first second : List α}
    (same : first.Perm second)
    (apart : ∀ left ∈ first, ∀ right ∈ first, key left = key right → left = right) :
    orderBy key first = orderBy key second := by
  have sorted : (orderBy key first).Perm (orderBy key second) :=
    (orderBy_perm key first).trans (same.trans (orderBy_perm key second).symm)
  refine sorted.eq_of_pairwise ?_ (orderBy_pairwise key first) (orderBy_pairwise key second)
  intro left right leftIn rightIn below above
  have rightInFirst : right ∈ first := same.mem_iff.mpr (mem_orderBy.mp rightIn)
  exact apart left (mem_orderBy.mp leftIn) right rightInFirst (le_antisymm below above)

/-- A sort by the ranks of names is as good as one by the names, where every element
has a name of its own and no two of these names share a rank. -/
theorem orderBy_eq_of_nodup {ν : Type} [LinearOrder κ] {name : α → ν} {rank : ν → κ}
    {first second : List α} (same : first.Perm second) (nodup : (first.map name).Nodup)
    (apart : ∀ left ∈ first, ∀ right ∈ first, rank (name left) = rank (name right) →
      name left = name right) :
    orderBy (fun value => rank (name value)) first =
      orderBy (fun value => rank (name value)) second := by
  refine orderBy_eq_of_perm same ?_
  intro left leftIn right rightIn sameRank
  exact List.inj_on_of_nodup_map nodup leftIn rightIn (apart left leftIn right rightIn sameRank)

theorem map_orderBy {β : Type} [LinearOrder κ] (f : α → β) (key : β → κ) (values : List α) :
    (orderBy (fun value => key (f value)) values).map f = orderBy key (values.map f) :=
  List.map_insertionSort _ _ f values fun _ _ _ _ => Iff.rfl

theorem map_orderByDescending {β : Type} [LinearOrder κ] (f : α → β) (key : β → κ) (values : List α) :
    (orderByDescending (fun value => key (f value)) values).map f =
      orderByDescending key (values.map f) :=
  List.map_insertionSort _ _ f values fun _ _ _ _ => Iff.rfl

theorem sum_map_orderBy [LinearOrder κ] (key : α → κ) (f : α → Nat) (values : List α) :
    ((orderBy key values).map f).sum = (values.map f).sum :=
  ((orderBy_perm key values).map f).sum_nat

theorem orderByDescending_perm [LinearOrder κ] (key : α → κ) (values : List α) :
    (orderByDescending key values).Perm values :=
  List.perm_insertionSort _ values

@[simp] theorem mem_orderByDescending [LinearOrder κ] {key : α → κ} {values : List α} {value : α} :
    value ∈ orderByDescending key values ↔ value ∈ values :=
  (orderByDescending_perm key values).mem_iff

theorem le_of_head?_orderByDescending [LinearOrder κ] {key : α → κ} {values : List α} {first : α}
    (head : (orderByDescending key values).head? = some first) :
    first ∈ values ∧ ∀ value ∈ values, key value ≤ key first := by
  let above : α → α → Prop := fun left right => key right ≤ key left
  have total : Std.Total above := ⟨fun left right => le_total (key right) (key left)⟩
  have transitive : IsTrans α above := ⟨fun _ _ _ first second => le_trans second first⟩
  have sorted : (orderByDescending key values).Pairwise above :=
    List.pairwise_insertionSort above values
  obtain ⟨rest, shape⟩ := List.head?_eq_some_iff.mp head
  rw [shape] at sorted
  have member : first ∈ orderByDescending key values := by rw [shape]; simp
  refine ⟨mem_orderByDescending.mp member, ?_⟩
  intro value inside
  have placed : value ∈ first :: rest := by
    rw [← shape]
    exact mem_orderByDescending.mpr inside
  rcases List.mem_cons.mp placed with rfl | later
  · exact le_rfl
  · exact List.rel_of_pairwise_cons sorted later

@[simp] theorem head?_orderByDescending_eq_none [LinearOrder κ] {key : α → κ} {values : List α} :
    (orderByDescending key values).head? = none ↔ values = [] := by
  rw [List.head?_eq_none_iff]
  constructor
  · intro empty
    exact List.perm_nil.mp (empty ▸ (orderByDescending_perm key values).symm)
  · intro empty
    rw [empty]
    rfl

variable [DecidableEq κ]

def distinct (keys : List κ) : List κ :=
  keys.reverse.dedup.reverse

@[simp] theorem mem_distinct {keys : List κ} {key : κ} : key ∈ distinct keys ↔ key ∈ keys := by
  simp [distinct]

theorem nodup_distinct (keys : List κ) : (distinct keys).Nodup := by
  simpa [distinct] using List.nodup_dedup keys.reverse

theorem filter_key_of_nodup {key : α → κ} {values : List α} (nodup : (values.map key).Nodup)
    {value : α} (member : value ∈ values) :
    (values.filter fun other => key other = key value) = [value] := by
  induction values with
  | nil => contradiction
  | cons head tail ih =>
      obtain ⟨fresh, restNodup⟩ := List.nodup_cons.mp nodup
      rcases List.mem_cons.mp member with rfl | later
      · have others : (tail.filter fun other => key other = key value) = [] := by
          refine List.filter_eq_nil_iff.mpr fun other inside same => fresh ?_
          exact List.mem_map.mpr ⟨other, inside, by simpa using same⟩
        simp [others]
      · have different : key head ≠ key value :=
          fun same => fresh (same ▸ List.mem_map_of_mem later)
        simpa [different] using ih restNodup later

/-- Groups in order of first appearance of their key; the elements of a group
keep the order of the source. -/
def groupBy (key : α → κ) (values : List α) : List (κ × List α) :=
  (distinct (values.map key)).map fun k => (k, values.filter fun value => key value = k)

theorem groupBy_keys (key : α → κ) (values : List α) :
    (groupBy key values).map Prod.fst = distinct (values.map key) := by
  simp [groupBy, Function.comp_def]

theorem nodup_groupBy_keys (key : α → κ) (values : List α) :
    ((groupBy key values).map Prod.fst).Nodup := by
  rw [groupBy_keys]
  exact nodup_distinct _

theorem mem_groupBy {key : α → κ} {values : List α} {group : κ × List α} :
    group ∈ groupBy key values ↔
      (∃ value ∈ values, key value = group.1) ∧
        group.2 = values.filter fun value => key value = group.1 := by
  constructor
  · intro member
    obtain ⟨k, inKeys, rfl⟩ := List.mem_map.mp member
    exact ⟨List.mem_map.mp (mem_distinct.mp inKeys), rfl⟩
  · intro shape
    obtain ⟨present, elements⟩ := shape
    exact List.mem_map.mpr ⟨group.1, mem_distinct.mpr (List.mem_map.mpr present),
      Prod.ext rfl elements.symm⟩

/-- What is computed from each group without regard to the order inside it does
not depend on the order of the source, except for the order of the groups. -/
theorem groupBy_map_perm {β : Type} (key : α → κ) {first second : List α}
    {f : κ × List α → β} (same : first.Perm second)
    (unordered : ∀ k left right, List.Perm left right → f (k, left) = f (k, right)) :
    ((groupBy key first).map f).Perm ((groupBy key second).map f) := by
  have keys : (distinct (first.map key)).Perm (distinct (second.map key)) := by
    refine (List.perm_ext_iff_of_nodup (nodup_distinct _) (nodup_distinct _)).mpr ?_
    intro k
    rw [mem_distinct, mem_distinct]
    exact (same.map key).mem_iff
  have fibres : ∀ k, f (k, first.filter fun value => key value = k) =
      f (k, second.filter fun value => key value = k) :=
    fun k => unordered k _ _ (same.filter _)
  simp only [groupBy, List.map_map, Function.comp_def, fibres]
  exact keys.map _

/-- Disjoint fibres of distinct keys, laid end to end, are exactly the elements
whose key is listed. -/
theorem fibres_perm (key : α → κ) {keys : List κ} (nodup : keys.Nodup) (values : List α) :
    (keys.flatMap fun k => values.filter fun value => key value = k).Perm
      (values.filter fun value => key value ∈ keys) := by
  induction keys generalizing values with
  | nil => simp
  | cons head tail ih =>
      obtain ⟨fresh, restNodup⟩ := List.nodup_cons.mp nodup
      let others := values.filter fun value => key value ∈ head :: tail ∧ key value ≠ head
      have restFibres : (tail.flatMap fun k => values.filter fun value => key value = k).Perm others := by
        refine (ih restNodup values).trans (List.Perm.of_eq (List.filter_congr ?_))
        intro value _
        by_cases listed : key value ∈ tail
        · have different : key value ≠ head := fun same => fresh (same ▸ listed)
          simp [listed, different]
        · simp [listed]
      have split : (values.filter fun value => key value ∈ head :: tail).Perm
          ((values.filter fun value => key value = head) ++ others) := by
        refine (List.filter_append_perm (fun value => key value = head) _).symm.trans ?_
        rw [List.filter_filter, List.filter_filter]
        refine List.Perm.of_eq (congrArg₂ (· ++ ·) ?_ ?_)
        · exact List.filter_congr fun value _ => by by_cases same : key value = head <;> simp [same]
        · exact List.filter_congr fun value _ => by simp [and_comm]
      rw [List.flatMap_cons]
      exact (restFibres.append_left _).trans split.symm

/-- Grouping is a partition: the groups laid end to end are the source. -/
theorem groupBy_perm (key : α → κ) (values : List α) :
    ((groupBy key values).flatMap Prod.snd).Perm values := by
  simp only [groupBy, List.flatMap_map]
  refine (fibres_perm key (nodup_distinct _) values).trans (List.Perm.of_eq ?_)
  apply List.filter_eq_self.mpr
  intro value member
  exact decide_eq_true (mem_distinct.mpr (List.mem_map_of_mem member))

theorem groupBy_where_perm (key : α → κ) (keep : κ → Bool) (values : List α) :
    (((groupBy key values).filter fun group => keep group.1).flatMap Prod.snd).Perm
      (values.filter fun value => keep (key value)) := by
  simp only [groupBy, List.filter_map, List.flatMap_map]
  refine (fibres_perm key ((nodup_distinct _).filter _) values).trans (List.Perm.of_eq ?_)
  apply List.filter_congr
  intro value member
  have listed : key value ∈ distinct (values.map key) :=
    mem_distinct.mpr (List.mem_map_of_mem member)
  simp [List.mem_filter, listed]

theorem countP_groupBy (key : α → κ) (p : α → Bool) (values : List α) :
    ((groupBy key values).map fun group => group.2.countP p).sum = values.countP p := by
  rw [← (groupBy_perm key values).countP_eq p, List.countP_flatMap]
  rfl

theorem length_groupBy (key : α → κ) (values : List α) :
    ((groupBy key values).map fun group => group.2.length).sum = values.length := by
  rw [← (groupBy_perm key values).length_eq, List.length_flatMap]

theorem length_groupBy_where (key : α → κ) (keep : κ → Bool) (values : List α) :
    (((groupBy key values).filter fun group => keep group.1).map fun group => group.2.length).sum =
      values.countP fun value => keep (key value) := by
  rw [List.countP_eq_length_filter, ← (groupBy_where_perm key keep values).length_eq,
    List.length_flatMap]

theorem countP_add_of_disjoint {p q : α → Bool} (disjoint : ∀ value, ¬ (p value = true ∧ q value = true))
    (values : List α) :
    values.countP p + values.countP q = values.countP fun value => p value || q value := by
  induction values with
  | nil => rfl
  | cons head tail ih =>
      have apart := disjoint head
      simp only [List.countP_cons, ← ih]
      cases left : p head <;> cases right : q head <;> simp_all <;> omega

end UrlPulse.Data.Linq
