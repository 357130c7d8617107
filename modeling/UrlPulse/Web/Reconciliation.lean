import Mathlib.Algebra.BigOperators.Group.List.Basic
import UrlPulse.Web.Analytics

namespace UrlPulse.Web.Analytics

open UrlPulse.Core UrlPulse.Data.Linq

/-! # The answers about one window reconcile

The status distribution counts every row of the window under one label, and the
stat cards, the regional comparison and the latency series count parts of it.
-/

/-- A label `kxx` with `k` at least `least`. -/
def FamilyFrom (least : Nat) (label : String) : Prop :=
  ∃ family, least ≤ family ∧ label = familyLabel family

/-- The counts of the labels that satisfy `keep`. -/
def countWhere (keep : String → Bool) (distribution : List StatusCount) : Nat :=
  ((distribution.filter fun entry => keep entry.label).map (·.count)).sum

/-! ## Labels -/

def familyOf (label : String) : Nat :=
  Nat.ofDigitChars 10 label.toList.dropLast.dropLast 0

theorem toList_familyLabel (family : Nat) :
    (familyLabel family).toList = Nat.toDigits 10 family ++ ['x', 'x'] := by
  simp [familyLabel]

theorem familyOf_familyLabel (family : Nat) : familyOf (familyLabel family) = family := by
  have digits : (Nat.toDigits 10 family ++ ['x', 'x']).dropLast.dropLast = Nat.toDigits 10 family := by
    simp
  rw [familyOf, toList_familyLabel, digits]
  exact Nat.ofDigitChars_ten_toDigits

theorem familyLabel_injective : Function.Injective familyLabel :=
  Function.LeftInverse.injective familyOf_familyLabel

theorem familyLabel_ne_timeout (family : Nat) : familyLabel family ≠ "Timeout" := by
  intro same
  have last := congrArg (fun label => label.toList.getLast?) same
  simp [toList_familyLabel] at last

instance (least : Nat) (label : String) : Decidable (FamilyFrom least label) :=
  decidable_of_iff (least ≤ familyOf label ∧ label = familyLabel (familyOf label)) (by
    constructor
    · intro read
      exact ⟨_, read⟩
    · intro labelled
      obtain ⟨family, bound, rfl⟩ := labelled
      rw [familyOf_familyLabel]
      exact ⟨bound, rfl⟩)

theorem familyFrom_familyLabel {least family : Nat} :
    FamilyFrom least (familyLabel family) ↔ least ≤ family := by
  constructor
  · intro labelled
    obtain ⟨other, bound, same⟩ := labelled
    rw [familyLabel_injective same]
    exact bound
  · intro bound
    exact ⟨family, bound, rfl⟩

/-! ## What a label says about a code -/

/-- The timeouts and the families from `least` on are the codes from its hundred on. -/
theorem timeout_or_familyFrom_iff {least code : Nat} :
    (statusLabel code = "Timeout" ∨ FamilyFrom least (statusLabel code)) ↔
      code = 0 ∨ least * 100 ≤ code := by
  by_cases timeout : code = 0
  · simp [timeout, statusLabel]
  · have hundreds : least ≤ code / 100 ↔ least * 100 ≤ code := Nat.le_div_iff_mul_le (by decide)
    simp [timeout, statusLabel, familyLabel_ne_timeout, familyFrom_familyLabel, hundreds]

theorem isSuccess_iff {row : LatencyHistory} :
    isSuccess row = true ↔ statusLabel row.statusCode = "2xx" := by
  have second : "2xx" = familyLabel 2 := by decide
  unfold statusLabel
  by_cases timeout : row.statusCode = 0
  · have different := (familyLabel_ne_timeout 2).symm
    simp [isSuccess, timeout, second, different]
  · have hundreds : row.statusCode / 100 = 2 ↔ 200 ≤ row.statusCode ∧ row.statusCode < 300 := by omega
    simp [isSuccess, timeout, second, familyLabel_injective.eq_iff, hundreds]

/-! ## Counting the distribution -/

theorem statusDistribution_perm (rows : List LatencyHistory) :
    (statusDistribution rows).Perm ((groupBy statusLabel (rows.map (·.statusCode))).map fun g =>
      { label := g.1, count := g.2.length }) :=
  orderBy_perm _ _

theorem countWhere_statusDistribution (keep : String → Bool) (rows : List LatencyHistory) :
    countWhere keep (statusDistribution rows) =
      rows.countP fun row => keep (statusLabel row.statusCode) := by
  have counted := (((statusDistribution_perm rows).filter fun entry => keep entry.label).map
    (·.count)).sum_eq
  have whole := length_groupBy_where statusLabel keep (rows.map (·.statusCode))
  rw [countWhere, counted, List.filter_map, List.map_map]
  rw [List.countP_map] at whole
  exact whole

theorem nodup_labels (rows : List LatencyHistory) :
    ((statusDistribution rows).map (·.label)).Nodup := by
  rw [((statusDistribution_perm rows).map (·.label)).nodup_iff, List.map_map]
  exact nodup_groupBy_keys statusLabel (rows.map (·.statusCode))

theorem mem_statusDistribution {entry : StatusCount} {rows : List LatencyHistory} :
    entry ∈ statusDistribution rows ↔
      (∃ row ∈ rows, statusLabel row.statusCode = entry.label) ∧
        entry.count = rows.countP fun row => statusLabel row.statusCode = entry.label := by
  have occurs : ∀ label, (∃ code ∈ rows.map (·.statusCode), statusLabel code = label) ↔
      ∃ row ∈ rows, statusLabel row.statusCode = label := by
    intro label
    simp only [List.mem_map, exists_exists_and_eq_and]
  have size : ∀ label, ((rows.map (·.statusCode)).filter fun code => statusLabel code = label).length =
      rows.countP fun row => statusLabel row.statusCode = label := by
    intro label
    rw [← List.countP_eq_length_filter, List.countP_map]
    rfl
  rw [(statusDistribution_perm rows).mem_iff, List.mem_map]
  constructor
  · intro grouped
    obtain ⟨g, member, rfl⟩ := grouped
    obtain ⟨present, elements⟩ := mem_groupBy.mp member
    refine ⟨(occurs g.1).mp present, ?_⟩
    rw [elements]
    exact size g.1
  · intro counted
    obtain ⟨present, count⟩ := counted
    have member : (entry.label, (rows.map (·.statusCode)).filter fun code =>
        statusLabel code = entry.label) ∈ groupBy statusLabel (rows.map (·.statusCode)) :=
      mem_groupBy.mpr ⟨(occurs entry.label).mpr present, rfl⟩
    refine ⟨_, member, ?_⟩
    rw [size, ← count]

theorem sum_statusDistribution (rows : List LatencyHistory) :
    ((statusDistribution rows).map (·.count)).sum = rows.length := by
  rw [((statusDistribution_perm rows).map (·.count)).sum_nat, List.map_map]
  exact (length_groupBy statusLabel (rows.map (·.statusCode))).trans (List.length_map _)

theorem existsUnique_entry {row : LatencyHistory} {rows : List LatencyHistory} (member : row ∈ rows) :
    ∃! entry, entry ∈ statusDistribution rows ∧ entry.label = statusLabel row.statusCode := by
  let label := statusLabel row.statusCode
  refine ⟨⟨label, rows.countP fun other => statusLabel other.statusCode = label⟩,
    ⟨mem_statusDistribution.mpr ⟨⟨row, member, rfl⟩, rfl⟩, rfl⟩, ?_⟩
  intro other same
  obtain ⟨otherLabel, count⟩ := other
  obtain ⟨listed, same⟩ := same
  have counted := (mem_statusDistribution.mp listed).2
  simp only at same counted
  rw [counted, same]

theorem countWhere_timeout_add (least : Nat) (rows : List LatencyHistory) :
    countWhere (fun label => label = "Timeout") (statusDistribution rows) +
        countWhere (fun label => FamilyFrom least label) (statusDistribution rows) =
      rows.countP fun row => row.statusCode = 0 || least * 100 ≤ row.statusCode := by
  rw [countWhere_statusDistribution, countWhere_statusDistribution, countP_add_of_disjoint]
  · apply List.countP_congr
    intro row _
    simpa using timeout_or_familyFrom_iff
  · intro row both
    obtain ⟨timeout, family⟩ := both
    obtain ⟨number, -, same⟩ := of_decide_eq_true family
    exact familyLabel_ne_timeout number (same.symm.trans (of_decide_eq_true timeout))

/-! ## Counting the regions -/

theorem sum_regionSummary (rows : List LatencyHistory) :
    ((regionSummary rows).map (·.totalChecks)).sum =
      rows.countP fun row => !isNullOrWhiteSpace row.region := by
  rw [regionSummary, sum_map_orderBy, List.map_map, List.countP_eq_length_filter]
  exact length_groupBy LatencyHistory.region _

/-- The points of a series count the errors of its region. -/
theorem sum_errors (bucket : Nat) (rows : List LatencyHistory) :
    ((latencyData bucket rows).map fun series => (series.data.map (·.errors)).sum).sum =
      (rows.filter fun row => !isNullOrWhiteSpace row.region).countP isError := by
  have ofRegion : ∀ inRegion : List LatencyHistory,
      ((orderBy Prod.fst (groupBy (fun h => truncateToBucket h.checkedAt bucket) inRegion)).map
        fun b => b.2.countP isError).sum = inRegion.countP isError := by
    intro inRegion
    rw [sum_map_orderBy]
    exact countP_groupBy _ isError inRegion
  have sorted := (orderBy_perm (·.checkedAt) rows).filter fun h => !isNullOrWhiteSpace h.region
  rw [← sorted.countP_eq isError, ← countP_groupBy (·.region) isError, latencyData, List.map_map]
  simp only [Function.comp_def, List.map_map, ofRegion]

/-! ## The four answers -/

/-- What the answers about one window have to do with each other. -/
structure Reconciled (answer : Stats) (distribution : List StatusCount) (summary : List RegionSummary)
    (series : List LatencySeries) (rows : List LatencyHistory) : Prop where
  total : (distribution.map (·.count)).sum = answer.totalChecks
  labels : (distribution.map (·.label)).Nodup
  oneLabel : ∀ row ∈ rows, ∃! entry, entry ∈ distribution ∧ entry.label = statusLabel row.statusCode
  counts : ∀ entry ∈ distribution,
    entry.count = rows.countP fun row => statusLabel row.statusCode = entry.label
  regions : answer.totalChecks = (summary.map (·.totalChecks)).sum +
    rows.countP fun row => isNullOrWhiteSpace row.region
  uptime : answer.uptimePercent = round ((successCount rows : ℚ) / answer.totalChecks * 100) 2
  successes : successCount rows = countWhere (fun label => label = "2xx") distribution
  outages : answer.outages = countWhere (fun label => label = "Timeout") distribution +
    countWhere (fun label => FamilyFrom 5 label) distribution
  errors : (series.map fun one => (one.data.map (·.errors)).sum).sum +
      rows.countP (fun row => isNullOrWhiteSpace row.region && isError row) =
    countWhere (fun label => label = "Timeout") distribution +
      countWhere (fun label => FamilyFrom 4 label) distribution

theorem reconciled {rows : List LatencyHistory} {answer : Stats} (bucket : Nat)
    (answered : stats rows = some answer) :
    Reconciled answer (statusDistribution rows) (regionSummary rows) (latencyData bucket rows) rows := by
  rw [stats] at answered
  split at answered
  · contradiction
  · cases answered
    constructor
    case total => exact sum_statusDistribution rows
    case labels => exact nodup_labels rows
    case oneLabel => exact fun row member => existsUnique_entry member
    case counts => exact fun entry member => (mem_statusDistribution.mp member).2
    case regions =>
      rw [sum_regionSummary, countP_add_of_disjoint (by simp)]
      simp
    case uptime => rfl
    case successes =>
      rw [countWhere_statusDistribution, successCount]
      exact List.countP_congr fun row _ => by simpa using isSuccess_iff
    case outages => exact (countWhere_timeout_add 5 rows).symm
    case errors =>
      have apart : ∀ row : LatencyHistory, ¬ ((isError row && !isNullOrWhiteSpace row.region) = true ∧
          (isNullOrWhiteSpace row.region && isError row) = true) := by
        intro row
        cases isNullOrWhiteSpace row.region <;> simp
      rw [sum_errors, countWhere_timeout_add, List.countP_filter, countP_add_of_disjoint apart]
      apply List.countP_congr
      intro row _
      cases isNullOrWhiteSpace row.region <;> simp [isError]

/-- An empty window has no answers, and the four answers about any other agree:
every row is under one label of the distribution, and the totals, the successes,
the outages and the errors are the counts of the labels that stand for them. -/
theorem answers_reconcile (bucket : Nat) (rows : List LatencyHistory) :
    match stats rows with
    | none =>
        rows = [] ∧ statusDistribution rows = [] ∧ regionSummary rows = [] ∧
          latencyData bucket rows = []
    | some answer =>
        Reconciled answer (statusDistribution rows) (regionSummary rows) (latencyData bucket rows) rows := by
  cases answered : stats rows with
  | none =>
      have empty : rows = [] := by
        rw [stats] at answered
        split at answered
        · exact List.eq_nil_of_length_eq_zero ‹_›
        · contradiction
      rw [empty]
      exact ⟨rfl, rfl, rfl, rfl⟩
  | some answer => exact reconciled bucket answered

end UrlPulse.Web.Analytics
