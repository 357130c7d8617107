import Mathlib.Algebra.Order.Group.Abs
import Mathlib.Algebra.Order.Ring.Int
import Mathlib.Data.List.Pairwise
import Mathlib.Tactic.Linarith

namespace UrlPulse.Data.Throttle

/-! A job that is attempted again and again, and runs at an attempt when all its
earlier runs, by the time stamps they left, are at least a gap away.  The gap is
a multiple of the attempts' period less a tolerance.
-/

def due (gap : Int) (times : List Int) (now : Int) : Bool :=
  times.all fun time => gap ≤ now - time

theorem due_iff {gap now : Int} {times : List Int} :
    due gap times now = true ↔ ∀ time ∈ times, gap ≤ now - time := by
  simp [due]

/-! ## Time stamps that keep their distance -/

def Spaced (gap : Int) (times : List Int) : Prop :=
  times.Pairwise fun left right => gap ≤ |left - right|

theorem Spaced.apart {Row : Type} {gap : Int} {rows : List Row} {time : Row → Int}
    (spaced : Spaced gap (rows.map time)) {first second : Row} (firstIn : first ∈ rows)
    (secondIn : second ∈ rows) (different : first ≠ second) : gap ≤ |time first - time second| := by
  have symmetric : Std.Symm fun left right : Row => gap ≤ |time left - time right| := by
    constructor
    intro left right away
    rw [abs_sub_comm]
    exact away
  exact (List.pairwise_map.mp spaced).forall firstIn secondIn different

theorem Spaced.perm {gap : Int} {times others : List Int} (spaced : Spaced gap times)
    (same : times.Perm others) : Spaced gap others := by
  refine same.pairwise spaced ?_
  intro left right away
  rw [abs_sub_comm]
  exact away

theorem Spaced.mono {gap less : Int} {times : List Int} (spaced : Spaced gap times) (le : less ≤ gap) :
    Spaced less times :=
  spaced.imp fun away => le.trans away

theorem Spaced.of_length_le_one {gap : Int} {times : List Int} (short : times.length ≤ 1) :
    Spaced gap times := by
  cases times with
  | nil => exact .nil
  | cons first rest =>
      have single : rest = [] := List.eq_nil_of_length_eq_zero (by simpa using short)
      rw [single]
      exact List.pairwise_singleton _ _

/-- A run that is due keeps the distance in whole units, if the stamps are whole units
and its own is no earlier than the unit in which it was decided. -/
theorem Spaced.append {gap now stamp unit : Int} {times : List Int} (positive : 0 < unit)
    (whole : ∀ time ∈ times, unit ∣ time) (spaced : Spaced (gap / unit * unit) times)
    (allowed : due gap times now = true) (later : now / unit * unit ≤ stamp) :
    Spaced (gap / unit * unit) (times ++ [stamp]) := by
  refine List.pairwise_append.mpr ⟨spaced, List.pairwise_singleton _ _, ?_⟩
  intro time member other single
  rw [List.mem_singleton.mp single, abs_sub_comm]
  obtain ⟨count, rfl⟩ := whole time member
  have away : gap + unit * count ≤ now := by
    have apart := due_iff.mp allowed _ member
    omega
  have units := mul_le_mul_of_nonneg_right (Int.ediv_le_ediv positive away) positive.le
  rw [Int.add_mul_ediv_left _ _ positive.ne', add_mul, mul_comm count] at units
  exact (show gap / unit * unit ≤ stamp - unit * count by omega).trans (le_abs_self _)

/-! ## Attempts in sequence -/

structure Attempts where
  gap : Int
  initial : List Int
  now : Nat → Int
  stamp : Nat → Int

namespace Attempts

def recorded (attempts : Attempts) : Nat → List Int
  | 0 => attempts.initial
  | i + 1 =>
      if due attempts.gap (attempts.recorded i) (attempts.now i) then
        attempts.recorded i ++ [attempts.stamp i]
      else attempts.recorded i

def fires (attempts : Attempts) (i : Nat) : Bool :=
  due attempts.gap (attempts.recorded i) (attempts.now i)

variable {attempts : Attempts}

theorem mem_recorded {i : Nat} {time : Int} :
    time ∈ attempts.recorded i ↔
      time ∈ attempts.initial ∨ ∃ j < i, attempts.fires j = true ∧ time = attempts.stamp j := by
  induction i with
  | zero => simp [recorded]
  | succ i ih =>
      have extend : (∃ j < i + 1, attempts.fires j = true ∧ time = attempts.stamp j) ↔
          (∃ j < i, attempts.fires j = true ∧ time = attempts.stamp j) ∨
            (attempts.fires i = true ∧ time = attempts.stamp i) := by
        constructor
        · intro run
          obtain ⟨j, before, fired, same⟩ := run
          rcases Nat.lt_succ_iff_lt_or_eq.mp before with earlier | rfl
          · exact .inl ⟨j, earlier, fired, same⟩
          · exact .inr ⟨fired, same⟩
        · intro run
          rcases run with ⟨j, earlier, fired, same⟩ | ⟨fired, same⟩
          · exact ⟨j, by omega, fired, same⟩
          · exact ⟨i, by omega, fired, same⟩
      rw [extend, ← or_assoc, ← ih]
      cases fired : attempts.fires i with
      | false =>
          have unchanged : attempts.recorded (i + 1) = attempts.recorded i :=
            if_neg (by simpa [fires] using fired)
          simp [unchanged]
      | true =>
          have extended : attempts.recorded (i + 1) = attempts.recorded i ++ [attempts.stamp i] :=
            if_pos fired
          simp [extended]

theorem fires_iff {i : Nat} :
    attempts.fires i = true ↔
      (∀ time ∈ attempts.initial, attempts.gap ≤ attempts.now i - time) ∧
        ∀ j < i, attempts.fires j = true → attempts.gap ≤ attempts.now i - attempts.stamp j := by
  rw [fires, due_iff]
  constructor
  · intro away
    refine ⟨fun time member => away time (mem_recorded.mpr (.inl member)), ?_⟩
    intro j before fired
    exact away _ (mem_recorded.mpr (.inr ⟨j, before, fired, rfl⟩))
  · intro away time member
    obtain ⟨old, new⟩ := away
    rcases mem_recorded.mp member with initial | ⟨j, before, fired, rfl⟩
    · exact old time initial
    · exact new j before fired

section Periodic

variable {start period tolerance late unit : Int} {k : Nat}

/-- Attempts that start little after each period, and are stamped within the tolerance and
no earlier than they start, up to a unit of the stamps, fire exactly every `k` periods. -/
theorem fires_iff_dvd {i : Nat} (positive : 0 < k) (gap : attempts.gap = period * k - tolerance)
    (nonneg : 0 ≤ period) (small : tolerance + late + unit < period) (fresh : attempts.initial = [])
    (drift : ∀ j ≤ i, start + period * j ≤ attempts.now j ∧
      attempts.now j ≤ start + period * j + late)
    (delay : ∀ j ≤ i, attempts.fires j = true → attempts.now j ≤ attempts.stamp j + unit ∧
      attempts.stamp j ≤ start + period * j + tolerance) :
    attempts.fires i = true ↔ k ∣ i := by
  induction i using Nat.strong_induction_on with
  | _ i ih =>
      have earlier : ∀ j < i, (attempts.fires j = true ↔ k ∣ j) := by
        intro j before
        exact ih j before (fun l bound => drift l (by omega)) (fun l bound => delay l (by omega))
      have driftNow := drift i le_rfl
      rw [fires_iff, fresh]
      constructor
      · intro allowed
        obtain ⟨-, away⟩ := allowed
        by_contra offbeat
        -- the last multiple of `k` before `i` has fired less than `k` periods ago
        have split := Nat.div_add_mod i k
        have remains : 0 < i % k := Nat.pos_of_ne_zero fun zero => offbeat (Nat.dvd_of_mod_eq_zero zero)
        have short := Nat.mod_lt i positive
        have before : k * (i / k) < i := by omega
        have fired := (earlier _ before).mpr (Nat.dvd_mul_right k (i / k))
        have tooClose := away _ before fired
        have stamped := (delay _ before.le fired).1
        have driftThen := (drift _ before.le).1
        have lag : (i : Int) - (k * (i / k) : Nat) ≤ k - 1 := by omega
        have bound := mul_le_mul_of_nonneg_left lag nonneg
        rw [gap] at tooClose
        linarith
      · intro onbeat
        refine ⟨by simp, ?_⟩
        intro j before fired
        have multiple := (earlier j before).mp fired
        have apart : k ≤ i - j := Nat.le_of_dvd (by omega) (Nat.dvd_sub onbeat multiple)
        have stamped := (delay j before.le fired).2
        have lag : (k : Int) ≤ (i : Int) - j := by omega
        have bound := mul_le_mul_of_nonneg_left lag nonneg
        rw [gap]
        linarith

/-- Attempts exactly on the period run at least once in any `k` in a row exactly
when no run is stamped later than the tolerance. -/
theorem covers_iff (positive : 0 < k) (gap : attempts.gap = period * k - tolerance)
    (small : 0 ≤ tolerance ∧ tolerance < period)
    (onTime : ∀ i, attempts.now i = start + period * i) :
    (∀ first, ∃ i, first ≤ i ∧ i < first + k ∧ attempts.fires i = true) ↔
      (∀ time ∈ attempts.initial, time ≤ start - period + tolerance) ∧
        ∀ i, attempts.fires i = true → attempts.stamp i ≤ attempts.now i + tolerance := by
  constructor
  · intro covered
    constructor
    · intro time member
      obtain ⟨i, -, before, fired⟩ := covered 0
      have away := (fires_iff.mp fired).1 time member
      have lag : (i : Int) ≤ k - 1 := by omega
      have bound := mul_le_mul_of_nonneg_left lag (show (0 : Int) ≤ period by omega)
      rw [gap, onTime i] at away
      linarith
    · intro i fired
      obtain ⟨j, after, before, firedAgain⟩ := covered (i + 1)
      have away := (fires_iff.mp firedAgain).2 i (by omega) fired
      have lag : (j : Int) - i ≤ k := by omega
      have bound := mul_le_mul_of_nonneg_left lag (show (0 : Int) ≤ period by omega)
      rw [gap, onTime j] at away
      rw [onTime i]
      linarith
  · intro early first
    obtain ⟨old, prompt⟩ := early
    by_contra missed
    push Not at missed
    have last : attempts.fires (first + k - 1) = true := by
      have position : ((first + k - 1 : Nat) : Int) = first + k - 1 := by omega
      refine fires_iff.mpr ⟨?_, ?_⟩
      · intro time member
        have before := old time member
        have lag : (0 : Int) ≤ first := by omega
        have bound := mul_le_mul_of_nonneg_left lag (show (0 : Int) ≤ period by omega)
        rw [gap, onTime, position]
        linarith
      · intro j before fired
        have outside : j < first := by
          by_contra inside
          exact missed j (by omega) (by omega) fired
        have stamped := prompt j fired
        have lag : (j : Int) + 1 ≤ first := by omega
        have bound := mul_le_mul_of_nonneg_left lag (show (0 : Int) ≤ period by omega)
        rw [onTime] at stamped
        rw [gap, onTime, position]
        linarith
    exact missed (first + k - 1) (by omega) (by omega) last

/-- Attempts that are never early fire within any `k` in a row, if those before them
were stamped within the tolerance. -/
theorem fires_within {first : Nat} (positive : 0 < k) (gap : attempts.gap = period * k - tolerance)
    (nonneg : 0 ≤ period) (old : ∀ time ∈ attempts.initial, time ≤ start - period + tolerance)
    (prompt : ∀ j < first, attempts.fires j = true → attempts.stamp j ≤ start + period * j + tolerance)
    (onTime : start + period * (first + k - 1 : Nat) ≤ attempts.now (first + k - 1)) :
    ∃ i, first ≤ i ∧ i < first + k ∧ attempts.fires i = true := by
  by_contra missed
  push Not at missed
  have position : ((first + k - 1 : Nat) : Int) = first + k - 1 := by omega
  rw [position] at onTime
  -- a stamp of the attempt before `first` is old enough for the last of the `k`
  have away : ∀ (j : Int) (time : Int), j + 1 ≤ first → time ≤ start + period * j + tolerance →
      attempts.gap ≤ attempts.now (first + k - 1) - time := by
    intro j time before bound
    have lag := mul_le_mul_of_nonneg_left before nonneg
    rw [gap]
    linarith
  have last : attempts.fires (first + k - 1) = true := by
    refine fires_iff.mpr ⟨?_, ?_⟩
    · intro time member
      have bound := old time member
      exact away (-1) time (by omega) (by linarith)
    · intro j before fired
      have outside : j < first := by
        by_contra inside
        exact missed j (by omega) (by omega) fired
      exact away j _ (by omega) (prompt j outside fired)
  exact missed (first + k - 1) (by omega) (by omega) last

end Periodic

end Attempts

end UrlPulse.Data.Throttle
