import UrlPulse.Data.Phased

namespace UrlPulse.Data.ReadModifyWrite

open UrlPulse.Data.Phased

/-! One cell, and operations that load its value and save a function of what
they loaded, with nothing that notices a save in between.
-/

variable {α Tag Op : Type}

/-- `touches` says which operations change the cell; the others leave it alone. -/
def cell (touches : Op → Bool) (f : α → α) : Machine Op (Option α) Unit α where
  load op value := if touches op then some (f value) else none
  save new value := ((), new.getD value)

def semiconj {β : Type} (touches : Op → Bool) (f : α → α) (g : β → β) (map : α → β)
    (commutes : ∀ value, g (map value) = map (f value)) :
    Simulation (cell touches f) (cell touches g) fun _ => True where
  store value image := image = map value
  pending _ new image := image = new.map map
  answer _ _ _ := True
  loads := by
    intro op value image _ same
    cases same
    by_cases touched : touches op = true
    · simp [cell, touched, commutes]
    · simp [cell, touched]
  saves := by
    intro op new image value mapped _ sameNew sameValue
    cases sameNew
    cases sameValue
    cases new <;> simp [cell]

variable [DecidableEq Tag] {touches : Op → Bool}

/-- How many changes the value at the end is built on: the last one saved, the
one whose value that one had loaded, and so on. -/
def depth (touches : Op → Bool) (steps : List (Step Tag Op)) : Nat :=
  (run (cell touches Nat.succ) { store := 0 } steps).store

def counting (touches : Op → Bool) (f : α → α) (initial : α) :
    Simulation (cell touches Nat.succ) (cell touches f) fun _ => True :=
  semiconj touches Nat.succ f (fun count => f^[count] initial)
    fun count => (Function.iterate_succ_apply' f count initial).symm

omit [DecidableEq Tag] in
theorem counting_related (touches : Op → Bool) (f : α → α) (initial : α) :
    (counting touches f initial).Related
      ({ store := 0 } : Config Tag Op (Option Nat) Unit Nat) { store := initial } :=
  ⟨rfl, .nil, .nil⟩

theorem value_eq_iterate (f : α → α) (initial : α) (steps : List (Step Tag Op)) :
    (run (cell touches f) { store := initial } steps).store = f^[depth touches steps] initial :=
  ((counting_related touches f initial).run fun _ _ _ _ => trivial).store

/-! ## Changes that do not overlap -/

/-- Every change so far counts, and the one in flight has seen them all. -/
structure Counted (touches : Op → Bool) (config : Config Tag Op (Option Nat) Unit Nat) : Prop where
  count : config.store = config.answers.countP fun answer => touches answer.1
  fresh : ∀ task ∈ config.inFlight,
    task.pending = if touches task.op then some (config.store + 1) else none
  single : ∀ first ∈ config.inFlight, ∀ second ∈ config.inFlight,
    touches first.op = true → touches second.op = true → first = second

variable {config : Config Tag Op (Option Nat) Unit Nat}

theorem Counted.commit (counted : Counted touches config) {task : Task Tag Op (Option Nat)}
    (member : task ∈ config.inFlight) :
    Counted touches (config.commit (cell touches Nat.succ) task) := by
  have others : ∀ other ∈ (config.commit (cell touches Nat.succ) task).inFlight,
      other ∈ config.inFlight ∧ other.tag ≠ task.tag := by
    intro other remaining
    obtain ⟨inFlight, different⟩ := List.mem_filter.mp remaining
    exact ⟨inFlight, by simpa using different⟩
  have count := counted.count
  have fresh := counted.fresh task member
  cases touched : touches task.op with
  | false =>
      have unchanged : (config.commit (cell touches Nat.succ) task).store = config.store := by
        simp [Config.commit, cell, fresh, touched]
      refine ⟨?_, ?_, ?_⟩
      · rw [unchanged, count]
        simp [Config.commit, touched]
      · intro other remaining
        rw [unchanged]
        exact counted.fresh other (others other remaining).1
      · intro first inFirst second inSecond
        exact counted.single first (others first inFirst).1 second (others second inSecond).1
  | true =>
      have idle : ∀ other ∈ (config.commit (cell touches Nat.succ) task).inFlight,
          touches other.op = false := by
        intro other remaining
        obtain ⟨inFlight, different⟩ := others other remaining
        by_contra busy
        have same := counted.single other inFlight task member (by simpa using busy) touched
        exact different (congrArg _ same)
      refine ⟨?_, ?_, ?_⟩
      · simp [Config.commit, cell, fresh, touched, count]
      · intro other remaining
        have saved := counted.fresh other (others other remaining).1
        rw [idle other remaining] at saved ⊢
        exact saved
      · intro first inFirst _ _ busy
        rw [idle first inFirst] at busy
        contradiction

theorem Counted.step {next : Step Tag Op} (counted : Counted touches config)
    (serial : Exclusive touches config next) :
    Counted touches (step (cell touches Nat.succ) config next) := by
  rcases step_cases (cell touches Nat.succ) config next with
    same | ⟨tag, op, rfl, free, begun⟩ | ⟨task, rfl, member, committed⟩ | ⟨op, rfl, called⟩
  · rw [same]
    exact counted
  · rw [begun]
    have quiet := serial op (if_pos free)
    refine ⟨counted.count, ?_, ?_⟩
    · intro task inFlight
      rcases List.mem_append.mp inFlight with old | new
      · exact counted.fresh task old
      · rw [List.mem_singleton.mp new]
        rfl
    · intro first inFirst second inSecond firstTouches secondTouches
      rcases List.mem_append.mp inFirst with oldFirst | newFirst <;>
        rcases List.mem_append.mp inSecond with oldSecond | newSecond
      · exact counted.single first oldFirst second oldSecond firstTouches secondTouches
      · cases List.mem_singleton.mp newSecond
        rw [quiet secondTouches first oldFirst] at firstTouches
        contradiction
      · cases List.mem_singleton.mp newFirst
        rw [quiet firstTouches second oldSecond] at secondTouches
        contradiction
      · exact (List.mem_singleton.mp newFirst).trans (List.mem_singleton.mp newSecond).symm
  · rw [committed]
    exact counted.commit member
  · rw [called]
    have quiet := serial op rfl
    have count := counted.count
    refine ⟨?_, ?_, counted.single⟩
    · cases touched : touches op <;> simp [Config.call, cell, touched, count]
    · intro task inFlight
      have saved := counted.fresh task inFlight
      cases touched : touches op with
      | false => simpa [Config.call, cell, touched] using saved
      | true =>
          rw [quiet touched task inFlight] at saved ⊢
          exact saved

/-- Changes that do not overlap are all counted. -/
theorem depth_of_exclusive (f : α → α) (initial : α) {steps : List (Step Tag Op)}
    (alone : Along (cell touches f) (Exclusive touches) { store := initial } steps) :
    depth touches steps =
      (run (cell touches f) { store := initial } steps).answers.countP
        fun answer => touches answer.1 := by
  have related : (counting touches f initial).Related
      ({ store := 0 } : Config Tag Op (Option Nat) Unit Nat) { store := initial } :=
    counting_related touches f initial
  have counts : Along (cell touches Nat.succ) (Exclusive touches) { store := 0 } steps :=
    (related.along_iff (Exclusive touches) (Exclusive touches)
      (fun _ _ _ _ held => held.exclusive_iff touches) fun _ _ _ _ => trivial).mpr alone
  have started : Counted touches ({ store := 0 } : Config Tag Op (Option Nat) Unit Nat) :=
    ⟨rfl, by simp, by simp⟩
  have counted := along_invariant (fun _ _ alone counted => counted.step alone) counts started
  exact counted.count.trans ((related.run fun _ _ _ _ => trivial).countP_answers touches)

end UrlPulse.Data.ReadModifyWrite
