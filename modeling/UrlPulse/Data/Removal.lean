import UrlPulse.Data.Phased

namespace UrlPulse.Data.Removal

open UrlPulse.Data.Phased

/-! One item that several operations may try to remove.  An operation looks
whether the item is there when it loads and removes what it saw when it saves;
an item that has been removed in between is a conflict.
-/

inductive Outcome where
  | done
  | conflict
deriving DecidableEq, Repr

/-- The store says whether the item is present, and `may` which operations see it. -/
def machine {Op : Type} (may : Op → Bool) : Machine Op Bool Outcome Bool where
  load op present := present && may op
  save found present :=
    match found, present with
    | false, _ => (.done, present)
    | true, true => (.done, false)
    | true, false => (.conflict, false)

variable {Tag Op : Type} [DecidableEq Tag] {may : Op → Bool}
  {config : Config Tag Op Bool Outcome Bool} {task : Task Tag Op Bool}

@[simp] theorem load_eq (op : Op) (present : Bool) :
    (machine may).load op present = (present && may op) := rfl

@[simp] theorem save_unseen (present : Bool) : (machine may).save false present = (.done, present) := rfl

@[simp] theorem save_present : (machine may).save true true = (.done, false) := rfl

@[simp] theorem save_missing : (machine may).save true false = (.conflict, false) := rfl

@[simp] theorem save_load (op : Op) (present : Bool) :
    (machine may).save (present && may op) present = (.done, present && !may op) := by
  cases present <;> cases seen : may op <;> simp

def Alone (may : Op → Bool) (config : Config Tag Op Bool Outcome Bool) (next : Step Tag Op) : Prop :=
  ∀ op, config.starts? next = some op → (config.store && may op) = true →
    ∀ task ∈ config.inFlight, task.pending = false

/-! ## Removals that stay alone meet no conflict -/

structure Calm (config : Config Tag Op Bool Outcome Bool) : Prop where
  done : ∀ answer ∈ config.answers, answer.2 = .done
  single : ∀ first ∈ config.inFlight, ∀ second ∈ config.inFlight,
    first.pending = true → second.pending = true → first = second
  present : ∀ task ∈ config.inFlight, task.pending = true → config.store = true

omit [DecidableEq Tag] in
theorem Calm.begin {tag : Tag} {op : Op} (calm : Calm config)
    (quiet : (config.store && may op) = true → ∀ task ∈ config.inFlight, task.pending = false) :
    Calm (config.begin (machine may) tag op) where
  done := calm.done
  single := by
    intro first inFirst second inSecond firstFound secondFound
    rcases List.mem_append.mp inFirst with oldFirst | newFirst <;>
      rcases List.mem_append.mp inSecond with oldSecond | newSecond
    · exact calm.single first oldFirst second oldSecond firstFound secondFound
    · cases List.mem_singleton.mp newSecond
      have idle := quiet secondFound first oldFirst
      rw [firstFound] at idle
      contradiction
    · cases List.mem_singleton.mp newFirst
      have idle := quiet firstFound second oldSecond
      rw [secondFound] at idle
      contradiction
    · exact (List.mem_singleton.mp newFirst).trans (List.mem_singleton.mp newSecond).symm
  present := by
    intro task inFlight found
    rcases List.mem_append.mp inFlight with old | new
    · exact calm.present task old found
    · cases List.mem_singleton.mp new
      exact (Bool.and_eq_true_iff.mp found).1

theorem Calm.commit (calm : Calm config) (member : task ∈ config.inFlight) :
    Calm (config.commit (machine may) task) := by
  have others : ∀ other ∈ (config.commit (machine may) task).inFlight,
      other ∈ config.inFlight ∧ other.tag ≠ task.tag := by
    intro other remaining
    obtain ⟨inFlight, different⟩ := List.mem_filter.mp remaining
    exact ⟨inFlight, by simpa using different⟩
  have noConflict : ((machine may).save task.pending config.store).1 = .done := by
    cases found : task.pending with
    | false => rfl
    | true => rw [calm.present task member found]; rfl
  constructor
  · intro answer given
    rcases List.mem_append.mp given with old | new
    · exact calm.done answer old
    · rw [List.mem_singleton.mp new]
      exact noConflict
  · intro first inFirst second inSecond
    exact calm.single first (others first inFirst).1 second (others second inSecond).1
  · intro other remaining otherFound
    obtain ⟨inFlight, different⟩ := others other remaining
    cases found : task.pending with
    | false => simpa only [Config.commit, found, save_unseen] using calm.present other inFlight otherFound
    | true =>
        have same := calm.single other inFlight task member otherFound found
        exact absurd (congrArg _ same) different

omit [DecidableEq Tag] in
theorem Calm.call {op : Op} (calm : Calm config)
    (quiet : (config.store && may op) = true → ∀ task ∈ config.inFlight, task.pending = false) :
    Calm (config.call (machine may) op) where
  done := by
    intro answer given
    rcases List.mem_append.mp given with old | new
    · exact calm.done answer old
    · rw [List.mem_singleton.mp new, load_eq, save_load]
  single := calm.single
  present := by
    intro task inFlight found
    have present := calm.present task inFlight found
    cases seen : may op with
    | false => simp [Config.call, seen, present]
    | true =>
        have idle := quiet (by rw [present, seen]; rfl) task inFlight
        rw [found] at idle
        contradiction

theorem Calm.step {next : Step Tag Op} (calm : Calm config) (alone : Alone may config next) :
    Calm (step (machine may) config next) := by
  rcases step_cases (machine may) config next with
    same | ⟨tag, op, rfl, free, begun⟩ | ⟨task, rfl, member, committed⟩ | ⟨op, rfl, called⟩
  · rw [same]
    exact calm
  · rw [begun]
    exact calm.begin (alone op (if_pos free))
  · rw [committed]
    exact calm.commit member
  · rw [called]
    exact calm.call (alone op rfl)

/-! ## Two removals at once end in a conflict -/

/-- One removal more is under way, or has failed, than the item allows. -/
def Doomed (config : Config Tag Op Bool Outcome Bool) : Prop :=
  config.store.toNat < config.inFlight.countP (·.pending) + config.answers.countP (·.2 = .conflict)

theorem Doomed.step {next : Step Tag Op} (nodup : (config.inFlight.map (·.tag)).Nodup)
    (doomed : Doomed config) : Doomed (step (machine may) config next) := by
  unfold Doomed at doomed
  rcases step_cases (machine may) config next with
    same | ⟨tag, op, rfl, free, begun⟩ | ⟨task, rfl, member, committed⟩ | ⟨op, rfl, called⟩
  · rw [same]
    exact doomed
  · rw [begun]
    simp only [Doomed, Config.begin, List.countP_append]
    omega
  · have split := (Config.commit_perm (machine may) nodup member).countP_eq (·.pending)
    rw [committed]
    simp only [Config.commit, List.countP_cons] at split
    simp only [Doomed, Config.commit, List.countP_append]
    generalize config.inFlight.countP (·.pending) = underWay at doomed split
    generalize (config.inFlight.filter fun other => other.tag ≠ task.tag).countP (·.pending) = others at split ⊢
    generalize config.answers.countP (·.2 = .conflict) = failed at doomed ⊢
    cases found : task.pending <;> cases present : config.store <;>
      simp [found, present] at doomed split ⊢ <;> omega
  · rw [called]
    simp only [Doomed, Config.call, List.countP_append]
    generalize config.inFlight.countP (·.pending) = underWay at doomed ⊢
    generalize config.answers.countP (·.2 = .conflict) = failed at doomed ⊢
    cases present : config.store <;> cases seen : may op <;>
      simp [present, seen] at doomed ⊢ <;> omega

theorem doomed_of_not_alone {next : Step Tag Op} (crowded : ¬ Alone may config next) :
    Doomed (step (machine may) config next) := by
  simp only [Alone, not_forall] at crowded
  obtain ⟨op, starts, seen, task, inFlight, found⟩ := crowded
  have underWay : 0 < config.inFlight.countP (·.pending) :=
    List.countP_pos_iff.mpr ⟨task, inFlight, by simpa using found⟩
  obtain ⟨present, sees⟩ := Bool.and_eq_true_iff.mp seen
  cases next with
  | load tag other =>
      have free : config.task? tag = none := by
        by_contra busy
        simp [Config.starts?, busy] at starts
      have begun : step (machine may) config (.load tag other) = config.begin (machine may) tag other := by
        simp only [Phased.step, free]
      have same : other = op := by simpa [Config.starts?, free] using starts
      rw [begun, same]
      simp only [Doomed, Config.begin, List.countP_append]
      generalize config.inFlight.countP (·.pending) = removing at underWay ⊢
      simp [present, sees]
      omega
  | save tag => contradiction
  | call other =>
      cases starts
      simp only [Doomed, Phased.step, Config.call]
      generalize config.inFlight.countP (·.pending) = removing at underWay ⊢
      simp [present, sees]
      omega

theorem doomed_of_not_along {steps : List (Step Tag Op)}
    (nodup : (config.inFlight.map (·.tag)).Nodup)
    (crowded : ¬ Along (machine may) (Alone may) config steps) :
    Doomed (run (machine may) config steps) := by
  induction steps generalizing config with
  | nil => exact absurd trivial crowded
  | cons next rest ih =>
      have nodupNext := nodup_tags_step (machine may) next nodup
      by_cases alone : Alone may config next
      · exact ih nodupNext fun along => crowded ⟨alone, along⟩
      · have afterStep := doomed_of_not_alone alone
        have kept : ∀ other ∈ rest, ∀ current : Config Tag Op Bool Outcome Bool,
            (current.inFlight.map (·.tag)).Nodup ∧ Doomed current →
            ((step (machine may) current other).inFlight.map (·.tag)).Nodup ∧
              Doomed (step (machine may) current other) :=
          fun other _ _ held => ⟨nodup_tags_step (machine may) other held.1, held.2.step held.1⟩
        exact (run_invariant kept ⟨nodupNext, afterStep⟩).2

variable {steps : List (Step Tag Op)} {present : Bool}

/-- All removals go through exactly when none starts while another is under way. -/
theorem done_iff_along
    (finished : (run (machine may) { store := present } steps).inFlight = []) :
    (∀ answer ∈ (run (machine may) { store := present } steps).answers, answer.2 = .done) ↔
      Along (machine may) (Alone may) { store := present } steps := by
  constructor
  · intro done
    by_contra crowded
    have doomed := doomed_of_not_along (by simp) crowded
    have noConflict : (run (machine may) { store := present } steps).answers.countP
        (·.2 = .conflict) = 0 := by
      apply List.countP_eq_zero.mpr
      intro answer given
      rw [done answer given]
      simp
    unfold Doomed at doomed
    rw [finished, noConflict] at doomed
    contradiction
  · intro along
    have initial : Calm ({ store := present } : Config Tag Op Bool Outcome Bool) :=
      ⟨by simp, by simp, by simp⟩
    exact (along_invariant (fun _ _ alone calm => calm.step alone) along initial).done

/-! ## When the item is gone -/

/-- The item is gone once somebody who sees it has been answered. -/
structure Tracked (may : Op → Bool) (config : Config Tag Op Bool Outcome Bool) : Prop where
  answered : config.store = !config.answers.any fun answer => may answer.1
  sound : ∀ task ∈ config.inFlight, task.pending = true → may task.op = true
  current : ∀ task ∈ config.inFlight, config.store = true → task.pending = may task.op

theorem Tracked.step {next : Step Tag Op} (tracked : Tracked may config) :
    Tracked may (step (machine may) config next) := by
  have answered := tracked.answered
  rcases step_cases (machine may) config next with
    same | ⟨tag, op, rfl, free, begun⟩ | ⟨task, rfl, member, committed⟩ | ⟨op, rfl, called⟩
  · rw [same]
    exact tracked
  · rw [begun]
    refine ⟨answered, ?_, ?_⟩
    · intro task inFlight found
      rcases List.mem_append.mp inFlight with old | new
      · exact tracked.sound task old found
      · cases List.mem_singleton.mp new
        exact (Bool.and_eq_true_iff.mp found).2
    · intro task inFlight present
      rcases List.mem_append.mp inFlight with old | new
      · exact tracked.current task old present
      · cases List.mem_singleton.mp new
        have stored : config.store = true := present
        simp [stored]
  · rw [committed]
    have shrinks : (config.commit (machine may) task).store = true → config.store = true := by
      cases found : task.pending <;> cases stored : config.store <;>
        simp [Config.commit, found, stored]
    refine ⟨?_, ?_, ?_⟩
    · have sound := tracked.sound task member
      have current := tracked.current task member
      have before : (config.answers.any fun answer => may answer.1) = !config.store := by
        rw [answered, Bool.not_not]
      simp only [Config.commit, List.any_append, List.any_cons, List.any_nil, Bool.or_false, before]
      cases found : task.pending <;> cases stored : config.store <;> cases sees : may task.op <;>
        simp [found, stored, sees] at sound current ⊢
    · intro other remaining found
      exact tracked.sound other (List.mem_of_mem_filter remaining) found
    · intro other remaining present
      exact tracked.current other (List.mem_of_mem_filter remaining) (shrinks present)
  · rw [called]
    refine ⟨?_, tracked.sound, ?_⟩
    · simp only [Config.call, load_eq, save_load, List.any_append, List.any_cons, List.any_nil,
        Bool.or_false, Bool.not_or, answered]
    · intro task inFlight present
      simp only [Config.call, load_eq, save_load, Bool.and_eq_true] at present
      exact tracked.current task inFlight present.1

theorem tracked_run : Tracked may (run (machine may) { store := true } steps) :=
  run_invariant (fun _ _ _ tracked => tracked.step) ⟨rfl, by simp, by simp⟩

end UrlPulse.Data.Removal
