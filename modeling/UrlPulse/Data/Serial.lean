import UrlPulse.Data.Phased

namespace UrlPulse.Data.Phased

/-! # One at a time

An operation that writes nothing takes effect at its load, any other at its save.
If what is saved is still what a load would decide, the schedule does what its
operations do one after the other, in the order in which they take effect.
-/

variable {Tag Op Pending Answer Store : Type} [DecidableEq Tag]

/-- The pending writes that write nothing, and what they answer. -/
structure Quiet (machine : Machine Op Pending Answer Store) where
  test : Pending → Bool
  answer : Pending → Answer
  saves : ∀ {pending}, test pending = true → ∀ store,
    machine.save pending store = (answer pending, store)

variable {machine : Machine Op Pending Answer Store} {config : Config Tag Op Pending Answer Store}

/-- The operation that takes effect at a step. -/
def Config.effect? (quiet : Quiet machine) (config : Config Tag Op Pending Answer Store) :
    Step Tag Op → Option Op
  | .load tag op =>
      if config.task? tag = none ∧ quiet.test (machine.load op config.store) = true then some op
      else none
  | .save tag =>
      match config.task? tag with
      | none => none
      | some task => if quiet.test task.pending then none else some task.op
  | .call op => some op

def effects (quiet : Quiet machine) :
    Config Tag Op Pending Answer Store → List (Step Tag Op) → List Op
  | _, [] => []
  | config, next :: rest =>
      (config.effect? quiet next).toList ++ effects quiet (step machine config next) rest

/-- A schedule in which nothing comes between a load and its save. -/
def serial (ops : List Op) : List (Step Tag Op) := ops.map .call

/-- What a step saves is what its operation would decide here. -/
def Current (quiet : Quiet machine) (config : Config Tag Op Pending Answer Store)
    (next : Step Tag Op) : Prop :=
  ∀ task ∈ config.inFlight, next.saveTag? = some task.tag → quiet.test task.pending = false →
    task.pending = machine.load task.op config.store

/-- The answers of the operations in flight that have taken effect. -/
def Config.announced (quiet : Quiet machine) (config : Config Tag Op Pending Answer Store) :
    List (Op × Answer) :=
  (config.inFlight.filter fun task => quiet.test task.pending).map
    fun task => (task.op, quiet.answer task.pending)

theorem Config.announced_commit (quiet : Quiet machine) {task : Task Tag Op Pending}
    (nodup : (config.inFlight.map (·.tag)).Nodup) (member : task ∈ config.inFlight) :
    (config.announced quiet).Perm
      ((if quiet.test task.pending then [(task.op, quiet.answer task.pending)] else []) ++
        (config.commit machine task).announced quiet) := by
  have rest := Config.commit_perm machine nodup member
  have announced := (rest.symm.filter fun task => quiet.test task.pending).map
    fun task => (task.op, quiet.answer task.pending)
  cases tested : quiet.test task.pending with
  | true => simpa [Config.announced, List.filter_cons, tested] using announced
  | false => simpa [Config.announced, List.filter_cons, tested] using announced

theorem effects_append (quiet : Quiet machine) (first second : List (Step Tag Op)) :
    effects quiet config (first ++ second) =
      effects quiet config first ++ effects quiet (run machine config first) second := by
  induction first generalizing config with
  | nil => rfl
  | cons next rest ih =>
      rw [List.cons_append, effects, ih, ← List.append_assoc]
      rfl

/-- A schedule and its operations one at a time, as far as both have come. -/
structure Serialized (quiet : Quiet machine) (config one : Config Tag Op Pending Answer Store) :
    Prop where
  store : one.store = config.store
  answers : one.answers.Perm (config.answers ++ config.announced quiet)
  nodup : (config.inFlight.map (·.tag)).Nodup

variable {quiet : Quiet machine} {one : Config Tag Op Pending Answer Store}

theorem Serialized.begin {tag : Tag} {op : Op} (serialized : Serialized quiet config one)
    (free : config.task? tag = none) :
    Serialized quiet (step machine config (.load tag op))
      (run machine one (serial (config.effect? quiet (.load tag op)).toList)) := by
  have nodup := nodup_tags_step machine (.load tag op) serialized.nodup
  have begun : step machine config (.load tag op) = config.begin machine tag op := by
    simp only [step, free]
  rw [begun] at nodup ⊢
  cases tested : quiet.test (machine.load op config.store) with
  | false =>
      have later : config.effect? quiet (.load tag op) = none := by
        simp [Config.effect?, tested]
      rw [later]
      refine ⟨serialized.store, ?_, nodup⟩
      simpa [Config.announced, Config.begin, tested, serial, run] using serialized.answers
  | true =>
      have now : config.effect? quiet (.load tag op) = some op := by
        simp [Config.effect?, free, tested]
      have saved := quiet.saves tested config.store
      rw [now]
      refine ⟨?_, ?_, nodup⟩
      · simp [serial, run, step, Config.call, serialized.store, saved, Config.begin]
      · have announced : (config.begin machine tag op).announced quiet =
            config.announced quiet ++ [(op, quiet.answer (machine.load op config.store))] := by
          simp [Config.announced, Config.begin, tested]
        have answered : (run machine one (serial (some op).toList)).answers =
            one.answers ++ [(op, quiet.answer (machine.load op config.store))] := by
          simp [serial, run, step, Config.call, serialized.store, saved]
        rw [announced, answered, ← List.append_assoc]
        exact serialized.answers.append_right _

theorem Serialized.commit {task : Task Tag Op Pending} (serialized : Serialized quiet config one)
    (found : config.task? task.tag = some task) (current : Current quiet config (.save task.tag)) :
    Serialized quiet (step machine config (.save task.tag))
      (run machine one (serial (config.effect? quiet (.save task.tag)).toList)) := by
  have nodup := nodup_tags_step machine (.save task.tag) serialized.nodup
  have committed : step machine config (.save task.tag) = config.commit machine task := by
    simp only [step, found]
  have member := (Config.task?_some found).1
  have announced := Config.announced_commit quiet serialized.nodup member
  rw [committed] at nodup ⊢
  cases tested : quiet.test task.pending with
  | true =>
      have before : config.effect? quiet (.save task.tag) = none := by
        simp [Config.effect?, found, tested]
      have saved := quiet.saves tested config.store
      rw [before]
      refine ⟨?_, ?_, nodup⟩
      · exact serialized.store.trans (congrArg Prod.snd saved).symm
      · rw [tested, if_pos rfl] at announced
        refine serialized.answers.trans ((announced.append_left config.answers).trans ?_)
        rw [← List.append_assoc]
        simp only [Config.commit, saved]
        exact List.Perm.refl _
  | false =>
      have now : config.effect? quiet (.save task.tag) = some task.op := by
        simp [Config.effect?, found, tested]
      have same := current task member rfl tested
      rw [now]
      refine ⟨?_, ?_, nodup⟩
      · simp [serial, run, step, Config.call, Config.commit, serialized.store, ← same]
      · rw [tested, if_neg Bool.noConfusion, List.nil_append] at announced
        have answered : (run machine one (serial (some task.op).toList)).answers =
            one.answers ++ [(task.op, (machine.save task.pending config.store).1)] := by
          simp [serial, run, step, Config.call, serialized.store, ← same]
        rw [answered]
        refine (serialized.answers.append_right _).trans ?_
        simp only [Config.commit, List.append_assoc]
        refine List.Perm.append_left config.answers ?_
        exact List.perm_append_comm.trans (announced.append_left _)

theorem Serialized.step {next : Step Tag Op} (serialized : Serialized quiet config one)
    (current : Current quiet config next) :
    Serialized quiet (step machine config next)
      (run machine one (serial (config.effect? quiet next).toList)) := by
  cases next with
  | load tag op =>
      cases free : config.task? tag with
      | none => exact serialized.begin free
      | some task => simpa [Phased.step, Config.effect?, free, serial, run] using serialized
  | save tag =>
      cases found : config.task? tag with
      | none => simpa [Phased.step, Config.effect?, found, serial, run] using serialized
      | some task =>
          obtain ⟨-, rfl⟩ := Config.task?_some found
          exact serialized.commit found current
  | call op =>
      refine ⟨?_, ?_, serialized.nodup⟩
      · simp [serial, run, Phased.step, Config.effect?, Config.call, serialized.store]
      · simp only [Config.effect?, Option.toList, serial, List.map_cons, List.map_nil, run, Phased.step,
          Config.call, serialized.store, Config.announced, List.append_assoc]
        refine (serialized.answers.append_right _).trans ?_
        rw [List.append_assoc]
        exact List.perm_append_comm.append_left config.answers

theorem Serialized.run {steps : List (Step Tag Op)} (serialized : Serialized quiet config one)
    (current : Along machine (Current quiet) config steps) :
    Serialized quiet (run machine config steps)
      (run machine one (serial (effects quiet config steps))) := by
  induction steps generalizing config one with
  | nil => exact serialized
  | cons next rest ih =>
      have later := ih (serialized.step current.1) current.2
      rw [← run_append, serial, serial, ← List.map_append] at later
      exact later

end UrlPulse.Data.Phased
