import UrlPulse.Data.Phased

namespace UrlPulse.Data.Phased

/-! Operations that are replaced by others which load the same.  The schedules then
leave the same storage and the same answers. -/

variable {Tag Op Other Pending Answer Store : Type}

def Task.mapOp (f : Op → Other) (task : Task Tag Op Pending) : Task Tag Other Pending where
  tag := task.tag
  op := f task.op
  pending := task.pending

def Config.mapOp (f : Op → Other) (config : Config Tag Op Pending Answer Store) :
    Config Tag Other Pending Answer Store where
  store := config.store
  inFlight := config.inFlight.map (Task.mapOp f)
  answers := config.answers.map fun answer => (f answer.1, answer.2)

def Step.mapOp (f : Op → Other) : Step Tag Op → Step Tag Other
  | .load tag op => .load tag (f op)
  | .save tag => .save tag
  | .call op => .call (f op)

variable [DecidableEq Tag] {machine : Machine Op Pending Answer Store}
  {other : Machine Other Pending Answer Store} {config : Config Tag Op Pending Answer Store} {f : Op → Other}

theorem Config.task?_mapOp (config : Config Tag Op Pending Answer Store) (f : Op → Other) (tag : Tag) :
    (config.mapOp f).task? tag = (config.task? tag).map (Task.mapOp f) := by
  rw [Config.task?, Config.task?, Config.mapOp, List.find?_map]
  rfl

theorem step_mapOp {next : Step Tag Op} (sameSave : other.save = machine.save)
    (agree : ∀ op, next.op? = some op → other.load (f op) config.store = machine.load op config.store) :
    step other (config.mapOp f) (next.mapOp f) = (step machine config next).mapOp f := by
  cases next with
  | load tag op =>
      simp only [Step.mapOp, step, Config.task?_mapOp]
      cases config.task? tag with
      | some task => rfl
      | none =>
          have loaded : other.load (f op) (config.mapOp f).store = machine.load op config.store :=
            agree op rfl
          simp only [Option.map_none, Config.begin, loaded]
          simp [Config.mapOp, Task.mapOp]
  | save tag =>
      simp only [Step.mapOp, step, Config.task?_mapOp]
      cases config.task? tag with
      | none => rfl
      | some task =>
          have others : (config.inFlight.map (Task.mapOp f)).filter (fun left => left.tag ≠ task.tag) =
              (config.inFlight.filter fun left => left.tag ≠ task.tag).map (Task.mapOp f) := List.filter_map
          simp only [Option.map_some, Config.commit, Config.mapOp, sameSave, List.map_append]
          exact congrArg (fun inFlight => Config.mk _ inFlight _) others
  | call op =>
      have loaded : other.load (f op) (config.mapOp f).store = machine.load op config.store := agree op rfl
      simp only [Step.mapOp, step, Config.call, loaded, sameSave]
      simp [Config.mapOp]

/-- It is enough that the operations agree on the stores there are. -/
theorem run_mapOp {P : Store → Prop} {steps : List (Step Tag Op)} (sameSave : other.save = machine.save)
    (agree : ∀ op store, P store → other.load (f op) store = machine.load op store)
    (reached : ∀ before, before <+: steps → P (run machine config before).store) :
    run other (config.mapOp f) (steps.map (Step.mapOp f)) = (run machine config steps).mapOp f := by
  induction steps generalizing config with
  | nil => rfl
  | cons next rest ih =>
      have here : P config.store := reached [] (List.nil_prefix)
      rw [List.map_cons, run, step_mapOp sameSave fun op _ => agree op config.store here, run]
      exact ih fun before isPrefix => reached (next :: before) (List.cons_prefix_cons.mpr ⟨rfl, isPrefix⟩)

end UrlPulse.Data.Phased
