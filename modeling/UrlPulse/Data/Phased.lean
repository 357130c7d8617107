import Mathlib.Data.List.Forall2
import Mathlib.Data.List.Induction
import UrlPulse.Data.Linq

namespace UrlPulse.Data.Phased

/-! Operations that touch shared storage twice: `load` reads it and decides what
to write, `save` writes it some time later.  Any number of operations may stand
between their two phases at once, and a schedule is any list of steps; a step
that makes no sense where it stands does nothing.  The rules below reduce facts
about every schedule to facts about single phases.
-/

structure Machine (Op Pending Answer Store : Type) where
  load : Op → Store → Pending
  save : Pending → Store → Answer × Store

/-- An operation between its load and its save. -/
structure Task (Tag Op Pending : Type) where
  tag : Tag
  op : Op
  pending : Pending
deriving DecidableEq

structure Config (Tag Op Pending Answer Store : Type) where
  store : Store
  inFlight : List (Task Tag Op Pending) := []
  answers : List (Op × Answer) := []

/-- `call` is an operation that nothing else comes between. -/
inductive Step (Tag Op : Type) where
  | load (tag : Tag) (op : Op)
  | save (tag : Tag)
  | call (op : Op)

def Step.op? {Tag Op : Type} : Step Tag Op → Option Op
  | .load _ op | .call op => some op
  | .save _ => none

def Step.tag? {Tag Op : Type} : Step Tag Op → Option Tag
  | .load tag _ | .save tag => some tag
  | .call _ => none

variable {Tag Op Pending Answer Store : Type} [DecidableEq Tag]

def Config.task? (config : Config Tag Op Pending Answer Store) (tag : Tag) :
    Option (Task Tag Op Pending) :=
  config.inFlight.find? fun task => task.tag = tag

def Config.commit (machine : Machine Op Pending Answer Store)
    (config : Config Tag Op Pending Answer Store) (task : Task Tag Op Pending) :
    Config Tag Op Pending Answer Store where
  store := (machine.save task.pending config.store).2
  inFlight := config.inFlight.filter fun other => other.tag ≠ task.tag
  answers := config.answers ++ [(task.op, (machine.save task.pending config.store).1)]

def Config.call (machine : Machine Op Pending Answer Store)
    (config : Config Tag Op Pending Answer Store) (op : Op) :
    Config Tag Op Pending Answer Store where
  store := (machine.save (machine.load op config.store) config.store).2
  inFlight := config.inFlight
  answers := config.answers ++
    [(op, (machine.save (machine.load op config.store) config.store).1)]

def Config.begin (machine : Machine Op Pending Answer Store)
    (config : Config Tag Op Pending Answer Store) (tag : Tag) (op : Op) :
    Config Tag Op Pending Answer Store where
  store := config.store
  inFlight := config.inFlight ++ [⟨tag, op, machine.load op config.store⟩]
  answers := config.answers

def step (machine : Machine Op Pending Answer Store)
    (config : Config Tag Op Pending Answer Store) :
    Step Tag Op → Config Tag Op Pending Answer Store
  | .load tag op =>
      match config.task? tag with
      | none => config.begin machine tag op
      | some _ => config
  | .save tag =>
      match config.task? tag with
      | none => config
      | some task => config.commit machine task
  | .call op => config.call machine op

def run (machine : Machine Op Pending Answer Store) :
    Config Tag Op Pending Answer Store → List (Step Tag Op) →
      Config Tag Op Pending Answer Store
  | config, [] => config
  | config, next :: rest => run machine (step machine config next) rest

variable {machine : Machine Op Pending Answer Store}
  {config : Config Tag Op Pending Answer Store}

theorem Config.task?_some {tag : Tag} {task : Task Tag Op Pending}
    (found : config.task? tag = some task) : task ∈ config.inFlight ∧ task.tag = tag :=
  ⟨List.mem_of_find?_eq_some found, by simpa using List.find?_some found⟩

theorem run_append (first second : List (Step Tag Op)) :
    run machine config (first ++ second) = run machine (run machine config first) second := by
  induction first generalizing config with
  | nil => rfl
  | cons next rest ih => exact ih

theorem step_cases (machine : Machine Op Pending Answer Store)
    (config : Config Tag Op Pending Answer Store) (next : Step Tag Op) :
    step machine config next = config ∨
    (∃ tag op, next = .load tag op ∧ config.task? tag = none ∧
      step machine config next = config.begin machine tag op) ∨
    (∃ task, next = .save task.tag ∧ task ∈ config.inFlight ∧
      step machine config next = config.commit machine task) ∨
    (∃ op, next = .call op ∧ step machine config next = config.call machine op) := by
  cases next with
  | load tag op =>
      cases found : config.task? tag with
      | none => exact .inr (.inl ⟨tag, op, rfl, found, by simp only [step, found]⟩)
      | some task => exact .inl (by simp only [step, found])
  | save tag =>
      cases found : config.task? tag with
      | none => exact .inl (by simp only [step, found])
      | some task =>
          obtain ⟨member, same⟩ := Config.task?_some found
          subst same
          exact .inr (.inr (.inl ⟨task, rfl, member, by simp only [step, found]⟩))
  | call op => exact .inr (.inr (.inr ⟨op, rfl, rfl⟩))

theorem run_invariant {P : Config Tag Op Pending Answer Store → Prop}
    {steps : List (Step Tag Op)}
    (kept : ∀ next ∈ steps, ∀ current, P current → P (step machine current next))
    (initial : P config) : P (run machine config steps) := by
  induction steps generalizing config with
  | nil => exact initial
  | cons next rest ih =>
      exact ih (fun other member => kept other (List.mem_cons_of_mem next member))
        (kept next (by simp) config initial)

theorem Config.task?_begin (machine : Machine Op Pending Answer Store) {tag : Tag} (op : Op)
    (free : config.task? tag = none) :
    (config.begin machine tag op).task? tag = some ⟨tag, op, machine.load op config.store⟩ := by
  have absent : config.inFlight.find? (fun task => task.tag = tag) = none := free
  simp [Config.task?, Config.begin, List.find?_append, absent]

theorem Config.task?_commit (machine : Machine Op Pending Answer Store)
    (task : Task Tag Op Pending) : (config.commit machine task).task? task.tag = none := by
  simp [Config.task?, Config.commit, List.find?_eq_none]

/-- A task stays in flight, as it was loaded, while no step names its tag. -/
theorem task?_step_of_other (machine : Machine Op Pending Answer Store)
    (config : Config Tag Op Pending Answer Store) {tag : Tag} {next : Step Tag Op}
    (other : next.tag? ≠ some tag) :
    (step machine config next).task? tag = config.task? tag := by
  rcases step_cases machine config next with
    same | ⟨otherTag, op, rfl, -, begun⟩ | ⟨task, rfl, -, committed⟩ | ⟨op, rfl, called⟩
  · rw [same]
  · have different : otherTag ≠ tag := fun same => other (congrArg some same)
    simp [begun, Config.begin, Config.task?, List.find?_append, different]
  · have different : task.tag ≠ tag := fun same => other (congrArg some same)
    rw [committed]
    simp only [Config.commit, Config.task?, List.find?_filter]
    refine congrArg (fun test => config.inFlight.find? test) (funext fun candidate => ?_)
    by_cases named : candidate.tag = tag
    · simp [named, different.symm]
    · simp [named]
  · rw [called]
    rfl

theorem task?_run_of_others (machine : Machine Op Pending Answer Store)
    (config : Config Tag Op Pending Answer Store) {tag : Tag} {steps : List (Step Tag Op)}
    (others : ∀ next ∈ steps, next.tag? ≠ some tag) :
    (run machine config steps).task? tag = config.task? tag := by
  induction steps generalizing config with
  | nil => rfl
  | cons next rest ih =>
      have later := ih (step machine config next)
        fun other member => others other (List.mem_cons_of_mem next member)
      exact later.trans (task?_step_of_other machine config (others next (by simp)))

def Step.loadTag? {Tag Op : Type} : Step Tag Op → Option Tag
  | .load tag _ => some tag
  | _ => none

def Step.saveTag? {Tag Op : Type} : Step Tag Op → Option Tag
  | .save tag => some tag
  | _ => none

theorem task?_step_none {tag : Tag} {next : Step Tag Op} (free : config.task? tag = none)
    (other : next.loadTag? ≠ some tag) : (step machine config next).task? tag = none := by
  by_cases named : next.tag? = some tag
  · cases next with
    | load loaded op => exact absurd named other
    | save saved =>
        cases named
        simp only [step, free]
    | call op => contradiction
  · rw [task?_step_of_other machine config named]
    exact free

theorem task?_run_none {tag : Tag} {steps : List (Step Tag Op)} (free : config.task? tag = none)
    (others : ∀ next ∈ steps, next.loadTag? ≠ some tag) :
    (run machine config steps).task? tag = none :=
  run_invariant (P := fun current => current.task? tag = none)
    (fun next member _ held => task?_step_none held (others next member)) free

/-- One operation among others: its save writes what its load decided. -/
theorem run_load_save (machine : Machine Op Pending Answer Store)
    (config : Config Tag Op Pending Answer Store) (op : Op) {tag : Tag} {before between : List (Step Tag Op)}
    (free : config.task? tag = none)
    (othersBefore : ∀ next ∈ before, next.tag? ≠ some tag)
    (othersBetween : ∀ next ∈ between, next.tag? ≠ some tag) :
    run machine config (before ++ .load tag op :: between ++ [.save tag]) =
      (run machine config (before ++ .load tag op :: between)).commit machine
        ⟨tag, op, machine.load op (run machine config before).store⟩ := by
  have loaded := task?_run_of_others machine config othersBefore
  have begun : step machine (run machine config before) (.load tag op) =
      (run machine config before).begin machine tag op := by
    simp only [step, loaded, free]
  have inFlight : (run machine config (before ++ .load tag op :: between)).task? tag =
      some ⟨tag, op, machine.load op (run machine config before).store⟩ := by
    rw [run_append]
    simp only [run, begun]
    rw [task?_run_of_others machine _ othersBetween]
    exact Config.task?_begin machine op (loaded.trans free)
  rw [run_append]
  simp only [run, step, inFlight]

/-- The operation a step starts here: a load under a busy tag starts none. -/
def Config.starts? (config : Config Tag Op Pending Answer Store) : Step Tag Op → Option Op
  | .load tag op => if config.task? tag = none then some op else none
  | .save _ => none
  | .call op => some op

theorem Config.op?_of_starts {config : Config Tag Op Pending Answer Store} {next : Step Tag Op}
    {op : Op} (starts : config.starts? next = some op) : next.op? = some op := by
  cases next with
  | load tag other =>
      simp only [starts?] at starts
      split at starts
      · exact starts
      · contradiction
  | save tag => contradiction
  | call other => exact starts

/-- The operation a step completes, with what it decided to write. -/
def Config.completes? (machine : Machine Op Pending Answer Store)
    (config : Config Tag Op Pending Answer Store) : Step Tag Op → Option (Op × Pending)
  | .load _ _ => none
  | .save tag => (config.task? tag).map fun task => (task.op, task.pending)
  | .call op => some (op, machine.load op config.store)

theorem step_incomplete (machine : Machine Op Pending Answer Store)
    (config : Config Tag Op Pending Answer Store) {next : Step Tag Op}
    (incomplete : config.completes? machine next = none) :
    (step machine config next).store = config.store ∧
      (step machine config next).answers = config.answers := by
  cases next with
  | load tag op =>
      cases found : config.task? tag <;> simp [step, found, Config.begin]
  | save tag =>
      have absent : config.task? tag = none := by simpa [Config.completes?] using incomplete
      simp [step, absent]
  | call op => contradiction

theorem step_complete {next : Step Tag Op} {op : Op} {pending : Pending}
    (complete : config.completes? machine next = some (op, pending)) :
    (step machine config next).store = (machine.save pending config.store).2 ∧
      (step machine config next).answers =
        config.answers ++ [(op, (machine.save pending config.store).1)] := by
  cases next with
  | load tag other => contradiction
  | save tag =>
      obtain ⟨task, found, same⟩ := Option.map_eq_some_iff.mp complete
      cases same
      simp [step, found, Config.commit]
  | call other =>
      cases complete
      exact ⟨rfl, rfl⟩

theorem nodup_tags_step (machine : Machine Op Pending Answer Store) (next : Step Tag Op)
    (nodup : (config.inFlight.map (·.tag)).Nodup) :
    ((step machine config next).inFlight.map (·.tag)).Nodup := by
  rcases step_cases machine config next with
    same | ⟨tag, op, rfl, free, begun⟩ | ⟨task, rfl, -, committed⟩ | ⟨op, rfl, called⟩
  · rw [same]
    exact nodup
  · rw [begun]
    simp only [Config.begin, List.map_append, List.map_cons, List.map_nil]
    refine List.nodup_append.mpr ⟨nodup, by simp, ?_⟩
    intro taken member new inside same
    obtain ⟨task, inFlight, rfl⟩ := List.mem_map.mp member
    have busy := List.find?_eq_none.mp free task inFlight
    rw [List.mem_singleton.mp inside] at same
    simp [same] at busy
  · rw [committed]
    exact nodup.sublist (List.Sublist.map _ List.filter_sublist)
  · rw [called]
    exact nodup

theorem nodup_tags_run (machine : Machine Op Pending Answer Store) (steps : List (Step Tag Op))
    (nodup : (config.inFlight.map (·.tag)).Nodup) :
    ((run machine config steps).inFlight.map (·.tag)).Nodup := by
  induction steps generalizing config with
  | nil => exact nodup
  | cons next rest ih => exact ih (nodup_tags_step machine next nodup)

theorem Config.commit_perm {task : Task Tag Op Pending} (machine : Machine Op Pending Answer Store)
    (nodup : (config.inFlight.map (·.tag)).Nodup) (member : task ∈ config.inFlight) :
    (task :: (config.commit machine task).inFlight).Perm config.inFlight := by
  have one : (config.inFlight.filter fun other => other.tag = task.tag) = [task] :=
    Linq.filter_key_of_nodup nodup member
  have split := List.filter_append_perm (fun other => decide (other.tag = task.tag)) config.inFlight
  rw [one] at split
  simpa [Config.commit] using split

/-- A task in flight was loaded at an earlier step. -/
theorem load_of_inFlight {steps : List (Step Tag Op)} {task : Task Tag Op Pending}
    (idle : config.inFlight = []) (member : task ∈ (run machine config steps).inFlight) :
    ∃ before, before <+: steps ∧
      task.pending = machine.load task.op (run machine config before).store := by
  induction steps using List.reverseRecOn with
  | nil =>
      simp only [run, idle] at member
      contradiction
  | append_singleton before next ih =>
      rw [run_append] at member
      have earlier : task ∈ (run machine config before).inFlight →
          ∃ first, first <+: before ++ [next] ∧
            task.pending = machine.load task.op (run machine config first).store := by
        intro old
        obtain ⟨first, isPrefix, loaded⟩ := ih old
        exact ⟨first, isPrefix.trans (List.prefix_append before [next]), loaded⟩
      simp only [run] at member
      rcases step_cases machine (run machine config before) next with
        same | ⟨tag, op, -, -, begun⟩ | ⟨other, -, -, committed⟩ | ⟨op, -, called⟩
      · rw [same] at member
        exact earlier member
      · rw [begun] at member
        rcases List.mem_append.mp member with old | fresh
        · exact earlier old
        · rw [List.mem_singleton.mp fresh]
          exact ⟨before, List.prefix_append before [next], rfl⟩
      · rw [committed] at member
        exact earlier (List.mem_of_mem_filter member)
      · rw [called] at member
        exact earlier member

theorem load_of_completes {steps : List (Step Tag Op)} {next : Step Tag Op} {op : Op}
    {pending : Pending} (idle : config.inFlight = [])
    (complete : (run machine config steps).completes? machine next = some (op, pending)) :
    ∃ before, before <+: steps ∧ pending = machine.load op (run machine config before).store := by
  cases next with
  | load tag other => contradiction
  | save tag =>
      obtain ⟨task, found, same⟩ := Option.map_eq_some_iff.mp complete
      cases same
      exact load_of_inFlight idle (Config.task?_some found).1
  | call other =>
      cases complete
      exact ⟨steps, List.prefix_rfl, rfl⟩

/-- `guard` holds at each step, in the configuration the step finds. -/
def Along (machine : Machine Op Pending Answer Store)
    (guard : Config Tag Op Pending Answer Store → Step Tag Op → Prop) :
    Config Tag Op Pending Answer Store → List (Step Tag Op) → Prop
  | _, [] => True
  | config, next :: rest => guard config next ∧ Along machine guard (step machine config next) rest

instance Along.decidable (machine : Machine Op Pending Answer Store)
    (guard : Config Tag Op Pending Answer Store → Step Tag Op → Prop)
    [∀ config next, Decidable (guard config next)] (config : Config Tag Op Pending Answer Store) :
    (steps : List (Step Tag Op)) → Decidable (Along machine guard config steps)
  | [] => .isTrue trivial
  | next :: rest =>
      have _later := Along.decidable machine guard (step machine config next) rest
      inferInstanceAs (Decidable (guard config next ∧ _))

theorem Along.of_append {guard : Config Tag Op Pending Answer Store → Step Tag Op → Prop}
    {first second : List (Step Tag Op)} (along : Along machine guard config (first ++ second)) :
    Along machine guard config first := by
  induction first generalizing config with
  | nil => trivial
  | cons next rest ih => exact ⟨along.1, ih along.2⟩

/-- No special operation starts while another is between its phases. -/
def Exclusive (special : Op → Bool) (config : Config Tag Op Pending Answer Store)
    (next : Step Tag Op) : Prop :=
  ∀ op, config.starts? next = some op → special op = true →
    ∀ task ∈ config.inFlight, special task.op = false

theorem along_invariant {P : Config Tag Op Pending Answer Store → Prop}
    {guard : Config Tag Op Pending Answer Store → Step Tag Op → Prop}
    {steps : List (Step Tag Op)}
    (kept : ∀ current next, guard current next → P current → P (step machine current next))
    (guarded : Along machine guard config steps) (initial : P config) :
    P (run machine config steps) := by
  induction steps generalizing config with
  | nil => exact initial
  | cons next rest ih => exact ih guarded.2 (kept config next guarded.1 initial)

/-- A store invariant together with a promise every pending write keeps. -/
structure Keeps (storeInv : Store → Prop) (promise : Op → Pending → Prop)
    (config : Config Tag Op Pending Answer Store) : Prop where
  store : storeInv config.store
  tasks : ∀ task ∈ config.inFlight, promise task.op task.pending

/-- If loading yields the promise and saving under the promise keeps the store
invariant, both hold in every configuration, however the phases interleave. -/
theorem Keeps.step {storeInv : Store → Prop} {promise : Op → Pending → Prop}
    {next : Step Tag Op}
    (loads : ∀ op store, next.op? = some op → storeInv store →
      promise op (machine.load op store))
    (saves : ∀ op pending store, storeInv store → promise op pending →
      storeInv (machine.save pending store).2)
    (keeps : Keeps storeInv promise config) :
    Keeps storeInv promise (step machine config next) := by
  rcases step_cases machine config next with
    same | ⟨tag, op, rfl, -, begun⟩ | ⟨task, rfl, member, committed⟩ | ⟨op, rfl, called⟩
  · rw [same]
    exact keeps
  · rw [begun]
    refine ⟨keeps.store, ?_⟩
    intro task member
    rcases List.mem_append.mp member with old | fresh
    · exact keeps.tasks task old
    · rw [List.mem_singleton.mp fresh]
      exact loads op config.store rfl keeps.store
  · rw [committed]
    refine ⟨saves task.op task.pending config.store keeps.store (keeps.tasks task member), ?_⟩
    intro other remaining
    exact keeps.tasks other (List.mem_of_mem_filter remaining)
  · rw [called]
    exact ⟨saves op _ config.store keeps.store (loads op config.store rfl keeps.store), keeps.tasks⟩

theorem Keeps.run {storeInv : Store → Prop} {promise : Op → Pending → Prop}
    {steps : List (Step Tag Op)}
    (loads : ∀ next ∈ steps, ∀ op store, next.op? = some op → storeInv store →
      promise op (machine.load op store))
    (saves : ∀ op pending store, storeInv store → promise op pending →
      storeInv (machine.save pending store).2)
    (keeps : Keeps storeInv promise config) :
    Keeps storeInv promise (run machine config steps) :=
  run_invariant (fun next member _ held => held.step (loads next member) saves) keeps

theorem Keeps.complete {storeInv : Store → Prop} {promise : Op → Pending → Prop}
    {next : Step Tag Op} {op : Op} {pending : Pending}
    (loads : ∀ op store, next.op? = some op → storeInv store →
      promise op (machine.load op store))
    (keeps : Keeps storeInv promise config)
    (complete : config.completes? machine next = some (op, pending)) : promise op pending := by
  cases next with
  | load tag other => contradiction
  | save tag =>
      obtain ⟨task, found, same⟩ := Option.map_eq_some_iff.mp complete
      cases same
      exact keeps.tasks task (Config.task?_some found).1
  | call other =>
      cases complete
      exact loads op config.store rfl keeps.store

/-- The same where the promise of what is under way rests on the store. -/
structure KeepsOver (storeInv : Store → Prop) (promise : Store → Pending → Prop)
    (config : Config Tag Op Pending Answer Store) : Prop where
  store : storeInv config.store
  tasks : ∀ task ∈ config.inFlight, promise config.store task.pending

/-- Every save must leave the promises of the others what they rest on. -/
theorem KeepsOver.run {storeInv : Store → Prop} {promise : Store → Pending → Prop}
    {steps : List (Step Tag Op)}
    (loads : ∀ next ∈ steps, ∀ op store, next.op? = some op → storeInv store →
      promise store (machine.load op store))
    (saves : ∀ pending store, storeInv store → promise store pending →
      storeInv (machine.save pending store).2)
    (stays : ∀ pending other store, storeInv store → promise store pending → promise store other →
      promise (machine.save pending store).2 other)
    (keeps : KeepsOver storeInv promise config) :
    KeepsOver storeInv promise (Phased.run machine config steps) := by
  refine run_invariant ?_ keeps
  intro next member current held
  rcases step_cases machine current next with
    same | ⟨tag, op, rfl, -, begun⟩ | ⟨task, rfl, inFlight, committed⟩ | ⟨op, rfl, called⟩
  · rw [same]
    exact held
  · rw [begun]
    refine ⟨held.store, ?_⟩
    intro task inFlight
    rcases List.mem_append.mp inFlight with old | fresh
    · exact held.tasks task old
    · rw [List.mem_singleton.mp fresh]
      exact loads _ member op current.store rfl held.store
  · have promised := held.tasks task inFlight
    rw [committed]
    refine ⟨saves task.pending current.store held.store promised, ?_⟩
    intro other remaining
    exact stays task.pending other.pending current.store held.store promised
      (held.tasks other (List.mem_of_mem_filter remaining))
  · have promised := loads _ member op current.store rfl held.store
    rw [called]
    refine ⟨saves _ current.store held.store promised, ?_⟩
    intro other inFlight
    exact stays _ other.pending current.store held.store promised (held.tasks other inFlight)

theorem forall_mem_iff_of_forall₂ {α β : Type} {R : α → β → Prop} {p : α → Prop} {q : β → Prop}
    {lefts : List α} {rights : List β} (related : List.Forall₂ R lefts rights)
    (agree : ∀ l r, R l r → (p l ↔ q r)) : (∀ l ∈ lefts, p l) ↔ ∀ r ∈ rights, q r := by
  induction related with
  | nil => simp
  | cons head _ ih => rw [List.forall_mem_cons, List.forall_mem_cons, agree _ _ head, ih]

theorem countP_eq_of_forall₂ {α β : Type} {R : α → β → Prop} {p : α → Bool} {q : β → Bool}
    {lefts : List α} {rights : List β} (related : List.Forall₂ R lefts rights)
    (agree : ∀ l r, R l r → p l = q r) : lefts.countP p = rights.countP q := by
  induction related with
  | nil => rfl
  | cons head _ ih => rw [List.countP_cons, List.countP_cons, ih, agree _ _ head]

section Simulation

variable {Pending' Answer' Store' : Type}

/-- A simulation between two machines with the same operations, for the
operations in `allowed`. -/
structure Simulation (concrete : Machine Op Pending Answer Store)
    (abstract : Machine Op Pending' Answer' Store') (allowed : Op → Prop) where
  store : Store → Store' → Prop
  pending : Op → Pending → Pending' → Prop
  answer : Op → Answer → Answer' → Prop
  loads : ∀ {op left right}, allowed op → store left right →
    pending op (concrete.load op left) (abstract.load op right)
  saves : ∀ {op p p' left right}, allowed op → store left right → pending op p p' →
    answer op (concrete.save p left).1 (abstract.save p' right).1 ∧
      store (concrete.save p left).2 (abstract.save p' right).2

variable {concrete : Machine Op Pending Answer Store}
  {abstract : Machine Op Pending' Answer' Store'} {allowed : Op → Prop}

def Simulation.Task (simulation : Simulation concrete abstract allowed)
    (left : Task Tag Op Pending) (right : Phased.Task Tag Op Pending') : Prop :=
  left.tag = right.tag ∧ left.op = right.op ∧ allowed left.op ∧
    simulation.pending left.op left.pending right.pending

structure Simulation.Related (simulation : Simulation concrete abstract allowed)
    (left : Config Tag Op Pending Answer Store)
    (right : Config Tag Op Pending' Answer' Store') : Prop where
  store : simulation.store left.store right.store
  inFlight : List.Forall₂ simulation.Task left.inFlight right.inFlight
  answers : List.Forall₂
    (fun given expected => given.1 = expected.1 ∧ simulation.answer given.1 given.2 expected.2)
    left.answers right.answers

variable {simulation : Simulation concrete abstract allowed}
  {left : Config Tag Op Pending Answer Store} {right : Config Tag Op Pending' Answer' Store'}

private theorem Simulation.find?_related {lefts : List (Phased.Task Tag Op Pending)}
    {rights : List (Phased.Task Tag Op Pending')} (tag : Tag)
    (related : List.Forall₂ simulation.Task lefts rights) :
    (lefts.find? (fun task => task.tag = tag) = none ∧
      rights.find? (fun task => task.tag = tag) = none) ∨
    ∃ l r, lefts.find? (fun task => task.tag = tag) = some l ∧
      rights.find? (fun task => task.tag = tag) = some r ∧ simulation.Task l r := by
  induction related with
  | nil => exact .inl ⟨rfl, rfl⟩
  | @cons l r lefts rights head _ ih =>
      by_cases same : l.tag = tag
      · have sameRight : r.tag = tag := head.1 ▸ same
        exact .inr ⟨l, r, by simp [same], by simp [sameRight], head⟩
      · have differentRight : r.tag ≠ tag := head.1 ▸ same
        simpa [same, differentRight] using ih

private theorem Simulation.filter_related {lefts : List (Phased.Task Tag Op Pending)}
    {rights : List (Phased.Task Tag Op Pending')} (tag : Tag)
    (related : List.Forall₂ simulation.Task lefts rights) :
    List.Forall₂ simulation.Task (lefts.filter fun task => task.tag ≠ tag)
      (rights.filter fun task => task.tag ≠ tag) := by
  induction related with
  | nil => exact .nil
  | @cons l r lefts rights head _ ih =>
      by_cases same : l.tag = tag
      · have sameRight : r.tag = tag := head.1 ▸ same
        simpa [same, sameRight] using ih
      · have differentRight : r.tag ≠ tag := head.1 ▸ same
        simpa [same, differentRight] using And.intro head ih

theorem Simulation.Related.starts?_eq (related : simulation.Related left right)
    (next : Step Tag Op) : left.starts? next = right.starts? next := by
  cases next with
  | load tag op =>
      rcases simulation.find?_related tag related.inFlight with ⟨l, r⟩ | ⟨l, r, foundLeft, foundRight, -⟩
      · simp only [Config.starts?, Config.task?, l, r]
      · simp only [Config.starts?, Config.task?, foundLeft, foundRight, reduceCtorEq, if_false]
  | save tag => rfl
  | call op => rfl

theorem Simulation.Related.step {next : Step Tag Op}
    (permitted : ∀ op, next.op? = some op → allowed op)
    (related : simulation.Related left right) :
    simulation.Related (step concrete left next) (step abstract right next) := by
  cases next with
  | load tag op =>
      have ok := permitted op rfl
      rcases simulation.find?_related tag related.inFlight with ⟨l, r⟩ | ⟨l, r, foundLeft, foundRight, -⟩
      · simp only [Phased.step, Config.task?, l, r]
        refine ⟨related.store, ?_, related.answers⟩
        exact List.rel_append related.inFlight
          (.cons ⟨rfl, rfl, ok, simulation.loads ok related.store⟩ .nil)
      · simp only [Phased.step, Config.task?, foundLeft, foundRight]
        exact related
  | save tag =>
      rcases simulation.find?_related tag related.inFlight with ⟨l, r⟩ | ⟨l, r, foundLeft, foundRight, task⟩
      · simp only [Phased.step, Config.task?, l, r]
        exact related
      · obtain ⟨sameTag, sameOp, ok, pending⟩ := task
        have saved := simulation.saves ok related.store pending
        simp only [Phased.step, Config.task?, foundLeft, foundRight]
        refine ⟨saved.2, ?_, ?_⟩
        · simpa only [Config.commit, ← sameTag] using simulation.filter_related l.tag related.inFlight
        · exact List.rel_append related.answers (.cons ⟨sameOp, saved.1⟩ .nil)
  | call op =>
      have ok := permitted op rfl
      have saved := simulation.saves ok related.store (simulation.loads ok related.store)
      exact ⟨saved.2, related.inFlight, List.rel_append related.answers (.cons ⟨rfl, saved.1⟩ .nil)⟩

theorem Simulation.Related.run {steps : List (Step Tag Op)}
    (permitted : ∀ next ∈ steps, ∀ op, next.op? = some op → allowed op)
    (related : simulation.Related left right) :
    simulation.Related (run concrete left steps) (run abstract right steps) := by
  induction steps generalizing left right with
  | nil => exact related
  | cons next rest ih =>
      exact ih (fun other member => permitted other (List.mem_cons_of_mem next member))
        (related.step (permitted next (by simp)))

theorem Simulation.Related.exclusive_iff {next : Step Tag Op} (special : Op → Bool)
    (related : simulation.Related left right) :
    Exclusive special left next ↔ Exclusive special right next := by
  have idle : (∀ task ∈ left.inFlight, special task.op = false) ↔
      ∀ task ∈ right.inFlight, special task.op = false :=
    forall_mem_iff_of_forall₂ related.inFlight fun l r task => by rw [task.2.1]
  unfold Exclusive
  rw [related.starts?_eq next, idle]

omit [DecidableEq Tag] in
theorem Simulation.Related.countP_answers (special : Op → Bool)
    (related : simulation.Related left right) :
    left.answers.countP (fun answer => special answer.1) =
      right.answers.countP fun answer => special answer.1 :=
  countP_eq_of_forall₂ related.answers fun _ _ same => by rw [same.1]

/-- A guard that related configurations agree on holds along both runs or along
neither. -/
theorem Simulation.Related.along_iff {steps : List (Step Tag Op)}
    (guard : Config Tag Op Pending Answer Store → Step Tag Op → Prop)
    (guard' : Config Tag Op Pending' Answer' Store' → Step Tag Op → Prop)
    (agree : ∀ left right next, (∀ op, next.op? = some op → allowed op) →
      simulation.Related left right → (guard left next ↔ guard' right next))
    (permitted : ∀ next ∈ steps, ∀ op, next.op? = some op → allowed op)
    (related : simulation.Related left right) :
    Along concrete guard left steps ↔ Along abstract guard' right steps := by
  induction steps generalizing left right with
  | nil => exact Iff.rfl
  | cons next rest ih =>
      have first := permitted next (by simp)
      exact and_congr (agree left right next first related)
        (ih (fun other member => permitted other (List.mem_cons_of_mem next member))
          (related.step first))

end Simulation

end UrlPulse.Data.Phased
