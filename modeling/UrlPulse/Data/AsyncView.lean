import Mathlib.Logic.Function.Basic

namespace UrlPulse.Data.AsyncView

/-! Panels that are filled by answers to requests.  A choice of the user sends one
request for each panel; the answers come back in any order, and a panel shows
the answer it got last, whatever it was asked for.  Keys stand for the choices.
-/

structure View (Panel Key : Type) where
  selected : Option Key := none
  shown : Panel → Option Key := fun _ => none
  inFlight : List (Panel × Key) := []

/-- A request also empties some panels at once; `clear` deselects and empties all. -/
inductive Event (Panel Key : Type) where
  | request (key : Key) (emptied : Panel → Bool)
  | clear
  | deliver (panel : Panel) (key : Key)

def Event.isChoice {Panel Key : Type} : Event Panel Key → Bool
  | .deliver _ _ => false
  | _ => true

variable {Panel Key : Type}

/-- The answer to the current selection is still to come to this panel. -/
def Awaits (view : View Panel Key) (panel : Panel) : Prop :=
  ∃ key, view.selected = some key ∧ (panel, key) ∈ view.inFlight

/-- Every panel shows the selection, or nothing when there is none. -/
def Settled (view : View Panel Key) : Prop :=
  ∀ panel, view.shown panel = view.selected

def Converging (view : View Panel Key) : Prop :=
  ∀ panel, view.shown panel = view.selected ∨ Awaits view panel

/-- What is delivered is for the selection, or the selection's own answer is to follow. -/
def Timely (view : View Panel Key) : Event Panel Key → Prop
  | .deliver panel key => (panel, key) ∈ view.inFlight → view.selected = some key ∨
      ∃ current, view.selected = some current ∧ current ≠ key ∧ (panel, current) ∈ view.inFlight
  | _ => True

/-- Some panel shows something else than the selection, for good. -/
def Overtaken (view : View Panel Key) : Prop :=
  ∃ panel, view.shown panel ≠ view.selected ∧ ¬ Awaits view panel

variable {panels : List Panel} {view : View Panel Key} {event : Event Panel Key}

theorem Converging.settled (converging : Converging view) (quiet : view.inFlight = []) :
    Settled view := by
  intro panel
  rcases converging panel with shown | ⟨key, -, follows⟩
  · exact shown
  · rw [quiet] at follows
    contradiction

theorem Overtaken.not_settled (overtaken : Overtaken view) : ¬ Settled view := by
  obtain ⟨panel, different, -⟩ := overtaken
  exact fun settled => different (settled panel)

variable [DecidableEq Panel] [DecidableEq Key]

def step (panels : List Panel) (view : View Panel Key) : Event Panel Key → View Panel Key
  | .request key emptied =>
      { selected := some key
        shown := fun panel => if emptied panel then none else view.shown panel
        inFlight := view.inFlight ++ panels.map fun panel => (panel, key) }
  | .clear => { selected := none, shown := fun _ => none, inFlight := view.inFlight }
  | .deliver panel key =>
      if (panel, key) ∈ view.inFlight then
        { selected := view.selected
          shown := Function.update view.shown panel (some key)
          inFlight := view.inFlight.erase (panel, key) }
      else view

def run (panels : List Panel) : View Panel Key → List (Event Panel Key) → View Panel Key
  | view, [] => view
  | view, next :: rest => run panels (step panels view next) rest

/-- `timely`, unless a choice follows it, and every delivery since the last choice is
timely in the view it finds. -/
def TimelySince (panels : List Panel) : Prop → View Panel Key → List (Event Panel Key) → Prop
  | timely, _, [] => timely
  | timely, view, next :: rest =>
      TimelySince panels (next.isChoice = true ∨ timely ∧ Timely view next)
        (step panels view next) rest

theorem run_append (first second : List (Event Panel Key)) :
    run panels view (first ++ second) = run panels (run panels view first) second := by
  induction first generalizing view with
  | nil => rfl
  | cons next rest ih => exact ih

theorem timelySince_append (timely : Prop) (first second : List (Event Panel Key)) :
    TimelySince panels timely view (first ++ second) =
      TimelySince panels (TimelySince panels timely view first) (run panels view first) second := by
  induction first generalizing timely view with
  | nil => rfl
  | cons next rest ih => exact ih _

theorem converging_of_choice (all : ∀ panel, panel ∈ panels) (choice : event.isChoice = true) :
    Converging (step panels view event) := by
  intro panel
  cases event with
  | request key emptied =>
      right
      exact ⟨key, rfl, List.mem_append_right _ (List.mem_map.mpr ⟨panel, all panel, rfl⟩)⟩
  | clear => exact .inl rfl
  | deliver target key => contradiction

theorem Converging.step (all : ∀ panel, panel ∈ panels) (converging : Converging view)
    (timely : Timely view event) : Converging (step panels view event) := by
  cases event with
  | request key emptied => exact converging_of_choice all rfl
  | clear => exact converging_of_choice all rfl
  | deliver target key =>
      intro panel
      by_cases inFlight : (target, key) ∈ view.inFlight
      · rw [AsyncView.step, if_pos inFlight]
        by_cases same : panel = target
        · subst same
          rcases timely inFlight with current | ⟨current, selected, different, follows⟩
          · left
            simp only [Function.update_self, current]
          · right
            refine ⟨current, selected, (List.mem_erase_of_ne ?_).mpr follows⟩
            exact fun equal => different (congrArg Prod.snd equal)
        · rcases converging panel with shown | ⟨current, selected, follows⟩
          · left
            simpa only [Function.update_of_ne same] using shown
          · right
            refine ⟨current, selected, (List.mem_erase_of_ne ?_).mpr follows⟩
            exact fun equal => same (congrArg Prod.fst equal)
      · rw [AsyncView.step, if_neg inFlight]
        exact converging panel

theorem Overtaken.deliver (overtaken : Overtaken view) (delivery : event.isChoice = false) :
    Overtaken (step panels view event) := by
  obtain ⟨panel, different, unawaited⟩ := overtaken
  cases event with
  | request key emptied => contradiction
  | clear => contradiction
  | deliver target key =>
      by_cases inFlight : (target, key) ∈ view.inFlight
      · rw [AsyncView.step, if_pos inFlight]
        refine ⟨panel, ?_, ?_⟩
        · by_cases same : panel = target
          · subst same
            simp only [Function.update_self]
            exact fun selected => unawaited ⟨key, selected.symm, inFlight⟩
          · simp only [Function.update_of_ne same]
            exact different
        · intro awaited
          obtain ⟨current, selected, follows⟩ := awaited
          exact unawaited ⟨current, selected, List.mem_of_mem_erase follows⟩
      · rw [AsyncView.step, if_neg inFlight]
        exact ⟨panel, different, unawaited⟩

theorem overtaken_of_not_timely (late : ¬ Timely view event) :
    Overtaken (step panels view event) := by
  cases event with
  | request key emptied => exact absurd trivial late
  | clear => exact absurd trivial late
  | deliver panel key =>
      simp only [Timely, not_forall, not_or] at late
      obtain ⟨inFlight, other, unanswered⟩ := late
      rw [AsyncView.step, if_pos inFlight]
      refine ⟨panel, ?_, ?_⟩
      · simp only [Function.update_self]
        exact fun same => other same.symm
      · intro awaited
        obtain ⟨current, selected, follows⟩ := awaited
        refine unanswered ⟨current, selected, ?_, List.mem_of_mem_erase follows⟩
        exact fun same => other (same ▸ selected)

/-- At rest the view has settled exactly when the deliveries since the last choice were
timely.  The induction carries what each case has made of the view so far. -/
theorem settled_iff_timelySince (all : ∀ panel, panel ∈ panels) {timely : Prop}
    {events : List (Event Panel Key)} (kept : timely → Converging view)
    (lost : ¬ timely → Overtaken view) (quiet : (run panels view events).inFlight = []) :
    Settled (run panels view events) ↔ TimelySince panels timely view events := by
  induction events generalizing timely view with
  | nil =>
      constructor
      · intro settled
        by_contra late
        exact (lost late).not_settled settled
      · exact fun timely => (kept timely).settled quiet
  | cons next rest ih =>
      refine ih ?_ ?_ quiet
      · intro since
        rcases since with choice | ⟨before, timely⟩
        · exact converging_of_choice all choice
        · exact (kept before).step all timely
      · intro late
        have delivery : next.isChoice = false :=
          Bool.eq_false_iff.mpr fun choice => late (.inl choice)
        by_cases before : timely
        · exact overtaken_of_not_timely fun now => late (.inr ⟨before, now⟩)
        · exact (lost before).deliver delivery

end UrlPulse.Data.AsyncView
