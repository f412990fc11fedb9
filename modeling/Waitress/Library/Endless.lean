import Mathlib.Data.Nat.Init
import Waitress.Library.Transition

/-!
# Endless runs

A run that goes on for ever has a state at every time.  What is assumed of its
surroundings is said of all times, and what it leads to is found by these rules.
-/

namespace Transition

variable {Action State : Type} {next : Action → State → Option State}

/-- A run without an end; it may pause. -/
structure Endless (next : Action → State → Option State) where
  state : Nat → State
  action : Nat → Option Action
  steps : ∀ t taken, action t = some taken → next taken (state t) = some (state (t + 1))
  pauses : ∀ t, action t = none → state (t + 1) = state t

/-- What every step that meets the condition preserves holds at every time. -/
theorem Endless.invariant_along {run : Endless next} {invariant : State → Prop}
    {condition : Action → State → Prop}
    (step : ∀ action state after, invariant state → condition action state →
      next action state = some after → invariant after)
    (start : invariant (run.state 0))
    (meets : ∀ t action, run.action t = some action → condition action (run.state t)) (t : Nat) :
    invariant (run.state t) := by
  induction t with
  | zero => exact start
  | succ t inductionHypothesis =>
      cases taken : run.action t with
      | none => rwa [run.pauses t taken]
      | some action =>
          exact step action _ _ inductionHypothesis (meets t action taken) (run.steps t action taken)

/-- The states of the run are those that finite runs lead to. -/
theorem Endless.reaches (run : Endless next) (t : Nat) :
    Reaches next (run.state 0) (run.state t) := by
  have step : ∀ action before after, Reaches next (run.state 0) before → True →
      next action before = some after → Reaches next (run.state 0) after :=
    fun _ _ _ reaches _ taken => reaches.step _ taken
  exact @Endless.invariant_along _ _ _ run _ (fun _ _ => True) step (.refl _ _)
    (fun _ _ _ => trivial) t

section OfRun

variable {actions : List Action} {start final : State}

/-- A finite run that pauses at its end. -/
def Endless.ofRun (ran : run next actions start = some final) : Endless next where
  state t := (run next (actions.take t) start).getD start
  action t := actions[t]?
  steps t taken isNext := by
    obtain ⟨inside, same⟩ := List.getElem?_eq_some_iff.mp isNext
    rw [← List.take_append_drop (t + 1) actions] at ran
    obtain ⟨after, first, -⟩ := (run_append_eq_some next).mp ran
    have whole := first
    rw [← List.take_append_getElem inside, same] at first
    obtain ⟨before, earlier, last⟩ := (run_append_eq_some next).mp first
    obtain ⟨other, step, none⟩ := (run_cons_eq_some next).mp last
    rw [whole, earlier]
    exact step.trans none
  pauses t none := by
    have outside := List.getElem?_eq_none_iff.mp none
    rw [List.take_of_length_le outside, List.take_of_length_le (Nat.le_succ_of_le outside)]

theorem Endless.ofRun_final (ran : run next actions start = some final) {t : Nat}
    (late : actions.length ≤ t) : (Endless.ofRun ran).state t = final := by
  change (run next (actions.take t) start).getD start = final
  rw [List.take_of_length_le late, ran]
  rfl

theorem Along.meets {condition : Action → State → Prop} {t : Nat} {action : Action} {state : State}
    (along : Along next condition actions start) (isNext : actions[t]? = some action)
    (ran : run next (actions.take t) start = some state) : condition action state := by
  induction actions generalizing t start with
  | nil => cases isNext
  | cons first rest inductionHypothesis =>
      cases t with
      | zero =>
          obtain rfl := Option.some.inj isNext
          obtain rfl := Option.some.inj ran
          exact along.1
      | succ t =>
          obtain ⟨middle, taken, others⟩ := (run_cons_eq_some next).mp ran
          exact inductionHypothesis (along.2 middle taken) isNext others

/-- A condition on the steps of the finite run. -/
theorem Endless.ofRun_meets {condition : Action → State → Prop}
    (along : Along next condition actions start) (ran : run next actions start = some final)
    (t : Nat) {action : Action} (isNext : (Endless.ofRun ran).action t = some action) :
    condition action ((Endless.ofRun ran).state t) := by
  have whole := ran
  rw [← List.take_append_drop t actions] at whole
  obtain ⟨state, first, -⟩ := (run_append_eq_some next).mp whole
  have same : (Endless.ofRun ran).state t = state := congrArg (Option.getD · start) first
  rw [same]
  exact along.meets isNext first

end OfRun

section Times

variable {holds : Nat → Prop} {t : Nat}

/-- What every time hands on to the next one holds from then on. -/
theorem forall_later (now : holds t) (next : ∀ later ≥ t, holds later → holds (later + 1)) :
    ∀ later ≥ t, holds later :=
  fun later more => Nat.le_induction now next later more

/-- What does not hold for ever holds for a last time. -/
theorem exists_last (now : holds t) (ends : ¬ ∀ later ≥ t, holds later) :
    ∃ later ≥ t, holds later ∧ ¬ holds (later + 1) := by
  by_contra never
  refine ends (forall_later now fun later more held => ?_)
  by_contra stops
  exact never ⟨later, more, held, stops⟩

end Times

end Transition
