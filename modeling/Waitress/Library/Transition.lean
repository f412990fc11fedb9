import Mathlib.Data.Option.Basic

/-!
# Runs of a transition system

A step is a partial function of an action, which also makes all choices.  Every
interleaving is a list of actions, so that a run on a given list can be computed.
-/

namespace Transition

variable {Action State : Type} (next : Action → State → Option State)

/-- The state behind a list of actions, if all of them are enabled. -/
def run : List Action → State → Option State
  | [], state => some state
  | action :: rest, state => (next action state).bind (run rest)

@[simp]
theorem run_nil (state : State) : run next [] state = some state := rfl

theorem run_cons_eq_some {action : Action} {rest : List Action} {state final : State} :
    run next (action :: rest) state = some final ↔
      ∃ middle, next action state = some middle ∧ run next rest middle = some final :=
  Option.bind_eq_some_iff

theorem run_append_eq_some {first second : List Action} {state final : State} :
    run next (first ++ second) state = some final ↔
      ∃ middle, run next first state = some middle ∧ run next second middle = some final := by
  induction first generalizing state with
  | nil => simp
  | cons action rest inductionHypothesis =>
      rw [List.cons_append, run_cons_eq_some]
      constructor
      · rintro ⟨after, step, others⟩
        obtain ⟨middle, start, finish⟩ := inductionHypothesis.mp others
        exact ⟨middle, (run_cons_eq_some next).mpr ⟨after, step, start⟩, finish⟩
      · rintro ⟨middle, start, finish⟩
        obtain ⟨after, step, others⟩ := (run_cons_eq_some next).mp start
        exact ⟨after, step, inductionHypothesis.mpr ⟨middle, others, finish⟩⟩

/-- Some run leads from the one state to the other. -/
def Reaches (state final : State) : Prop := ∃ actions, run next actions state = some final

theorem Reaches.refl (state : State) : Reaches next state state := ⟨[], rfl⟩

theorem Reaches.step {action : Action} {state middle final : State}
    (reaches : Reaches next state middle) (taken : next action middle = some final) :
    Reaches next state final := by
  obtain ⟨actions, ran⟩ := reaches
  refine ⟨actions ++ [action], (run_append_eq_some next).mpr ⟨middle, ran, ?_⟩⟩
  exact (run_cons_eq_some next).mpr ⟨final, taken, rfl⟩

theorem reaches_of_next {action : Action} {state after : State}
    (taken : next action state = some after) : Reaches next state after :=
  (Reaches.refl next state).step next taken

theorem Reaches.trans {state middle final : State} (first : Reaches next state middle)
    (second : Reaches next middle final) : Reaches next state final := by
  obtain ⟨start, started⟩ := first
  obtain ⟨rest, finished⟩ := second
  exact ⟨start ++ rest, (run_append_eq_some next).mpr ⟨middle, started, finished⟩⟩

/-- Every step of the run meets a condition on the action and on the state before it. -/
def Along (condition : Action → State → Prop) : List Action → State → Prop
  | [], _ => True
  | action :: rest, state =>
      condition action state ∧ ∀ after, next action state = some after →
        Along condition rest after

theorem along_of_forall {condition : Action → State → Prop} {actions : List Action}
    (met : ∀ action ∈ actions, ∀ state, condition action state) (state : State) :
    Along next condition actions state := by
  induction actions generalizing state with
  | nil => trivial
  | cons action rest inductionHypothesis =>
      refine ⟨met action (List.mem_cons_self ..) state, fun after _ => ?_⟩
      exact inductionHypothesis (fun other mem => met other (List.mem_cons_of_mem _ mem)) after

/-- A condition on the steps and one on the actions alone. -/
theorem Along.and {condition : Action → State → Prop} {other : Action → Prop}
    {actions : List Action} {state : State} (along : Along next condition actions state)
    (met : ∀ action ∈ actions, other action) :
    Along next (fun action state => condition action state ∧ other action) actions state := by
  induction actions generalizing state with
  | nil => trivial
  | cons action rest inductionHypothesis =>
      refine ⟨⟨along.1, met action (List.mem_cons_self ..)⟩, fun after taken => ?_⟩
      exact inductionHypothesis (along.2 after taken)
        fun action mem => met action (List.mem_cons_of_mem _ mem)

theorem along_cons_iff {condition : Action → State → Prop} {action : Action} {rest : List Action}
    {state after : State} (taken : next action state = some after) :
    Along next condition (action :: rest) state ↔
      condition action state ∧ Along next condition rest after := by
  refine and_congr_right fun _ => ⟨fun others => others after taken, fun others => ?_⟩
  exact fun other isNext => Option.some.inj (taken.symm.trans isNext) ▸ others

theorem along_cons_iff_of_none {condition : Action → State → Prop} {action : Action}
    {rest : List Action} {state : State} (stuck : next action state = none) :
    Along next condition (action :: rest) state ↔ condition action state :=
  and_iff_left fun _ isNext => absurd (stuck.symm.trans isNext) (Option.some_ne_none _).symm

/-- The run decides. -/
instance decidableAlong {condition : Action → State → Prop}
    [∀ action state, Decidable (condition action state)] :
    ∀ (actions : List Action) (state : State), Decidable (Along next condition actions state)
  | [], _ => .isTrue trivial
  | action :: rest, state =>
      match taken : next action state with
      | none => decidable_of_iff _ (along_cons_iff_of_none next taken).symm
      | some after =>
          have : Decidable (Along next condition rest after) := decidableAlong rest after
          decidable_of_iff _ (along_cons_iff next taken).symm

variable {next} {invariant : State → Prop} {condition : Action → State → Prop}

/-- What every step that meets the condition preserves holds behind the run. -/
theorem run_invariant_along
    (step : ∀ action state after, invariant state → condition action state →
      next action state = some after → invariant after)
    {actions : List Action} {state final : State} (start : invariant state)
    (along : Along next condition actions state) (ran : run next actions state = some final) :
    invariant final := by
  induction actions generalizing state with
  | nil => exact Option.some.inj ran ▸ start
  | cons action rest inductionHypothesis =>
      obtain ⟨middle, taken, others⟩ := (run_cons_eq_some next).mp ran
      exact inductionHypothesis (step action state middle start along.1 taken)
        (along.2 middle taken) others

/-- What every step preserves holds behind every run. -/
theorem run_invariant
    (step : ∀ action state after, invariant state → next action state = some after →
      invariant after)
    {actions : List Action} {state final : State} (start : invariant state)
    (ran : run next actions state = some final) : invariant final := by
  induction actions generalizing state with
  | nil => exact Option.some.inj ran ▸ start
  | cons action rest inductionHypothesis =>
      obtain ⟨middle, taken, others⟩ := (run_cons_eq_some next).mp ran
      exact inductionHypothesis (step action state middle start taken) others

/-- If each step is a run of another system, so is every run. -/
theorem run_simulated_along {Move Detail : Type} {move : Move → Detail → Option Detail}
    {related : State → Detail → Prop}
    (step : ∀ action state after detail, related state detail → condition action state →
      next action state = some after → ∃ final, Reaches move detail final ∧ related after final)
    {actions : List Action} {state final : State} {detail : Detail} (start : related state detail)
    (along : Along next condition actions state) (ran : run next actions state = some final) :
    ∃ last, Reaches move detail last ∧ related final last := by
  induction actions generalizing state detail with
  | nil => exact ⟨detail, .refl move detail, Option.some.inj ran ▸ start⟩
  | cons action rest inductionHypothesis =>
      obtain ⟨after, taken, others⟩ := (run_cons_eq_some next).mp ran
      obtain ⟨middle, first, kept⟩ := step action state after detail start along.1 taken
      obtain ⟨last, second, related⟩ := inductionHypothesis kept (along.2 after taken) others
      exact ⟨last, first.trans move second, related⟩

end Transition
