import Mathlib.Data.List.Basic

/-!
# Incremental consumers

A `Machine` reads its input one symbol at a time and stops in a halted state.
A `Consumer` is handed its input in segments, reports how much of each segment
it used and is handed the rest again.  `Simulation` relates the two, and
`Simulation.feed` is the reason to have them: what a simulating consumer has
done after some segments depends on their concatenation only.
-/

namespace Incremental

universe u v w

/-- A reader of single symbols.  A `broken` state can never be left. -/
structure Machine (State : Type u) (Symbol : Type v) where
  step : State → Symbol → State
  halted : State → Bool
  broken : State → Bool
  broken_step : ∀ {state}, broken state = true → ∀ symbol, step state symbol = state
  broken_runs : ∀ {state}, broken state = true → halted state = false

namespace Machine

variable {State : Type u} {Symbol : Type v} (machine : Machine State Symbol)

def run (state : State) : List Symbol → State × List Symbol
  | [] => (state, [])
  | symbol :: rest =>
      if machine.halted state then (state, symbol :: rest)
      else run (machine.step state symbol) rest

@[simp]
theorem run_nil (state : State) : machine.run state [] = (state, []) := rfl

theorem run_cons {state : State} (running : machine.halted state = false)
    (symbol : Symbol) (rest : List Symbol) :
    machine.run state (symbol :: rest) = machine.run (machine.step state symbol) rest := by
  simp [run, running]

theorem run_halted {state : State} (halted : machine.halted state = true)
    (input : List Symbol) : machine.run state input = (state, input) := by
  cases input <;> simp [run, halted]

theorem run_broken {state : State} (broken : machine.broken state = true)
    (input : List Symbol) : machine.run state input = (state, []) := by
  induction input with
  | nil => rfl
  | cons symbol rest inductionHypothesis =>
      rw [run_cons _ (machine.broken_runs broken), machine.broken_step broken,
        inductionHypothesis]

/-- Input is left over only by a halted machine. -/
theorem halted_of_rest {state final : State} {input rest : List Symbol}
    (result : machine.run state input = (final, rest)) (left : rest ≠ []) :
    machine.halted final = true := by
  induction input generalizing state with
  | nil =>
      cases result
      exact absurd rfl left
  | cons symbol input inductionHypothesis =>
      by_cases halted : machine.halted state = true
      · rw [machine.run_halted halted] at result
        cases result
        exact halted
      · rw [run_cons _ (by simpa using halted)] at result
        exact inductionHypothesis result

theorem run_append (state : State) (first second : List Symbol) :
    machine.run state (first ++ second) =
      machine.run (machine.run state first).1 ((machine.run state first).2 ++ second) := by
  induction first generalizing state with
  | nil => rfl
  | cons symbol first inductionHypothesis =>
      by_cases halted : machine.halted state = true
      · rw [machine.run_halted halted (symbol :: first)]
      · have running : machine.halted state = false := by simpa using halted
        rw [List.cons_append, run_cons _ running, run_cons _ running, inductionHypothesis]

/-- The unread input is what is left behind the part that was read. -/
theorem run_read {state final : State} {input rest : List Symbol}
    (result : machine.run state input = (final, rest)) :
    ∃ read, input = read ++ rest ∧ machine.run state read = (final, []) := by
  induction input generalizing state with
  | nil =>
      cases result
      exact ⟨[], rfl, rfl⟩
  | cons symbol input inductionHypothesis =>
      by_cases halted : machine.halted state = true
      · rw [machine.run_halted halted] at result
        cases result
        exact ⟨[], rfl, rfl⟩
      · have running : machine.halted state = false := by simpa using halted
        rw [run_cons _ running] at result
        obtain ⟨read, split, reads⟩ := inductionHypothesis result
        exact ⟨symbol :: read, by rw [split, List.cons_append],
          by rw [run_cons _ running, reads]⟩

theorem run_take {state final : State} {input rest : List Symbol} {count : Nat}
    (result : machine.run state input = (final, rest))
    (counted : count + rest.length = input.length) :
    machine.run state (input.take count) = (final, []) := by
  obtain ⟨read, rfl, reads⟩ := machine.run_read result
  rw [List.length_append] at counted
  rw [List.take_left' (by omega)]
  exact reads

/-- A machine that has not halted reads at least one symbol. -/
theorem run_progress {state : State} {input : List Symbol}
    (running : machine.halted state = false) (nonempty : input ≠ []) :
    (machine.run state input).2.length < input.length := by
  cases input with
  | nil => exact absurd rfl nonempty
  | cons symbol rest =>
      rw [machine.run_cons running]
      obtain ⟨read, split, -⟩ := machine.run_read
        (show machine.run (machine.step state symbol) rest = (_, _) from rfl)
      have lengths := congrArg List.length split
      rw [List.length_append] at lengths
      rw [List.length_cons]
      omega

end Machine

/-- A reader of segments: `receive` reports how many symbols it consumed. -/
structure Consumer (State : Type u) (Symbol : Type v) where
  receive : State → List Symbol → State × Nat
  done : State → Bool

namespace Consumer

variable {State : Type u} {Symbol : Type v} (consumer : Consumer State Symbol)

/-- Hand over one segment, and the unconsumed tail again, until the consumer
is done or the segment is used up.  A call that consumes nothing ends it. -/
def feedSegment (state : State) (segment : List Symbol) : State × Nat :=
  if consumer.done state = true ∨ segment = [] then (state, 0)
  else
    let received := consumer.receive state segment
    if _progress : 0 < received.2 ∧ segment ≠ [] then
      let rest := feedSegment received.1 (segment.drop received.2)
      (rest.1, received.2 + rest.2)
    else received
termination_by segment.length
decreasing_by
  have positive : 0 < (consumer.receive state segment).2 := _progress.1
  have nonempty := List.length_pos_iff.mpr _progress.2
  rw [List.length_drop]
  omega

theorem feedSegment_stop {state : State} {segment : List Symbol}
    (stop : consumer.done state = true ∨ segment = []) :
    consumer.feedSegment state segment = (state, 0) := by
  rw [feedSegment, if_pos stop]

theorem feedSegment_step {state : State} {segment : List Symbol}
    (running : consumer.done state = false) (nonempty : segment ≠ [])
    (progress : 0 < (consumer.receive state segment).2) :
    consumer.feedSegment state segment =
      ((consumer.feedSegment (consumer.receive state segment).1
          (segment.drop (consumer.receive state segment).2)).1,
        (consumer.receive state segment).2 +
          (consumer.feedSegment (consumer.receive state segment).1
            (segment.drop (consumer.receive state segment).2)).2) := by
  rw [feedSegment, if_neg (by simp [running, nonempty])]
  simp only [progress, nonempty, ne_eq, not_false_eq_true, and_self, dif_pos]

theorem feedSegment_stuck {state : State} {segment : List Symbol}
    (running : consumer.done state = false) (nonempty : segment ≠ [])
    (stuck : ¬ 0 < (consumer.receive state segment).2) :
    consumer.feedSegment state segment = consumer.receive state segment := by
  rw [feedSegment, if_neg (by simp [running, nonempty])]
  simp only [stuck, false_and, dif_neg, not_false_eq_true]

def feed (state : State) : List (List Symbol) → State × Nat
  | [] => (state, 0)
  | segment :: rest =>
      let first := consumer.feedSegment state segment
      let second := feed first.1 rest
      (second.1, first.2 + second.2)

/-- The states that calls lead to, with the input that was used on the way. -/
inductive Passes (start : State) : List Symbol → State → Prop where
  | start : Passes start [] start
  | receive {used segment : List Symbol} {state : State} :
      Passes start used state → consumer.done state = false → segment ≠ [] →
      Passes start (used ++ segment.take (consumer.receive state segment).2)
        (consumer.receive state segment).1

theorem feedSegment_passes {start state : State} {used : List Symbol}
    (passes : consumer.Passes start used state) (segment : List Symbol) :
    ∃ after, consumer.Passes start after (consumer.feedSegment state segment).1 := by
  induction size : segment.length using Nat.strongRecOn generalizing segment state used with
  | _ length inductionHypothesis =>
      by_cases stop : consumer.done state = true ∨ segment = []
      · rw [consumer.feedSegment_stop stop]
        exact ⟨used, passes⟩
      obtain ⟨running, nonempty⟩ := not_or.mp stop
      rw [Bool.not_eq_true] at running
      have next := passes.receive running nonempty
      by_cases progress : 0 < (consumer.receive state segment).2
      · rw [consumer.feedSegment_step running nonempty progress]
        have positive := List.length_pos_iff.mpr nonempty
        exact inductionHypothesis _ (by rw [List.length_drop]; omega) next _ rfl
      · rw [consumer.feedSegment_stuck running nonempty progress]
        exact ⟨_, next⟩

theorem feed_passes {start state : State} {used : List Symbol}
    (passes : consumer.Passes start used state) (segments : List (List Symbol)) :
    ∃ after, consumer.Passes start after (consumer.feed state segments).1 := by
  induction segments generalizing state used with
  | nil => exact ⟨used, passes⟩
  | cons segment segments inductionHypothesis =>
      obtain ⟨after, next⟩ := consumer.feedSegment_passes passes segment
      exact inductionHypothesis next

/-- Two consumers do the same with every segment, or the first one stops. -/
structure SameUntil (first second : Consumer State Symbol) (Stopped : State → Prop) : Prop where
  done : ∀ state, first.done state = second.done state
  stopped : ∀ {state}, Stopped state → first.done state = true
  receive : ∀ {state}, first.done state = false → ∀ segment,
    first.receive state segment = second.receive state segment ∨
      Stopped (first.receive state segment).1

namespace SameUntil

variable {first second : Consumer State Symbol} {Stopped : State → Prop}
  (same : SameUntil first second Stopped)

include same

theorem feedSegment (state : State) (segment : List Symbol) :
    first.feedSegment state segment = second.feedSegment state segment ∨
      Stopped (first.feedSegment state segment).1 := by
  induction size : segment.length using Nat.strongRecOn generalizing segment state with
  | _ length inductionHypothesis =>
      by_cases stop : first.done state = true ∨ segment = []
      · rw [first.feedSegment_stop stop,
          second.feedSegment_stop (stop.imp_left (same.done state).symm.trans)]
        exact .inl rfl
      obtain ⟨running, nonempty⟩ := not_or.mp stop
      rw [Bool.not_eq_true] at running
      have running' : second.done state = false := (same.done state).symm.trans running
      have positive := List.length_pos_iff.mpr nonempty
      rcases same.receive running segment with equal | stopped
      · by_cases progress : 0 < (first.receive state segment).2
        · have progress' := progress
          rw [equal] at progress'
          rw [first.feedSegment_step running nonempty progress,
            second.feedSegment_step running' nonempty progress', ← equal]
          have shorter : (segment.drop (first.receive state segment).2).length < length := by
            rw [List.length_drop]
            omega
          rcases inductionHypothesis _ shorter (first.receive state segment).1 _ rfl with
            rest | stopped
          · exact .inl (by rw [rest])
          · exact .inr stopped
        · have stuck := progress
          rw [equal] at stuck
          rw [first.feedSegment_stuck running nonempty progress,
            second.feedSegment_stuck running' nonempty stuck]
          exact .inl equal
      · by_cases progress : 0 < (first.receive state segment).2
        · rw [first.feedSegment_step running nonempty progress,
            first.feedSegment_stop (.inl (same.stopped stopped))]
          exact .inr stopped
        · rw [first.feedSegment_stuck running nonempty progress]
          exact .inr stopped

theorem feed_stopped {state : State} (stopped : Stopped state) (segments : List (List Symbol)) :
    Stopped (first.feed state segments).1 := by
  induction segments with
  | nil => exact stopped
  | cons segment segments inductionHypothesis =>
      rw [Consumer.feed, first.feedSegment_stop (.inl (same.stopped stopped))]
      exact inductionHypothesis

/-- Fed with the same segments, they come to the same, or the first one stopped on the way. -/
theorem feed (state : State) (segments : List (List Symbol)) :
    first.feed state segments = second.feed state segments ∨
      Stopped (first.feed state segments).1 := by
  induction segments generalizing state with
  | nil => exact .inl rfl
  | cons segment segments inductionHypothesis =>
      rw [Consumer.feed, Consumer.feed]
      rcases same.feedSegment state segment with equal | stopped
      · rw [equal]
        rcases inductionHypothesis (second.feedSegment state segment).1 with rest | stopped
        · exact .inl (by rw [rest])
        · exact .inr stopped
      · exact .inr (same.feed_stopped stopped segments)

end SameUntil

/-- A verdict on a consumer and the input ahead of it, which no call changes. -/
structure Foretells (consumer : Consumer State Symbol) (Good : State → Prop)
    (Verdict : State → List Symbol → Prop) : Prop where
  done : ∀ {state}, consumer.done state = true → ∀ ahead, Verdict state ahead ↔ Verdict state []
  good : ∀ {state segment}, Good state → consumer.done state = false → segment ≠ [] →
    Good (consumer.receive state segment).1
  advances : ∀ {state segment}, Good state → consumer.done state = false → segment ≠ [] →
    consumer.done (consumer.receive state segment).1 = true ∨
      0 < (consumer.receive state segment).2
  receive : ∀ {state segment}, Good state → consumer.done state = false → segment ≠ [] →
    ∀ ahead, Verdict state (segment ++ ahead) ↔
      Verdict (consumer.receive state segment).1
        (segment.drop (consumer.receive state segment).2 ++ ahead)

namespace Foretells

variable {consumer : Consumer State Symbol} {Good : State → Prop}
  {Verdict : State → List Symbol → Prop} (foretells : consumer.Foretells Good Verdict)

include foretells

theorem feedSegment {state : State} (good : Good state) (segment : List Symbol) :
    Good (consumer.feedSegment state segment).1 ∧
      ∀ ahead, Verdict state (segment ++ ahead) ↔
        Verdict (consumer.feedSegment state segment).1 ahead := by
  induction size : segment.length using Nat.strongRecOn generalizing segment state with
  | _ length inductionHypothesis =>
      by_cases stop : consumer.done state = true ∨ segment = []
      · rw [consumer.feedSegment_stop stop]
        refine ⟨good, fun ahead => ?_⟩
        rcases stop with done | rfl
        · exact (foretells.done done _).trans (foretells.done done ahead).symm
        · exact Iff.rfl
      obtain ⟨running, nonempty⟩ := not_or.mp stop
      rw [Bool.not_eq_true] at running
      have positive := List.length_pos_iff.mpr nonempty
      have next := foretells.good good running nonempty
      have step := foretells.receive good running nonempty
      by_cases progress : 0 < (consumer.receive state segment).2
      · have shorter : (segment.drop (consumer.receive state segment).2).length < length := by
          rw [List.length_drop]
          omega
        obtain ⟨goodRest, rest⟩ := inductionHypothesis _ shorter next _ rfl
        rw [consumer.feedSegment_step running nonempty progress]
        exact ⟨goodRest, fun ahead => (step ahead).trans (rest ahead)⟩
      · have done := (foretells.advances good running nonempty).resolve_right progress
        rw [consumer.feedSegment_stuck running nonempty progress]
        refine ⟨next, fun ahead => ?_⟩
        exact (step ahead).trans ((foretells.done done _).trans (foretells.done done ahead).symm)

/-- The verdict on the whole input is the one that the consumer comes to. -/
theorem feed {state : State} (good : Good state) (segments : List (List Symbol)) :
    Good (consumer.feed state segments).1 ∧
      (Verdict state segments.flatten ↔ Verdict (consumer.feed state segments).1 []) := by
  induction segments generalizing state with
  | nil => exact ⟨good, Iff.rfl⟩
  | cons segment segments inductionHypothesis =>
      obtain ⟨goodNext, same⟩ := foretells.feedSegment good segment
      obtain ⟨goodRest, rest⟩ := inductionHypothesis goodNext
      exact ⟨goodRest, (same segments.flatten).trans rest⟩

end Foretells

end Consumer

/-- A consumer follows a machine: each call makes progress and takes the
machine through exactly the symbols it consumed.  Only a segment that breaks
the machine may be consumed in any other way. -/
structure Simulation {Concrete : Type w} {State : Type u} {Symbol : Type v}
    (consumer : Consumer Concrete Symbol) (machine : Machine State Symbol) where
  related : Concrete → State → Prop
  done_stops : ∀ {concrete state}, related concrete state → consumer.done concrete = true →
    machine.halted state = true ∨ machine.broken state = true
  receive : ∀ {concrete state segment}, related concrete state →
    consumer.done concrete = false → segment ≠ [] →
      ∃ next, related (consumer.receive concrete segment).1 next ∧
        (0 < (consumer.receive concrete segment).2 ∧
            (consumer.receive concrete segment).2 ≤ segment.length ∧
            machine.run state (segment.take (consumer.receive concrete segment).2) = (next, []) ∨
          machine.broken next = true ∧ (machine.run state segment).1 = next)

namespace Simulation

variable {Concrete : Type w} {State : Type u} {Symbol : Type v}
  {consumer : Consumer Concrete Symbol} {machine : Machine State Symbol}
  (simulation : Simulation consumer machine)

/-- What a run of the machine and a fed consumer have in common. -/
structure Agrees (concrete : Concrete) (consumed : Nat) (state : State)
    (input rest : List Symbol) : Prop where
  related : simulation.related concrete state
  consumed : machine.broken state = true ∨ consumed + rest.length = input.length

theorem feedSegment_agrees {concrete : Concrete} {state : State} (segment : List Symbol)
    (related : simulation.related concrete state) :
    simulation.Agrees (consumer.feedSegment concrete segment).1
      (consumer.feedSegment concrete segment).2
      (machine.run state segment).1 segment (machine.run state segment).2 := by
  induction size : segment.length using Nat.strongRecOn
    generalizing segment concrete state with
  | _ length inductionHypothesis =>
      by_cases done : consumer.done concrete = true
      · rcases simulation.done_stops related done with halted | broken
        · rw [consumer.feedSegment_stop (.inl done), machine.run_halted halted]
          exact ⟨related, .inr (by simp)⟩
        · rw [consumer.feedSegment_stop (.inl done), machine.run_broken broken]
          exact ⟨related, .inl broken⟩
      by_cases empty : segment = []
      · subst empty
        rw [consumer.feedSegment_stop (.inr rfl)]
        exact ⟨related, .inr rfl⟩
      have running : consumer.done concrete = false := by simpa using done
      obtain ⟨next, relatedNext, follows⟩ := simulation.receive related running empty
      by_cases progress : 0 < (consumer.receive concrete segment).2
      · have rest := inductionHypothesis
          (segment.drop (consumer.receive concrete segment).2).length
          (by have := List.length_pos_iff.mpr empty; rw [List.length_drop]; omega) _ relatedNext rfl
        rw [consumer.feedSegment_step running empty progress]
        rcases follows with ⟨-, bounded, runs⟩ | ⟨broken, runs⟩
        · have whole : machine.run state segment =
              machine.run next (segment.drop (consumer.receive concrete segment).2) := by
            conv_lhs => rw [← List.take_append_drop (consumer.receive concrete segment).2 segment]
            rw [machine.run_append, runs, List.nil_append]
          rw [whole]
          refine ⟨rest.related, rest.consumed.imp id fun counted => ?_⟩
          rw [List.length_drop] at counted
          omega
        · rw [machine.run_broken broken] at rest
          rw [runs]
          exact ⟨rest.related, .inl broken⟩
      · rcases follows with ⟨positive, -⟩ | ⟨broken, runs⟩
        · exact absurd positive progress
        · rw [consumer.feedSegment_stuck running empty progress, runs]
          exact ⟨relatedNext, .inl broken⟩

theorem feed_agrees {concrete : Concrete} {state : State} (segments : List (List Symbol))
    (related : simulation.related concrete state) :
    simulation.Agrees (consumer.feed concrete segments).1 (consumer.feed concrete segments).2
      (machine.run state segments.flatten).1 segments.flatten
      (machine.run state segments.flatten).2 := by
  induction segments generalizing concrete state with
  | nil => exact ⟨related, .inr rfl⟩
  | cons segment segments inductionHypothesis =>
      have first := simulation.feedSegment_agrees segment related
      have second := inductionHypothesis first.related
      have whole := machine.run_append state segment segments.flatten
      simp only [Consumer.feed, List.flatten_cons]
      by_cases left : (machine.run state segment).2 = []
      · rw [left, List.nil_append] at whole
        rw [whole]
        refine ⟨second.related, ?_⟩
        rcases first.consumed with broken | firstCount
        · rw [machine.run_broken broken] at second ⊢
          exact .inl broken
        · refine second.consumed.imp id fun secondCount => ?_
          rw [left, List.length_nil] at firstCount
          rw [List.length_append]
          omega
      · have halted := machine.halted_of_rest rfl left
        rw [machine.run_halted halted] at whole second
        rw [whole]
        refine ⟨second.related, ?_⟩
        refine second.consumed.imp id fun secondCount => ?_
        rcases first.consumed with broken | firstCount
        · rw [machine.broken_runs broken] at halted
          exact absurd halted (by simp)
        · simp only [List.length_append] at secondCount ⊢
          omega

theorem passes_agrees {start concrete : Concrete} {state : State} {used : List Symbol}
    (related : simulation.related start state) (passes : consumer.Passes start used concrete) :
    ∃ next, simulation.related concrete next ∧
      (machine.broken next = true ∨ machine.run state used = (next, [])) := by
  induction passes with
  | start => exact ⟨state, related, .inr rfl⟩
  | @receive used segment concrete _ running nonempty inductionHypothesis =>
      obtain ⟨before, relatedBefore, agrees⟩ := inductionHypothesis
      obtain ⟨next, relatedNext, follows⟩ := simulation.receive relatedBefore running nonempty
      refine ⟨next, relatedNext, ?_⟩
      rcases follows with ⟨-, -, runs⟩ | ⟨broken, -⟩
      · rcases agrees with broken | runsBefore
        · rw [machine.run_broken broken] at runs
          obtain ⟨rfl, -⟩ := Prod.mk.inj runs
          exact .inl broken
        · rw [machine.run_append, runsBefore]
          exact .inr runs
      · exact .inl broken

end Simulation

end Incremental
