import Waitress.Receiver.Decoder

/-!
# Message bodies as machines

Either receiver, whatever the segments, is a machine over the bytes of the
body: `Receiver.received_follows`.
-/

namespace Waitress

/-- Where in a body the next byte stands. -/
inductive Body where
  | fixed (remain : Nat) (content : Bytes)
  | chunked (state : Decoder)
  deriving DecidableEq, Repr

namespace Body

def step : Body → UInt8 → Body
  | .fixed remain content, x => .fixed (remain - 1) (content ++ [x])
  | .chunked state, x => .chunked (state.step x)

def isFinished : Body → Bool
  | .fixed remain _ => decide (remain = 0)
  | .chunked state => state.isFinished

def isBroken : Body → Bool
  | .fixed _ _ => false
  | .chunked state => state.isBroken

/-- The data received so far; of interest when the body is finished. -/
def content : Body → Bytes
  | .fixed _ content => content
  | .chunked (.finished out) => out
  | .chunked _ => []

end Body

def bodyMachine : Incremental.Machine Body UInt8 where
  step := Body.step
  halted := Body.isFinished
  broken := Body.isBroken
  broken_step := by
    intro state broken symbol
    cases state with
    | fixed remain content => exact absurd broken (by simp [Body.isBroken])
    | chunked state => exact congrArg Body.chunked (decoder.broken_step broken symbol)
  broken_runs := by
    intro state broken
    cases state with
    | fixed remain content => exact absurd broken (by simp [Body.isBroken])
    | chunked state => exact decoder.broken_runs broken

namespace Body

theorem run_fixed (remain : Nat) (content input : Bytes) :
    bodyMachine.run (.fixed remain content) input =
      (.fixed (remain - input.length) (content ++ input.take remain), input.drop remain) := by
  induction input generalizing remain content with
  | nil => simp
  | cons x input inductionHypothesis =>
      cases remain with
      | zero =>
          rw [bodyMachine.run_halted rfl]
          simp
      | succ remain =>
          rw [bodyMachine.run_cons rfl]
          change bodyMachine.run (.fixed remain (content ++ [x])) input = _
          rw [inductionHypothesis]
          simp

theorem run_chunked (state : Decoder) (input : Bytes) :
    bodyMachine.run (.chunked state) input =
      (.chunked (decoder.run state input).1, (decoder.run state input).2) := by
  induction input generalizing state with
  | nil => rfl
  | cons x input inductionHypothesis =>
      cases halted : state.isFinished with
      | true =>
          rw [decoder.run_halted halted,
            bodyMachine.run_halted (show bodyMachine.halted (.chunked state) = true from halted)]
      | false =>
          rw [decoder.run_cons halted,
            bodyMachine.run_cons (show bodyMachine.halted (.chunked state) = false from halted)]
          exact inductionHypothesis _

end Body

namespace Receiver

/-- The receiver's fields, by the state of the machine. -/
def Follows : Receiver → Body → Prop
  | .fixed rcv, .fixed remain content =>
      rcv.remain = remain ∧ rcv.completed = decide (remain = 0) ∧ rcv.buf.Holds content
  | .chunked rcv, .chunked state => rcv.Follows state
  | _, _ => False

def ReceiveFollows (rcv : Receiver) (state : Body) (segment : Bytes) : Prop :=
  ∃ next, (rcv.received segment).1.Follows next ∧
    (0 < (rcv.received segment).2 ∧ (rcv.received segment).2 ≤ segment.length ∧
        bodyMachine.run state (segment.take (rcv.received segment).2) = (next, []) ∨
      bodyMachine.broken next = true ∧ (bodyMachine.run state segment).1 = next)

theorem received_fixed {rcv : FixedStreamReceiver} {remain : Nat} {content segment : Bytes}
    (follows : Follows (.fixed rcv) (.fixed remain content)) (running : rcv.completed = false)
    (nonempty : segment ≠ []) : ReceiveFollows (.fixed rcv) (.fixed remain content) segment := by
  obtain ⟨given, buf, completed⟩ := rcv
  obtain ⟨same, done, holds⟩ := follows
  dsimp only at same done holds running
  subst same running
  have positive : 0 < given := by
    simpa [Nat.pos_iff_ne_zero] using done.symm
  have segmentPositive := List.length_pos_iff.mpr nonempty
  by_cases ends : given ≤ segment.length
  · have call : received (.fixed ⟨given, buf, false⟩) segment =
        (.fixed ⟨0, buf.append (segment.take given), true⟩, given) := by
      simp only [received, FixedStreamReceiver.received, show ¬ given < 1 by omega, if_false, ends,
        if_true]
    rw [ReceiveFollows, call]
    refine ⟨.fixed 0 (content ++ segment.take given), ⟨rfl, by simp, holds.append _⟩,
      .inl ⟨positive, ends, ?_⟩⟩
    rw [Body.run_fixed]
    simp [List.length_take, Nat.min_eq_left ends]
  · have call : received (.fixed ⟨given, buf, false⟩) segment =
        (.fixed ⟨given - segment.length, buf.append segment, false⟩, segment.length) := by
      simp only [received, FixedStreamReceiver.received, show ¬ given < 1 by omega, if_false, ends]
    rw [ReceiveFollows, call]
    refine ⟨.fixed (given - segment.length) (content ++ segment),
      ⟨rfl, by simp; omega, holds.append _⟩, .inl ⟨segmentPositive, Nat.le_refl _, ?_⟩⟩
    rw [Body.run_fixed, List.take_length, List.take_of_length_le (by omega),
      List.drop_of_length_le (by omega)]

theorem received_chunked {rcv : ChunkedReceiver} {state : Decoder} {segment : Bytes}
    (follows : rcv.Follows state) (running : rcv.completed = false) (nonempty : segment ≠ []) :
    ReceiveFollows (.chunked rcv) (.chunked state) segment := by
  obtain ⟨next, followsNext, exactly | ⟨broken, runs⟩⟩ :=
    ChunkedReceiver.simulation.receive follows running nonempty
  · refine ⟨.chunked next, followsNext, .inl ⟨exactly.1, exactly.2.1, ?_⟩⟩
    rw [Body.run_chunked]
    exact congrArg (fun result => (Body.chunked result.1, result.2)) exactly.2.2
  · refine ⟨.chunked next, followsNext, .inr ⟨broken, ?_⟩⟩
    rw [Body.run_chunked]
    exact congrArg Body.chunked runs

theorem received_follows {rcv : Receiver} {state : Body} {segment : Bytes}
    (follows : rcv.Follows state) (running : rcv.completed = false) (nonempty : segment ≠ []) :
    ReceiveFollows rcv state segment := by
  match rcv, state, follows with
  | .fixed rcv, .fixed remain content, follows => exact received_fixed follows running nonempty
  | .chunked rcv, .chunked state, follows => exact received_chunked follows running nonempty

theorem Follows.status {rcv : Receiver} {state : Body} (follows : rcv.Follows state) :
    (state.isBroken = true → rcv.error.isSome = true) ∧
      (state.isBroken = false → rcv.error = none ∧ rcv.completed = state.isFinished) := by
  match rcv, state, follows with
  | .fixed rcv, .fixed remain content, follows =>
      exact ⟨fun broken => absurd broken (by simp [Body.isBroken]), fun _ => ⟨rfl, follows.2.1⟩⟩
  | .chunked rcv, .chunked state, follows =>
      refine ⟨fun broken => ?_, fun unbroken => ?_⟩
      · cases state with
        | broken => exact follows
        | _ => exact absurd broken (by simp [Body.isBroken, Decoder.isBroken])
      · have different : state ≠ .broken := by
          rintro rfl
          exact absurd unbroken (by simp [Body.isBroken, Decoder.isBroken])
        exact ⟨follows.error_eq different, follows.completed_eq different⟩

theorem Follows.holds {rcv : Receiver} {state : Body} (follows : rcv.Follows state)
    (finished : state.isFinished = true) : rcv.getbuf.Holds state.content := by
  match rcv, state, follows with
  | .fixed rcv, .fixed remain content, follows => exact follows.2.2
  | .chunked rcv, .chunked (.finished out), follows => exact follows.2.2

end Receiver

end Waitress
