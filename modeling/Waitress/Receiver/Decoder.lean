import Waitress.Library.Incremental
import Waitress.Buffers.Fifo
import Waitress.Receiver

/-!
# The chunked decoder as a machine over single bytes

`decoder` reads a chunked message one byte at a time and keeps only what the
bytes so far mean.  `ChunkedReceiver.simulation` says that the receiver, which
works on segments with its saved pieces of lines, is that machine.
-/

namespace Waitress

/-- Where in a chunked message the next byte stands; `out` is the data so far. -/
inductive Decoder where
  | sizeLine (line out : Bytes)
  | data (remainder : Nat) (out : Bytes)
  | chunkEnd (seen out : Bytes)
  | trailer (text out : Bytes)
  | finished (out : Bytes)
  | broken
  deriving DecidableEq, Repr

namespace Decoder

/-- What a complete size line leads to; blank lines are skipped. -/
def lineEnd (line out : Bytes) : Decoder :=
  if line = [] then .sizeLine [] out
  else
    match ChunkedReceiver.chunkSize line with
    | .error _ => .broken
    | .ok 0 => .trailer [] out
    | .ok (sz + 1) => .data (sz + 1) out

def step : Decoder → UInt8 → Decoder
  | .sizeLine line out, x =>
      match Search.find crlf (line ++ [x]) with
      | none => .sizeLine (line ++ [x]) out
      | some pos => lineEnd ((line ++ [x]).take pos) out
  | .data remainder out, x =>
      if remainder ≤ 1 then .chunkEnd [] (out ++ [x]) else .data (remainder - 1) (out ++ [x])
  | .chunkEnd seen out, x =>
      if (seen ++ [x]).length < 2 then .chunkEnd (seen ++ [x]) out
      else if seen ++ [x] = crlf then .sizeLine [] out
      else .broken
  | .trailer text out, x =>
      if crlf.isPrefixOf (text ++ [x]) then .finished out
      else if (findDoubleNewline (text ++ [x])).isSome then .finished out
      else .trailer (text ++ [x]) out
  | .finished out, _ => .finished out
  | .broken, _ => .broken

def isFinished : Decoder → Bool
  | .finished _ => true
  | _ => false

def isBroken : Decoder → Bool
  | .broken => true
  | _ => false

end Decoder

def decoder : Incremental.Machine Decoder UInt8 where
  step := Decoder.step
  halted := Decoder.isFinished
  broken := Decoder.isBroken
  broken_step := by
    intro state broken symbol
    cases state <;> first | rfl | simp [Decoder.isBroken] at broken
  broken_runs := by
    intro state broken
    cases state <;> first | rfl | simp [Decoder.isBroken] at broken

namespace Decoder

theorem run_sizeLine {line : Bytes} (out s : Bytes) (open_ : Search.find crlf line = none) :
    decoder.run (.sizeLine line out) s =
      match Search.find crlf (line ++ s) with
      | none => (.sizeLine (line ++ s) out, [])
      | some pos => decoder.run (lineEnd ((line ++ s).take pos) out) ((line ++ s).drop (pos + 2)) := by
  induction s generalizing line with
  | nil => simp [open_]
  | cons x s inductionHypothesis =>
      have shape : line ++ x :: s = (line ++ [x]) ++ s := by simp
      rw [decoder.run_cons rfl]
      change decoder.run (step (.sizeLine line out) x) s = _
      rw [shape]
      cases found : Search.find crlf (line ++ [x]) with
      | none =>
          simp only [step, found]
          exact inductionHypothesis found
      | some pos =>
          have ends : (line ++ [x]).length = pos + 2 := by
            rw [List.length_append, List.length_singleton]
            exact (Search.find_snoc open_ found).symm
          have cut : (line ++ [x] ++ s).take pos = (line ++ [x]).take pos :=
            List.take_append_of_le_length (by omega)
          have rest : (line ++ [x] ++ s).drop (pos + 2) = s := List.drop_left' ends
          simp only [step, found, Search.find_append found, cut, rest]

theorem run_data {remainder : Nat} (out s : Bytes) (positive : 0 < remainder) :
    decoder.run (.data remainder out) s =
      if s.length < remainder then (.data (remainder - s.length) (out ++ s), [])
      else decoder.run (.chunkEnd [] (out ++ s.take remainder)) (s.drop remainder) := by
  induction s generalizing remainder out with
  | nil => simp [positive]
  | cons x s inductionHypothesis =>
      rw [decoder.run_cons rfl]
      change decoder.run (step (.data remainder out) x) s = _
      obtain ⟨before, rfl⟩ : ∃ before, remainder = before + 1 := ⟨remainder - 1, by omega⟩
      by_cases last : before = 0
      · subst last
        simp [step]
      · simp only [step, show ¬ before + 1 ≤ 1 by omega, if_false, Nat.add_sub_cancel]
        rw [inductionHypothesis (out ++ [x]) (by omega)]
        simp [List.append_assoc]

theorem run_trailer {text : Bytes} (out s : Bytes) (open_ : ¬ crlf <+: text)
    (fresh : findDoubleNewline text = none) :
    decoder.run (.trailer text out) s =
      if crlf.isPrefixOf (text ++ s) then (.finished out, (text ++ s).drop 2)
      else
        match findDoubleNewline (text ++ s) with
        | none => (.trailer (text ++ s) out, [])
        | some pos => (.finished out, (text ++ s).drop pos) := by
  induction s generalizing text with
  | nil => simp [fresh, open_, List.isPrefixOf_iff_prefix]
  | cons x s inductionHypothesis =>
      have shape : text ++ x :: s = (text ++ [x]) ++ s := by simp
      rw [decoder.run_cons rfl]
      change decoder.run (step (.trailer text out) x) s = _
      rw [shape]
      by_cases closed : crlf <+: text ++ [x]
      · have two : (text ++ [x]).length = 2 := by
          have fits := closed.length_le
          by_contra other
          apply open_
          refine List.prefix_of_prefix_length_le closed (List.prefix_append _ _) ?_
          simp only [crlf, List.length_append, List.length_cons, List.length_nil] at fits other ⊢
          omega
        have extended : crlf <+: text ++ [x] ++ s := closed.trans (List.prefix_append _ _)
        simp only [step, List.isPrefixOf_iff_prefix, closed, extended, if_true]
        rw [decoder.run_halted rfl, List.drop_left' two]
      · cases found : findDoubleNewline (text ++ [x]) with
        | none =>
            simp only [step, List.isPrefixOf_iff_prefix, closed, if_false, found,
              Option.isSome_none, Bool.false_eq_true]
            rw [inductionHypothesis closed found]
            simp only [List.isPrefixOf_iff_prefix]
        | some pos =>
            have last : (text ++ [x]).length = pos := by
              rw [List.length_append, List.length_singleton]
              exact (findDoubleNewline_snoc fresh found).symm
            have long := (findDoubleNewline_bounds found).1
            have extended : ¬ crlf <+: text ++ [x] ++ s := by
              intro starts
              apply closed
              refine List.prefix_of_prefix_length_le starts (List.prefix_append _ _) ?_
              simp only [crlf, List.length_cons, List.length_nil]
              omega
            simp only [step, List.isPrefixOf_iff_prefix, closed, extended, if_false, found,
              findDoubleNewline_append found, Option.isSome_some, if_true]
            rw [decoder.run_halted rfl, List.drop_left' last]

theorem run_chunkEnd {seen : Bytes} (out s : Bytes) (short : seen.length < 2) :
    decoder.run (.chunkEnd seen out) s =
      if (seen ++ s).length < 2 then (.chunkEnd (seen ++ s) out, [])
      else if crlf <+: seen ++ s then decoder.run (.sizeLine [] out) ((seen ++ s).drop 2)
      else (.broken, []) := by
  induction s generalizing seen with
  | nil => simp [short]
  | cons x s inductionHypothesis =>
      have shape : seen ++ x :: s = (seen ++ [x]) ++ s := by simp
      rw [decoder.run_cons rfl]
      change decoder.run (step (.chunkEnd seen out) x) s = _
      rw [shape]
      by_cases more : (seen ++ [x]).length < 2
      · simp only [step, more, if_true]
        exact inductionHypothesis more
      · have two : (seen ++ [x]).length = 2 := by
          rw [List.length_append, List.length_singleton] at more ⊢
          omega
        have full : ¬ (seen ++ [x] ++ s).length < 2 := by
          rw [List.length_append]
          omega
        by_cases closed : seen ++ [x] = crlf
        · have starts : crlf <+: seen ++ [x] ++ s := closed ▸ List.prefix_append _ _
          have next : step (.chunkEnd seen out) x = .sizeLine [] out := by
            rw [step, if_neg more, if_pos closed]
          rw [if_neg full, if_pos starts, List.drop_left' two, next]
        · have differs : ¬ crlf <+: seen ++ [x] ++ s := by
            intro starts
            have same := List.prefix_of_prefix_length_le starts (List.prefix_append (seen ++ [x]) s)
              (by rw [two]; rfl)
            exact closed (same.eq_of_length (by rw [two]; rfl)).symm
          simp only [step, more, full, closed, differs, if_false]
          exact decoder.run_broken rfl s

end Decoder

structure OverflowableBuffer.Holds (buffer : OverflowableBuffer) (content : Bytes) : Prop where
  valid : buffer.Valid
  pending : buffer.pending = content

theorem OverflowableBuffer.Holds.append {buffer : OverflowableBuffer} {content : Bytes}
    (holds : buffer.Holds content) (s : Bytes) : (buffer.append s).Holds (content ++ s) := by
  obtain ⟨valid, pending⟩ := buffer.append_spec holds.valid s
  exact ⟨valid, by rw [pending, holds.pending]⟩

namespace ChunkedReceiver

def Follows (rcv : ChunkedReceiver) : Decoder → Prop
  | .sizeLine line out =>
      Search.find crlf line = none ∧
        ∃ buf : OverflowableBuffer, buf.Holds out ∧ rcv = { buf, controlLine := line }
  | .data remainder out =>
      0 < remainder ∧
        ∃ buf : OverflowableBuffer, buf.Holds out ∧ rcv = { buf, chunkRemainder := remainder }
  | .chunkEnd seen out =>
      seen.length < 2 ∧
        ∃ buf : OverflowableBuffer, buf.Holds out ∧
          rcv = { buf, validateChunkEnd := true, chunkEnd := seen }
  | .trailer text out =>
      ¬ crlf <+: text ∧ findDoubleNewline text = none ∧
        ∃ buf : OverflowableBuffer, buf.Holds out ∧
          rcv = { buf, allChunksReceived := true, trailer := text }
  | .finished out => rcv.completed = true ∧ rcv.error = none ∧ rcv.buf.Holds out
  | .broken => rcv.error.isSome = true

theorem receivedLoop_error {rcv : ChunkedReceiver} (origSize : Nat) (s : Bytes)
    (error : rcv.error.isSome = true) :
    (receivedLoop rcv origSize s).1.error.isSome = true := by
  fun_induction receivedLoop rcv origSize s <;> simp_all

@[simp]
theorem receivedLoop_nil (rcv : ChunkedReceiver) (origSize : Nat) :
    receivedLoop rcv origSize [] = (rcv, origSize) := by
  rw [receivedLoop, if_pos rfl]

section Phases

variable (buf : OverflowableBuffer) (origSize : Nat) {s : Bytes} (nonempty : s ≠ [])

include nonempty

theorem receivedLoop_data {remainder : Nat} (positive : 0 < remainder) :
    receivedLoop { buf, chunkRemainder := remainder } origSize s =
      receivedLoop
        { buf := buf.append (s.take remainder)
          chunkRemainder := remainder - s.length
          validateChunkEnd := decide (remainder ≤ s.length) }
        origSize (s.drop remainder) := by
  rw [receivedLoop, if_neg nonempty, if_pos positive]
  have left : remainder - (s.take remainder).length = remainder - s.length := by
    rw [List.length_take]
    omega
  have rest : s.drop (s.take remainder).length = s.drop remainder := by
    rw [List.length_take]
    rcases Nat.le_total remainder s.length with inside | beyond
    · rw [Nat.min_eq_left inside]
    · rw [Nat.min_eq_right beyond, List.drop_length, List.drop_of_length_le beyond]
  simp only [left, rest, Bool.or_false, Nat.sub_eq_zero_iff_le]

theorem receivedLoop_chunkEnd (seen : Bytes) :
    receivedLoop { buf, validateChunkEnd := true, chunkEnd := seen } origSize s =
      if Search.find crlf (seen ++ s) = none ∧ (seen ++ s).length < 2 then
        ({ buf, validateChunkEnd := true, chunkEnd := seen ++ s }, origSize)
      else if Search.find crlf (seen ++ s) = some 0 then
        receivedLoop { buf } origSize ((seen ++ s).drop 2)
      else
        receivedLoop
          { buf
            error := some (.badRequest "Chunk not properly terminated".toList)
            allChunksReceived := true }
          origSize (seen ++ s) := by
  rw [receivedLoop, if_neg nonempty]
  simp only [gt_iff_lt, Nat.lt_irrefl, if_false, if_true]

theorem receivedLoop_sizeLine (line : Bytes) :
    receivedLoop { buf, controlLine := line } origSize s =
      match Search.find crlf (line ++ s) with
      | none => ({ buf, controlLine := line ++ s }, origSize)
      | some pos =>
          if (line ++ s).take pos = [] then
            receivedLoop { buf } origSize ((line ++ s).drop (pos + 2))
          else
            match chunkSize ((line ++ s).take pos) with
            | .error error => ({ buf, error := some error, allChunksReceived := true }, origSize)
            | .ok sz =>
                receivedLoop { buf, chunkRemainder := sz, allChunksReceived := decide (sz = 0) }
                  origSize ((line ++ s).drop (pos + 2)) := by
  rw [receivedLoop, if_neg nonempty, if_neg (Nat.lt_irrefl 0), if_neg Bool.false_ne_true]
  rfl

theorem receivedLoop_trailer (text : Bytes) :
    receivedLoop { buf, allChunksReceived := true, trailer := text } origSize s =
      if crlf.isPrefixOf (text ++ s) then
        ({ buf, allChunksReceived := true, trailer := text, completed := true },
          origSize - ((text ++ s).length - 2))
      else
        match findDoubleNewline (text ++ s) with
        | none => ({ buf, allChunksReceived := true, trailer := text ++ s }, origSize)
        | some pos =>
            ({ buf
               allChunksReceived := true
               trailer := (text ++ s).take pos
               completed := true },
              origSize - ((text ++ s).length - pos)) := by
  rw [receivedLoop, if_neg nonempty, if_neg (Nat.lt_irrefl 0)]
  rfl

end Phases

/-- The loop takes the receiver where the machine goes, and reports what the
machine left unread. -/
structure LoopFollows (rcv : ChunkedReceiver) (state : Decoder) (origSize : Nat) (s : Bytes) :
    Prop where
  follows : (receivedLoop rcv origSize s).1.Follows (decoder.run state s).1
  consumed : (decoder.run state s).1 = .broken ∨
    (receivedLoop rcv origSize s).2 + (decoder.run state s).2.length = origSize

theorem LoopFollows.of_broken {rcv : ChunkedReceiver} {state : Decoder} {origSize : Nat} {s : Bytes}
    (broken : (decoder.run state s).1 = .broken)
    (error : (receivedLoop rcv origSize s).1.error.isSome = true) :
    LoopFollows rcv state origSize s :=
  ⟨by rw [broken]; exact error, .inl broken⟩

theorem LoopFollows.step {rcv next : ChunkedReceiver} {state after : Decoder} {origSize : Nat}
    {s rest : Bytes} (loop : receivedLoop rcv origSize s = receivedLoop next origSize rest)
    (run : decoder.run state s = decoder.run after rest)
    (continues : LoopFollows next after origSize rest) : LoopFollows rcv state origSize s :=
  ⟨by rw [loop, run]; exact continues.follows, by rw [loop, run]; exact continues.consumed⟩

theorem follows_lineEnd {buf : OverflowableBuffer} {line out : Bytes} {sz : Nat}
    (holds : buf.Holds out) (nonblank : line ≠ []) (size : chunkSize line = .ok sz) :
    Follows { buf, chunkRemainder := sz, allChunksReceived := decide (sz = 0) }
      (Decoder.lineEnd line out) := by
  cases sz with
  | zero =>
      simp only [Decoder.lineEnd, nonblank, if_false, size]
      exact ⟨by simp [crlf], by decide, buf, holds, rfl⟩
  | succ sz =>
      simp only [Decoder.lineEnd, nonblank, if_false, size]
      exact ⟨Nat.succ_pos _, buf, holds, by simp⟩

theorem lineEnd_running {line out : Bytes} : (Decoder.lineEnd line out).isFinished = false := by
  unfold Decoder.lineEnd
  split
  · rfl
  · split <;> rfl

end ChunkedReceiver

def Decoder.carried : Decoder → Nat
  | .sizeLine line _ => line.length
  | .chunkEnd seen _ => seen.length
  | _ => 0

namespace ChunkedReceiver

/-- Induction on the bytes in hand, the remembered ones included: every round
that goes on has used up some of them. -/
theorem receivedLoop_follows {rcv : ChunkedReceiver} {state : Decoder} (origSize : Nat) (s : Bytes)
    (follows : rcv.Follows state) (running : state.isFinished = false)
    (fits : s.length ≤ origSize) : LoopFollows rcv state origSize s := by
  induction total : state.carried + s.length using Nat.strongRecOn
    generalizing rcv state s with
  | _ total inductionHypothesis =>
  subst total
  by_cases empty : s = []
  · subst empty
    exact ⟨by simpa using follows, .inr (by simp)⟩
  have positive := List.length_pos_iff.mpr empty
  cases state with
  | sizeLine line out =>
      obtain ⟨open_, buf, holds, rfl⟩ := follows
      have loop := receivedLoop_sizeLine buf origSize empty line
      have run := Decoder.run_sizeLine out s open_
      cases found : Search.find crlf (line ++ s) with
      | none =>
          simp only [found] at loop run
          exact ⟨by rw [loop, run]; exact ⟨found, buf, holds, rfl⟩, .inr (by rw [loop, run]; simp)⟩
      | some pos =>
          have late := Search.length_lt_of_find_append open_ found
          have inside := Search.find_add_length_le found
          simp only [found] at loop run
          simp only [crlf, List.length_append, List.length_cons, List.length_nil] at late inside
          have shorter : ((line ++ s).drop (pos + 2)).length < line.length + s.length ∧
              ((line ++ s).drop (pos + 2)).length ≤ s.length := by
            rw [List.length_drop, List.length_append]
            omega
          by_cases blank : (line ++ s).take pos = []
          · rw [if_pos blank] at loop
            rw [Decoder.lineEnd, if_pos blank] at run
            refine LoopFollows.step loop run (inductionHypothesis _ ?_ _ ?_ rfl (by omega) rfl)
            · simp only [Decoder.carried, List.length_nil]
              omega
            · exact ⟨by decide, buf, holds, rfl⟩
          · rw [if_neg blank] at loop
            cases size : chunkSize ((line ++ s).take pos) with
            | error error =>
                simp only [size] at loop
                simp only [Decoder.lineEnd, blank, if_false, size] at run
                rw [decoder.run_broken (show decoder.broken .broken = true from rfl)] at run
                exact .of_broken (by rw [run]) (by rw [loop]; rfl)
            | ok sz =>
                simp only [size] at loop
                refine LoopFollows.step loop run
                  (inductionHypothesis _ ?_ _ (follows_lineEnd holds blank size)
                    lineEnd_running (by omega) rfl)
                have carried : (Decoder.lineEnd ((line ++ s).take pos) out).carried = 0 := by
                  simp only [Decoder.lineEnd, blank, if_false, size]
                  split <;> rfl
                rw [carried]
                simp only [Decoder.carried]
                omega
  | data remainder out =>
      obtain ⟨more, buf, holds, rfl⟩ := follows
      have loop := receivedLoop_data buf origSize empty more
      have run := Decoder.run_data out s more
      by_cases short : s.length < remainder
      · rw [List.drop_of_length_le (by omega), receivedLoop_nil,
          List.take_of_length_le (by omega)] at loop
        rw [if_pos short] at run
        refine ⟨?_, .inr (by rw [loop, run]; simp)⟩
        rw [loop, run]
        exact ⟨by omega, _, holds.append s, by simp [show ¬ remainder ≤ s.length by omega]⟩
      · rw [if_neg short] at run
        refine LoopFollows.step loop run (inductionHypothesis _ ?_ _ ?_ rfl ?_ rfl)
        · simp only [Decoder.carried, List.length_nil, List.length_drop]
          omega
        · refine ⟨by simp, _, holds.append _, ?_⟩
          simp [show remainder - s.length = 0 by omega, show remainder ≤ s.length by omega]
        · rw [List.length_drop]
          omega
  | chunkEnd seen out =>
      obtain ⟨short, buf, holds, rfl⟩ := follows
      have loop := receivedLoop_chunkEnd buf origSize empty seen
      have run := Decoder.run_chunkEnd out s short
      by_cases waiting : (seen ++ s).length < 2
      · have absent : Search.find crlf (seen ++ s) = none := by
          cases found : Search.find crlf (seen ++ s) with
          | none => rfl
          | some pos =>
              have inside := Search.find_add_length_le found
              simp only [crlf, List.length_cons, List.length_nil] at inside
              omega
        rw [if_pos ⟨absent, waiting⟩] at loop
        rw [if_pos waiting] at run
        exact ⟨by rw [loop, run]; exact ⟨waiting, buf, holds, rfl⟩, .inr (by rw [loop, run]; simp)⟩
      · rw [if_neg (fun both => waiting both.2)] at loop
        rw [if_neg waiting] at run
        have starts : Search.find crlf (seen ++ s) = some 0 ↔ crlf <+: seen ++ s := by
          rw [Search.find_eq_some_iff]
          simp
        by_cases closed : crlf <+: seen ++ s
        · rw [if_pos (starts.mpr closed)] at loop
          rw [if_pos closed] at run
          have shorter : ((seen ++ s).drop 2).length < seen.length + s.length ∧
              ((seen ++ s).drop 2).length ≤ s.length := by
            rw [List.length_drop, List.length_append]
            omega
          refine LoopFollows.step loop run (inductionHypothesis _ ?_ _ ?_ rfl (by omega) rfl)
          · simp only [Decoder.carried, List.length_nil]
            omega
          · exact ⟨by decide, buf, holds, rfl⟩
        · rw [if_neg (fun found => closed (starts.mp found))] at loop
          rw [if_neg closed] at run
          exact .of_broken (by rw [run]) (by rw [loop]; exact receivedLoop_error _ _ rfl)
  | trailer text out =>
      obtain ⟨open_, fresh, buf, holds, rfl⟩ := follows
      have loop := receivedLoop_trailer buf origSize empty text
      have run := Decoder.run_trailer out s open_ fresh
      by_cases closed : crlf.isPrefixOf (text ++ s)
      · rw [if_pos closed] at loop run
        refine ⟨by rw [loop, run]; exact ⟨rfl, rfl, holds⟩, .inr ?_⟩
        have short : text.length < 2 := by
          by_contra long
          exact open_ (List.prefix_of_prefix_length_le (List.isPrefixOf_iff_prefix.mp closed)
            (List.prefix_append _ _) (by simp only [crlf, List.length_cons, List.length_nil]; omega))
        rw [loop, run]
        simp only [List.length_drop, List.length_append]
        omega
      · rw [if_neg closed] at loop run
        cases found : findDoubleNewline (text ++ s) with
        | none =>
            simp only [found] at loop run
            refine ⟨?_, .inr (by rw [loop, run]; simp)⟩
            rw [loop, run]
            exact ⟨by simpa [List.isPrefixOf_iff_prefix] using closed, found, buf, holds, rfl⟩
        | some pos =>
            simp only [found] at loop run
            refine ⟨by rw [loop, run]; exact ⟨rfl, rfl, holds⟩, .inr ?_⟩
            have late := findDoubleNewline_late fresh found
            rw [loop, run]
            simp only [List.length_drop, List.length_append]
            omega
  | finished out => simp [Decoder.isFinished] at running
  | broken =>
      have run := decoder.run_broken (show decoder.broken .broken = true from rfl) s
      exact .of_broken (by rw [run]) (receivedLoop_error _ _ follows)

def consumer : Incremental.Consumer ChunkedReceiver UInt8 where
  receive := received
  done := completed

theorem Follows.completed_eq {rcv : ChunkedReceiver} {state : Decoder} (follows : rcv.Follows state)
    (unbroken : state ≠ .broken) : rcv.completed = state.isFinished := by
  cases state with
  | sizeLine line out => obtain ⟨-, buf, -, rfl⟩ := follows; rfl
  | data remainder out => obtain ⟨-, buf, -, rfl⟩ := follows; rfl
  | chunkEnd seen out => obtain ⟨-, buf, -, rfl⟩ := follows; rfl
  | trailer text out => obtain ⟨-, -, buf, -, rfl⟩ := follows; rfl
  | finished out => exact follows.1
  | broken => exact absurd rfl unbroken

theorem Follows.error_eq {rcv : ChunkedReceiver} {state : Decoder} (follows : rcv.Follows state)
    (unbroken : state ≠ .broken) : rcv.error = none := by
  cases state with
  | sizeLine line out => obtain ⟨-, buf, -, rfl⟩ := follows; rfl
  | data remainder out => obtain ⟨-, buf, -, rfl⟩ := follows; rfl
  | chunkEnd seen out => obtain ⟨-, buf, -, rfl⟩ := follows; rfl
  | trailer text out => obtain ⟨-, -, buf, -, rfl⟩ := follows; rfl
  | finished out => exact follows.2.1
  | broken => exact absurd rfl unbroken

/-- The receiver is the machine `decoder`, working on segments. -/
def simulation : Incremental.Simulation consumer decoder where
  related := Follows
  done_stops := by
    intro rcv state follows done
    by_cases broken : state = .broken
    · subst broken
      exact .inr rfl
    · exact .inl ((follows.completed_eq broken).symm.trans done)
  receive := by
    intro rcv state segment follows running nonempty
    have call : consumer.receive rcv segment = receivedLoop rcv segment.length segment := by
      simp only [consumer, received, show rcv.completed = false from running,
        Bool.false_eq_true, if_false]
    rw [call]
    by_cases broken : state = .broken
    · subst broken
      have run := decoder.run_broken (show decoder.broken .broken = true from rfl) segment
      exact ⟨.broken, receivedLoop_error _ _ follows, .inr ⟨rfl, by rw [run]⟩⟩
    have unfinished : state.isFinished = false := (follows.completed_eq broken).symm.trans running
    have result := receivedLoop_follows segment.length segment follows unfinished (Nat.le_refl _)
    refine ⟨_, result.follows, ?_⟩
    rcases result.consumed with broke | counted
    · exact .inr ⟨by rw [broke]; rfl, rfl⟩
    · have progress := decoder.run_progress unfinished nonempty
      exact .inl ⟨by omega, by omega, decoder.run_take rfl counted⟩

def fresh (overflow : Int) : ChunkedReceiver := { buf := { overflow } }

theorem fresh_follows (overflow : Int) : (fresh overflow).Follows (.sizeLine [] []) :=
  ⟨by decide, _, ⟨OverflowableBuffer.fresh_valid overflow, rfl⟩, rfl⟩

/-- A fresh receiver is where the decoder is after the bytes it was fed. -/
theorem feed_follows (overflow : Int) (segments : List Bytes) {state : Decoder} {rest : Bytes}
    (run : decoder.run (.sizeLine [] []) segments.flatten = (state, rest)) :
    (consumer.feed (fresh overflow) segments).1.Follows state ∧
      (state.isBroken = true ∨
        (consumer.feed (fresh overflow) segments).2 + rest.length = segments.flatten.length) := by
  have agrees := simulation.feed_agrees segments
    (show simulation.related (fresh overflow) (.sizeLine [] []) from fresh_follows overflow)
  rw [run] at agrees
  exact ⟨agrees.related, agrees.consumed⟩

end ChunkedReceiver

end Waitress
