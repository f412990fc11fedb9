import Waitress.Channel.Draining
import Waitress.Channel.Exclusion

/-!
# The sections, step by step

A section under `outbuf_lock` is one step of the coarser system, and so is a flush
without the lock.  In the finer system each of them is a run in which one thread takes
all the steps.
-/

namespace Waitress

open Raising Transition

def Output.withoutAnswers (out : Output) : Output := { out with socket := [] }

namespace Interleaving.State

/-- The state with this output; the answers to a send come with the steps here. -/
def holding (out : Output) (state : State) : State :=
  { state with output := out.withoutAnswers }

def noticed (met : Bool) (state : State) : State :=
  if met = true then { state with worker := state.worker.notify } else state

def ended {Value : Type} : Except Exc Value → FlushOutcome
  | .ok _ => .returned
  | .error _ => .raised

variable (context : ChannelContext) (doClose : Bool)

/-! ### A flush -/

/-- What a thread does in `_flush_some` as long as no other thread takes a step. -/
inductive Flushes : FlushPosition → State → FlushOutcome → State → Prop
  | refl (position : FlushPosition) (state : State) :
      Flushes position state (.at position) state
  | step {answer : SendResult} {position next : FlushPosition} {state middle final : State}
      {outcome : FlushOutcome}
      (taken : flushStep context doClose answer position state = (.at next, middle))
      (others : Flushes next middle outcome final) : Flushes position state outcome final
  | last {answer : SendResult} {position : FlushPosition} {state final : State}
      {outcome : FlushOutcome}
      (taken : flushStep context doClose answer position state = (outcome, final)) :
      Flushes position state outcome final

variable {context doClose}

theorem Flushes.trans {position next : FlushPosition} {state middle final : State}
    {outcome : FlushOutcome} (first : Flushes context doClose position state (.at next) middle)
    (second : Flushes context doClose next middle outcome final) :
    Flushes context doClose position state outcome final := by
  generalize there : FlushOutcome.at next = result at first
  induction first with
  | refl position state =>
      cases there
      exact second
  | step taken others inductionHypothesis => exact .step taken (inductionHypothesis second there)
  | last taken =>
      subst there
      exact .step taken second

theorem holding_outbuf? (out : Output) (state : State) :
    (state.holding out).outbuf? state.dropped = out.outbufs.head? := by
  change (if state.dropped < state.dropped then none
    else out.outbufs[state.dropped - state.dropped]?) = _
  rw [if_neg (Nat.lt_irrefl _), Nat.sub_self, List.head?_eq_getElem?]

theorem flushStep_got (answer : SendResult) {out : Output} {outbuf : Outbuf} {rest : List Outbuf}
    {outbuflen : Int} (state : State) (more : ¬outbuflen ≤ 0)
    (outbufs : out.outbufs = outbuf :: rest) :
    flushStep context doClose answer (.looping state.dropped outbuflen) (state.holding out) =
      (.at (.got state.dropped outbuflen (outbuf.get context.sendbufLen)),
        state.holding out) := by
  rw [flushStep, if_pos (not_le.mp more), holding_outbuf?, outbufs]
  rfl

theorem flushStep_skip (answer : SendResult) {out : Output} {outbuf : Outbuf}
    {rest : List Outbuf} {outbuflen : Int} {numSent : Nat} {state : State}
    (outbufs : out.outbufs = outbuf :: rest)
    (skipped : (outbuf.skip numSent true).1 = .ok ()) :
    flushStep context doClose answer (.sent state.dropped outbuflen numSent)
        (state.holding out) =
      (.at (.looping state.dropped (outbuflen - numSent)),
        state.holding
          { out with
            outbufs := (outbuf.skip numSent true).2 :: rest
            totalOutbufsLen := out.totalOutbufsLen - numSent }) := by
  rw [flushStep, holding_outbuf?, outbufs]
  dsimp only [List.head?_cons]
  generalize outbuf.skip numSent true = result at skipped ⊢
  obtain ⟨result, left⟩ := result
  obtain rfl : result = .ok () := skipped
  change (FlushOutcome.at _, _) = (FlushOutcome.at _, _)
  dsimp only [holding]
  rw [Nat.sub_self, show out.withoutAnswers.outbufs = _ from outbufs]
  rfl

theorem flushStep_skip_error (answer : SendResult) {out : Output} {outbuf : Outbuf}
    {rest : List Outbuf} {outbuflen : Int} {numSent : Nat} {state : State} {exc : Exc}
    (outbufs : out.outbufs = outbuf :: rest)
    (skipped : (outbuf.skip numSent true).1 = .error exc) :
    flushStep context doClose answer (.sent state.dropped outbuflen numSent)
        (state.holding out) = (.raised, state.holding out) := by
  rw [flushStep, holding_outbuf?, outbufs]
  dsimp only [List.head?_cons]
  generalize outbuf.skip numSent true = result at skipped ⊢
  obtain ⟨result, left⟩ := result
  obtain rfl : result = .error exc := skipped
  rfl

/-- The sending of the first outbuf, which ends the flush unless all of it was sent. -/
def Sends (context : ChannelContext) (doClose : Bool) (socket : List SendResult)
    (outbuflen : Int) (out : Output) (state : State) : Sending × Output → Prop
  | (.emptied, after) =>
      (∃ left ≤ 0, Flushes context doClose (.looping state.dropped outbuflen) (state.holding out)
          (.at (.looping state.dropped left)) (state.holding after)) ∧
        after.outbufs.length = out.outbufs.length ∧
        ∃ used, socket = used ++ after.socket ∧ used.contains .disconnected = false
  | (.blocked, after) =>
      ∃ used, socket = used ++ after.socket ∧
        Flushes context doClose (.looping state.dropped outbuflen) (state.holding out) .returned
          ((state.holding after).noticed (doClose && used.contains .disconnected))
  | (.raised _, after) =>
      (∃ used, socket = used ++ after.socket ∧ used.contains .disconnected = false) ∧
        Flushes context doClose (.looping state.dropped outbuflen) (state.holding out) .raised
          (state.holding after)

theorem sendLoop_sends (socket : List SendResult) (outbuflen : Int) (out : Output)
    (state : State) :
    Sends context doClose socket outbuflen out state
      (sendLoop context doClose socket outbuflen out) := by
  fun_induction sendLoop context doClose socket outbuflen out with
  | case1 socket outbuflen out empty =>
      exact ⟨⟨outbuflen, empty, .refl _ _⟩, rfl, [], rfl, rfl⟩
  | case2 socket outbuflen out more none =>
      refine ⟨⟨[], rfl, rfl⟩, @Flushes.last _ _ .wouldBlock _ _ _ _ ?_⟩
      have found : (state.holding out).outbuf? state.dropped = .none :=
        (holding_outbuf? out state).trans (congrArg List.head? none)
      rw [flushStep, if_pos (not_le.mp more), found]
      rfl
  | case3 outbuflen out more outbuf rest outbufs =>
      refine ⟨[], rfl, .step (flushStep_got .wouldBlock state more outbufs) ?_⟩
      rw [List.contains_nil, Bool.and_false]
      exact @Flushes.last _ _ .wouldBlock _ _ _ _ rfl
  | case4 outbuflen out more outbuf rest outbufs answers =>
      refine ⟨[.wouldBlock], rfl, .step (flushStep_got .wouldBlock state more outbufs) ?_⟩
      rw [show [SendResult.wouldBlock].contains .disconnected = false from rfl, Bool.and_false]
      exact @Flushes.last _ _ .wouldBlock _ _ _ _ rfl
  | case5 outbuflen out more outbuf rest outbufs answers =>
      cases doClose with
      | false =>
          refine ⟨[.disconnected], rfl, .step (flushStep_got .wouldBlock state more outbufs) ?_⟩
          exact @Flushes.last _ _ .disconnected _ _ _ _ rfl
      | true =>
          refine ⟨[.disconnected], rfl, .step (flushStep_got .wouldBlock state more outbufs) ?_⟩
          refine @Flushes.step _ _ .disconnected _ .closing _ _ _ _ rfl ?_
          refine @Flushes.step _ _ .wouldBlock _ .closed _ _ _ _ rfl ?_
          exact @Flushes.last _ _ .wouldBlock _ _ _ _ rfl
  | case6 outbuflen out more outbuf rest outbufs exc answers =>
      refine ⟨⟨[.raises exc], rfl, rfl⟩,
        .step (flushStep_got .wouldBlock state more outbufs) ?_⟩
      exact @Flushes.last _ _ (.raises exc) _ _ _ _ rfl
  | case7 outbuflen out more outbuf rest outbufs n answers chunk numSent none =>
      refine ⟨[.sent n], rfl, .step (flushStep_got .wouldBlock state more outbufs) ?_⟩
      rw [show [SendResult.sent n].contains .disconnected = false from rfl, Bool.and_false]
      refine @Flushes.last _ _ (.sent n) _ _ _ _ ?_
      exact if_pos none
  | case8 outbuflen out more outbuf rest outbufs n answers chunk numSent some exc skipped =>
      let accepted : Output := { out with accepted := out.accepted ++ chunk.take numSent }
      have first : accepted.outbufs = outbuf :: rest := outbufs
      have skips : flushStep context doClose .wouldBlock
          (.sent state.dropped outbuflen numSent) (state.holding accepted) =
          (.raised, state.holding accepted) :=
        flushStep_skip_error .wouldBlock first skipped
      refine ⟨⟨[.sent n], rfl, rfl⟩, .step (flushStep_got .wouldBlock state more outbufs) ?_⟩
      exact @Flushes.step _ _ (.sent n) _ (.sent state.dropped outbuflen numSent) _ _ _ _
        (if_neg some) (.last skips)
  | case9 outbuflen out more outbuf rest outbufs n answers chunk numSent some skipped
      inductionHypothesis =>
      let accepted : Output := { out with accepted := out.accepted ++ chunk.take numSent }
      have first : accepted.outbufs = outbuf :: rest := outbufs
      have skips : flushStep context doClose .wouldBlock
          (.sent state.dropped outbuflen numSent) (state.holding accepted) =
          (.at (.looping state.dropped (outbuflen - numSent)),
            state.holding (out.progress outbuf rest chunk numSent)) :=
        flushStep_skip .wouldBlock first skipped
      have round : Flushes context doClose (.looping state.dropped outbuflen)
          (state.holding out) (.at (.looping state.dropped (outbuflen - numSent)))
          (state.holding (out.progress outbuf rest chunk numSent)) :=
        .step (flushStep_got .wouldBlock state more outbufs)
          (@Flushes.step _ _ (.sent n) _ (.sent state.dropped outbuflen numSent) _ _ _ _
            (if_neg some) (.last skips))
      generalize sendLoop context doClose answers (outbuflen - numSent)
        (out.progress outbuf rest chunk numSent) = outcome at inductionHypothesis ⊢
      obtain ⟨sending, after⟩ := outcome
      cases sending with
      | emptied =>
          obtain ⟨⟨left, least, others⟩, length, used, suffix, unmet⟩ := inductionHypothesis
          refine ⟨⟨left, least, round.trans others⟩, length.trans ?_, .sent n :: used,
            congrArg _ suffix, unmet⟩
          rw [outbufs]
          rfl
      | blocked =>
          obtain ⟨used, suffix, others⟩ := inductionHypothesis
          exact ⟨.sent n :: used, congrArg _ suffix, round.trans others⟩
      | raised exc =>
          obtain ⟨⟨used, suffix, unmet⟩, others⟩ := inductionHypothesis
          exact ⟨⟨.sent n :: used, congrArg _ suffix, unmet⟩, round.trans others⟩

/-- An operation that flushes is such a run, and uses these answers. -/
def FlushesTo {Value : Type} (context : ChannelContext) (doClose : Bool) (out : Output)
    (state : State) (result : Except Exc Value × Output) : Prop :=
  ∃ used dropped, out.socket = used ++ result.2.socket ∧
    Flushes context doClose .top (state.holding out) (ended result.1)
      (({ state with dropped }.holding result.2).noticed
        (doClose && used.contains .disconnected))

theorem flushLoop_flushes (count : Nat) (out : Output) (state : State)
    (length : out.outbufs.length = count) :
    FlushesTo context doClose out state (exec (flushLoop context doClose count) out) := by
  induction count generalizing out state with
  | zero =>
      refine ⟨[], state.dropped, rfl, @Flushes.last _ _ .wouldBlock _ _ _ _ ?_⟩
      have empty : (state.holding out).output.outbufs = [] := List.length_eq_zero_iff.mp length
      rw [flushStep, empty, List.contains_nil, Bool.and_false]
      rfl
  | succ count inductionHypothesis =>
      obtain ⟨outbuf, rest, outbufs⟩ := List.exists_cons_of_length_eq_add_one length
      have top : flushStep context doClose .wouldBlock .top (state.holding out) =
          (.at (.looping state.dropped outbuf.len), state.holding out) := by
        rw [flushStep, show (state.holding out).output.outbufs = outbuf :: rest from outbufs]
        rfl
      have sends := @sendLoop_sends context doClose out.socket outbuf.len out state
      have first : (out.outbufs.head?.map Outbuf.len).getD 0 = outbuf.len := by
        rw [outbufs]
        rfl
      rw [Output.exec_flushLoop_succ, first]
      generalize sendLoop context doClose out.socket outbuf.len out = outcome at sends ⊢
      obtain ⟨sending, after⟩ := outcome
      cases sending with
      | raised exc =>
          obtain ⟨⟨used, suffix, unmet⟩, raises⟩ := sends
          refine ⟨used, state.dropped, suffix, .step top ?_⟩
          rw [unmet, Bool.and_false]
          exact raises
      | blocked =>
          obtain ⟨used, suffix, blocks⟩ := sends
          exact ⟨used, state.dropped, suffix, .step top blocks⟩
      | emptied =>
          obtain ⟨⟨left, least, empties⟩, same, used, suffix, unmet⟩ := sends
          have sent := Flushes.step top empties
          have long : (state.holding after).output.outbufs.length = count + 1 :=
            same.trans length
          dsimp only
          split
          · next none =>
              refine ⟨used, state.dropped, suffix, sent.trans ?_⟩
              rw [unmet, Bool.and_false]
              refine @Flushes.last _ _ .wouldBlock _ _ _ _ ?_
              rw [flushStep, if_neg (not_lt.mpr least), long, if_neg (by omega)]
              rfl
          · next more =>
              have drops : flushStep context doClose .wouldBlock (.looping state.dropped left)
                  (state.holding after) =
                  (.at .top, { state with dropped := state.dropped + 1 }.holding
                    { after with outbufs := after.outbufs.tail }) := by
                rw [flushStep, if_neg (not_lt.mpr least), long, if_pos (by omega)]
                rfl
              obtain ⟨others, dropped, ends, flushes⟩ := inductionHypothesis
                { after with outbufs := after.outbufs.tail }
                { state with dropped := state.dropped + 1 }
                (by rw [List.length_tail, same, length, Nat.add_sub_cancel])
              refine ⟨used ++ others, dropped, ?_, sent.trans (.step drops ?_)⟩
              · rw [suffix, List.append_assoc]
                exact congrArg _ ends
              · rw [List.contains_append, unmet, Bool.false_or]
                exact flushes

theorem flushSome_flushes (out : Output) (state : State) :
    FlushesTo context doClose out state (exec (flushSome context doClose) out) := by
  have flushes := @flushLoop_flushes context doClose out.outbufs.length out state rfl
  rw [flushSome, exec_get_bind, exec_get_bind, exec_bind]
  generalize exec (flushLoop context doClose out.outbufs.length) out = outcome at flushes ⊢
  obtain ⟨exc | ⟨⟩, after⟩ := outcome
  · exact flushes
  · exact flushes

def caught (result : Except Exc (Bool × Bool)) : FlushOutcome :=
  match result with
  | .ok (_, false) => .returned
  | _ => .raised

/-- A flush, whose exceptions may be caught, from the output to the one behind it. -/
def Flushed (context : ChannelContext) (doClose catches : Bool) (state : State)
    (before : Output) (outcome : FlushOutcome) (after : Output) : Prop :=
  ∃ used dropped middle, before.socket = used ++ after.socket ∧
    Flushes context doClose .top (state.holding before) outcome middle ∧
    catchRaised outcome catches middle =
      ({ state with dropped }.holding after).noticed (doClose && used.contains .disconnected)

theorem flushSome_flushed (out : Output) (state : State) :
    Flushed context doClose false state out (ended (exec (flushSome context doClose) out).1)
      (exec (flushSome context doClose) out).2 := by
  obtain ⟨used, dropped, suffix, flushes⟩ := @flushSome_flushes context doClose out state
  exact ⟨used, dropped, _, suffix, flushes, if_neg (fun caught => Bool.noConfusion caught.2)⟩

theorem flushException_flushed (out : Output) (state : State) :
    Flushed context doClose true state out
      (caught (exec (flushException context doClose) out).1)
      (exec (flushException context doClose) out).2 := by
  have flushes := @flushSome_flushes context doClose out state
  rw [flushException, exec_tryCatch, exec_bind]
  generalize exec (flushSome context doClose) out = outcome at flushes ⊢
  obtain ⟨exc | flushed, after⟩ := outcome
  · obtain ⟨used, dropped, suffix, raises⟩ := flushes
    refine ⟨used, dropped, _, suffix, raises, ?_⟩
    cases doClose && used.contains .disconnected with
    | false => rfl
    | true => rfl
  · obtain ⟨used, dropped, suffix, returns⟩ := flushes
    exact ⟨used, dropped, _, suffix, returns, rfl⟩

/-- `send_continue` raises at once, or it flushes behind the line. -/
theorem sendContinueOutput_flushed (out : Output) (state : State) :
    (∃ exc after, exec appendContinue out = (.error exc, after) ∧
      exec (sendContinueOutput context) out = (.error exc, after) ∧
      after.socket = out.socket) ∨
    ∃ before, exec appendContinue out = (.ok (), before) ∧ before.socket = out.socket ∧
      Flushed context true false state before
        (ended (exec (sendContinueOutput context) out).1)
        (exec (sendContinueOutput context) out).2 := by
  have appends : (exec appendContinue out).2.socket = out.socket := by
    rw [appendContinue, exec_get_bind, exec_bind, exec_ofExcept]
    cases Output.appendLast continueLine out.outbufs <;> rfl
  rw [exec_sendContinueOutput, exec_bind]
  generalize exec appendContinue out = appended at appends
  obtain ⟨exc | ⟨⟩, before⟩ := appended
  · exact .inl ⟨exc, before, rfl, rfl, appends⟩
  · refine .inr ⟨before, rfl, appends, ?_⟩
    have flushed := @flushSome_flushed context true before state
    dsimp only
    rw [exec_bind]
    generalize exec (flushSome context true) before = outcome at flushed ⊢
    obtain ⟨exc | sent, after⟩ := outcome
    · exact flushed
    · exact flushed

theorem exec_appendContinue_withoutAnswers {out after : Output} {result : Except Exc Unit}
    (appended : exec appendContinue out = (result, after)) :
    exec appendContinue out.withoutAnswers = (result, after.withoutAnswers) := by
  rw [appendContinue, exec_get_bind, exec_bind, exec_ofExcept] at appended ⊢
  rw [show out.withoutAnswers.outbufs = out.outbufs from rfl]
  generalize Output.appendLast continueLine out.outbufs = filled at appended ⊢
  cases filled with
  | error exc =>
      cases appended
      rfl
  | ok outbufs =>
      cases appended
      rfl

theorem exec_appendPayload_withoutAnswers {data : Payload} {out after : Output}
    {result : Except Exc Unit} (appended : exec (appendPayload context data) out = (result, after)) :
    exec (appendPayload context data) out.withoutAnswers = (result, after.withoutAnswers) := by
  cases data with
  | bytes data =>
      have same : rotate context out.withoutAnswers = (rotate context out).withoutAnswers := by
        rw [rotate, rotate]
        change (if out.currentOutbufCount ≥ _ then _ else _) = _
        split <;> rfl
      rw [appendPayload, appendBytes, exec_modify_bind, exec_get_bind, exec_bind,
        exec_ofExcept] at appended ⊢
      rw [same, show (rotate context out).withoutAnswers.outbufs =
        (rotate context out).outbufs from rfl]
      generalize Output.appendLast data (rotate context out).outbufs = filled at appended ⊢
      cases filled with
      | error exc =>
          cases appended
          rfl
      | ok outbufs =>
          cases appended
          rfl
  | file data =>
      rw [appendPayload, appendFile] at appended ⊢
      split at appended
      · next negative =>
          rw [if_pos negative]
          cases appended
          rfl
      · next counted =>
          rw [if_neg counted]
          cases appended
          rfl

/-! ### The steps of a thread that flushes -/

/-- The positions of the threads do not matter for a step, but a waiter may be notified. -/
theorem flushStep_moved (doClose : Bool) (answer : SendResult) (position : FlushPosition)
    (state : State) (main : MainPosition) (worker : WorkerPosition) :
    flushStep context doClose answer position { state with main, worker } =
      ((flushStep context doClose answer position state).1,
        { (flushStep context doClose answer position state).2 with
          main
          worker := if position = .closing then worker.notify else worker }) := by
  have same : ∀ number, { state with main, worker }.outbuf? number = state.outbuf? number :=
    fun _ => rfl
  cases position with
  | top =>
      rw [flushStep, flushStep]
      dsimp only
      split <;> rfl
  | looping number outbuflen =>
      rw [flushStep, flushStep, same]
      split
      · cases state.outbuf? number <;> rfl
      · dsimp only
        split <;> rfl
  | got number outbuflen chunk =>
      cases answer with
      | sent n =>
          rw [flushStep, flushStep]
          split <;> rfl
      | _ => rfl
  | sent number outbuflen numSent =>
      rw [flushStep, flushStep, same]
      cases state.outbuf? number with
      | none => rfl
      | some outbuf =>
          dsimp only
          rcases outbuf.skip numSent true with ⟨exc | ⟨⟩, rest⟩
          · rfl
          · rfl
  | closing => rfl
  | closed => rfl

theorem flushStep_worker {answer : SendResult} {position : FlushPosition} {state after : State}
    {outcome : FlushOutcome}
    (stepped : flushStep context doClose answer position state = (outcome, after)) :
    (if position = .closing then state.worker.notify else state.worker) = after.worker := by
  have moved := @flushStep_moved context doClose answer position state state.main state.worker
  rw [stepped] at moved
  exact (congrArg (·.2.worker) moved).symm

theorem next_flushMain {answer : SendResult} {position : FlushPosition} {state after : State}
    {outcome : FlushOutcome} {main : MainPosition}
    (stepped : flushStep context true answer position state = (outcome, after))
    (free : state.worker.holdsOutbufs = false) (there : main.flush? = some position) :
    next context (.flushMain answer) { state with main } =
      some { catchRaised outcome main.catches after with main := main.afterFlush outcome } := by
  refine (next_eq_some context).mpr ⟨⟨Option.isSome_of_eq_some there, fun _ => free⟩, ?_⟩
  change flushMain context answer { state with main } = _
  have moved := @flushStep_moved context true answer position state main state.worker
  rw [stepped, flushStep_worker stepped] at moved
  rw [flushMain, show ({ state with main } : State).main.flush? = some position from there]
  dsimp only
  rw [moved]
  dsimp only
  rw [catchRaised, catchRaised]
  split <;> rfl

theorem Flushes.main {position : FlushPosition} {state final : State} {outcome : FlushOutcome}
    (flushes : Flushes context true position state outcome final)
    (free : state.worker.holdsOutbufs = false) {main : MainPosition}
    (there : main.flush? = some position) :
    Reaches (next context) { state with main }
      { catchRaised outcome main.catches final with main := main.afterFlush outcome } := by
  induction flushes generalizing main with
  | refl position state =>
      have same : main.afterFlush (.at position) = main := by
        cases main <;> cases there <;> rfl
      rw [same]
      exact .refl _ _
  | @step _ position next state middle final outcome stepped others inductionHypothesis =>
      have first := next_flushMain stepped free there
      have free : middle.worker.holdsOutbufs = false := by
        rw [← flushStep_worker stepped]
        split
        · exact (WorkerPosition.notify_alike _).holdsOutbufs.trans free
        · exact free
      have follows : (main.afterFlush (.at next)).flush? = some next :=
        MainPosition.flush_afterFlush (Option.isSome_of_eq_some there) _
      have same : (main.afterFlush (.at next)).catches = main.catches ∧
          (main.afterFlush (.at next)).afterFlush outcome = main.afterFlush outcome := by
        cases main <;> cases there <;> cases outcome <;> exact ⟨rfl, rfl⟩
      have rest := inductionHypothesis free follows
      rw [same.1, same.2] at rest
      exact (reaches_of_next _ first).trans _ rest
  | last stepped => exact reaches_of_next _ (next_flushMain stepped free there)

theorem next_flushWorker {answer : SendResult} {position : FlushPosition} {state after : State}
    {outcome : FlushOutcome} {worker : WorkerPosition}
    (stepped : flushStep context worker.doClose answer position state = (outcome, after))
    (there : worker.flush? = some position) :
    next context (.flushWorker answer) { state with worker } =
      some { catchRaised outcome worker.catches after with
        worker := worker.afterFlush outcome } := by
  refine (next_eq_some context).mpr ⟨Option.isSome_of_eq_some there, ?_⟩
  change flushWorker context answer { state with worker } = _
  have moved := @flushStep_moved context worker.doClose answer position state state.main worker
  have main : after.main = state.main := by
    have kept := flushStep_frame context worker.doClose answer position state
    rw [stepped] at kept
    exact kept.2.2.1
  rw [stepped] at moved
  rw [flushWorker, show ({ state with worker } : State).worker.flush? = some position from there]
  dsimp only
  rw [moved]
  dsimp only
  rw [catchRaised, catchRaised, ← main]
  split <;> rfl

theorem Flushes.worker {position : FlushPosition} {state final : State} {outcome : FlushOutcome}
    {worker : WorkerPosition}
    (flushes : Flushes context worker.doClose position state outcome final)
    (there : worker.flush? = some position) :
    Reaches (next context) { state with worker }
      { catchRaised outcome worker.catches final with worker := worker.afterFlush outcome } := by
  generalize closes : worker.doClose = doClose at flushes
  induction flushes generalizing worker with
  | refl position state =>
      have same : worker.afterFlush (.at position) = worker := by
        cases worker <;> cases there <;> rfl
      rw [same]
      exact .refl _ _
  | @step _ position next state middle final outcome stepped others inductionHypothesis =>
      subst closes
      have first := next_flushWorker stepped there
      have follows : (worker.afterFlush (.at next)).flush? = some next :=
        WorkerPosition.flush_afterFlush (Option.isSome_of_eq_some there) _
      have same : (worker.afterFlush (.at next)).catches = worker.catches ∧
          (worker.afterFlush (.at next)).doClose = worker.doClose ∧
          (worker.afterFlush (.at next)).afterFlush outcome = worker.afterFlush outcome := by
        cases worker <;> cases there <;> cases outcome <;> exact ⟨rfl, rfl, rfl⟩
      have rest := inductionHypothesis follows same.2.1
      rw [same.1, same.2.2] at rest
      exact (reaches_of_next _ first).trans _ rest
  | last stepped =>
      subst closes
      exact reaches_of_next _ (next_flushWorker stepped there)

theorem Flushed.main {main : MainPosition} {state : State} {before after : Output}
    {outcome : FlushOutcome}
    (flushed : Flushed context true main.catches state before outcome after)
    (free : state.worker.holdsOutbufs = false) (there : main.flush? = some .top) :
    ∃ used dropped, before.socket = used ++ after.socket ∧
      Reaches (next context) { state.holding before with main }
        { ({ state with dropped }.holding after).noticed (used.contains .disconnected) with
          main := main.afterFlush outcome } := by
  obtain ⟨used, dropped, middle, suffix, flushes, same⟩ := flushed
  have ran := flushes.main free there
  rw [same] at ran
  exact ⟨used, dropped, suffix, ran⟩

theorem Flushed.worker {worker : WorkerPosition} {state : State} {before after : Output}
    {outcome : FlushOutcome}
    (flushed : Flushed context worker.doClose worker.catches state before outcome after)
    (there : worker.flush? = some .top) :
    ∃ used dropped, before.socket = used ++ after.socket ∧
      Reaches (next context) { state.holding before with worker }
        { { state with dropped }.holding after with worker := worker.afterFlush outcome } := by
  obtain ⟨used, dropped, middle, suffix, flushes, same⟩ := flushed
  have ran := flushes.worker there
  rw [same, noticed] at ran
  refine ⟨used, dropped, suffix, ?_⟩
  split at ran
  · exact ran
  · exact ran

theorem reaches_of_perform {action : Action} {state after : State}
    (enabled : Enabled action state) (same : perform context action state = after) :
    Reaches (next context) state after :=
  reaches_of_next _ ((next_eq_some context).mpr ⟨enabled, same⟩)

end Interleaving.State

/-! ### The two systems -/

open Interleaving

def Worker.position : Worker → WorkerPosition
  | .outside => .outside
  | .serving => .serving
  | .writing data => .writing data
  | .waiting waiter raised notified => .waiting waiter raised notified
  | .closing => .closing
  | .keeping => .keeping
  | .draining => .belowLocking .service
  | .drained => .drained
  | .popped => .popped
  | .continuing => .continuing

def MainThread.position : MainThread → Interleaving.MainPosition
  | .idle => .idle
  | .receiving => .receiving
  | .choosing => .choosing
  | .flushing .flushSome => .flushing .top
  | .flushing .flushSomeIfLockable => .trying
  | .flushed => .flushed
  | .handingOver => .handingOver
  | .handedOver => .handedOver
  -- The closing of the socket is no step of its own there.
  | .closing true => .flushed
  | .closing false => .idle
  | .failing => .failing

@[simp]
theorem Worker.position_holdsOutbufs (worker : Worker) : worker.position.holdsOutbufs = false := by
  cases worker <;> rfl

@[simp]
theorem Worker.position_holdsRequests (worker : Worker) :
    worker.position.holdsRequests = worker.holdsRequests := by
  cases worker <;> rfl

@[simp]
theorem Worker.position_notify (worker : Worker) :
    worker.notify.position = worker.position.notify := by
  cases worker <;> rfl

@[simp]
theorem MainThread.position_holdsOutbufs (main : MainThread) :
    main.position.holdsOutbufs = false := by
  rcases main with _ | _ | _ | (_ | _) | _ | _ | _ | (_ | _) | _ <;> rfl

theorem MainThread.position_holdsRequests {main : MainThread} (other : main ≠ .receiving) :
    main.position.holdsRequests = false := by
  rcases main with _ | _ | _ | (_ | _) | _ | _ | _ | (_ | _) | _ <;>
    first | rfl | exact absurd rfl other

namespace Sharing

/-- The state of the finer system, where so many outbufs were dropped. -/
def detailed (state : Sharing) (dropped : Nat) : State where
  output := state.output.withoutAnswers
  dropped
  requests := state.requests
  pendingTasks := state.pendingTasks
  expects := state.expects
  main := state.main.position
  worker := state.worker.position

theorem metDisconnection_eq {before after : Output} {used : List SendResult}
    (suffix : before.socket = used ++ after.socket) :
    metDisconnection before after = used.contains .disconnected := by
  rw [metDisconnection, suffix, List.length_append, Nat.add_sub_cancel, List.take_left]

theorem answering_withoutAnswers (state : Sharing) :
    state.answering.withoutAnswers = state.output.withoutAnswers := by
  rw [answering]
  split <;> rfl

variable {context : ChannelContext}

/-! ### The steps of the main thread -/

theorem holding_answering (state : Sharing) (dropped : Nat) :
    (state.detailed dropped).holding state.answering = state.detailed dropped := by
  rw [State.holding, answering_withoutAnswers]
  rfl

theorem detailed_noteClosed (state : Sharing) (dropped : Nat) :
    (noteClosed state).detailed dropped = (state.detailed dropped).noticed true := by
  change { state.detailed dropped with worker := state.worker.notify.position } = _
  rw [Worker.position_notify]
  rfl

theorem detailed_runClosing {Value : Type} (action : OutputM Value) (state : Sharing)
    {used : List SendResult}
    (suffix : state.answering.socket = used ++ (exec action state.answering).2.socket)
    (dropped : Nat) :
    (runClosing action state).detailed dropped =
      ((state.detailed dropped).holding (exec action state.answering).2).noticed
        (used.contains .disconnected) := by
  rw [runClosing, metDisconnection_eq suffix]
  cases used.contains .disconnected with
  | false => rfl
  | true => exact detailed_noteClosed _ _

theorem flushMain_detailed {Value : Type} {action : OutputM Value} {state : Sharing}
    {before : Output} {outcome : FlushOutcome} {main : Interleaving.MainPosition} {dropped : Nat}
    (flushed : State.Flushed context true main.catches (state.detailed dropped) before outcome
      (exec action state.answering).2)
    (socket : before.socket = state.answering.socket) (there : main.flush? = some .top) :
    ∃ count, Reaches (State.next context)
      { (state.detailed dropped).holding before with main }
      { (runClosing action state).detailed count with main := main.afterFlush outcome } := by
  obtain ⟨used, count, suffix, ran⟩ := flushed.main (Worker.position_holdsOutbufs _) there
  refine ⟨count, ?_⟩
  rw [detailed_runClosing action state (socket.symm.trans suffix) count]
  exact ran

theorem flushWorker_detailed {state : Sharing} {before after : Output} {outcome : FlushOutcome}
    {worker : WorkerPosition} {dropped : Nat}
    (flushed : State.Flushed context worker.doClose worker.catches (state.detailed dropped) before
      outcome after)
    (there : worker.flush? = some .top) :
    ∃ count, Reaches (State.next context)
      { (state.detailed dropped).holding before with worker }
      { { state with output := after }.detailed count with
        worker := worker.afterFlush outcome } := by
  obtain ⟨used, count, -, ran⟩ := flushed.worker there
  exact ⟨count, ran⟩

/-! ### The steps of the main thread -/

theorem flushSome_detailed {state : Sharing} (flushing : state.main = .flushing .flushSome)
    (dropped : Nat) :
    ∃ count, Reaches (State.next context) (state.detailed dropped)
      ((flushSome context state).detailed count) := by
  have flushed := @State.flushException_flushed context true state.answering
    (state.detailed dropped)
  obtain ⟨used, count, suffix, ran⟩ := @State.Flushed.main context (.flushing .top) _ _ _ _
    flushed (Worker.position_holdsOutbufs _) rfl
  have there : Interleaving.MainPosition.flushing .top = (state.detailed dropped).main :=
    (congrArg MainThread.position flushing).symm
  have behind : ∀ result, Interleaving.MainPosition.afterFlush (State.caught result)
      (.flushing .top) = .flushed := by
    rintro (exc | ⟨flushed, _ | _⟩) <;> rfl
  rw [holding_answering, behind, there] at ran
  refine ⟨count, ?_⟩
  rw [flushSome, metDisconnection_eq suffix]
  cases met : used.contains .disconnected with
  | false =>
      rw [met] at ran
      exact ran
  | true =>
      rw [met] at ran
      rw [if_pos rfl, detailed_noteClosed]
      exact ran

theorem flushSomeIfLockable_detailed {state : Sharing}
    (flushing : state.main = .flushing .flushSomeIfLockable) (dropped : Nat) :
    ∃ count, Reaches (State.next context) (state.detailed dropped)
      ((flushSomeIfLockable context true state).detailed count) := by
  have start : (state.detailed dropped).main = .trying := congrArg MainThread.position flushing
  have locks : Reaches (State.next context) (state.detailed dropped)
      { state.detailed dropped with main := .lockableFlushing .top } := by
    refine @State.reaches_of_perform context .tryLock _ _ start ?_
    change ({ state.detailed dropped with main := _ } : State) = _
    rw [show (state.detailed dropped).worker.holdsOutbufs = false from
      Worker.position_holdsOutbufs _]
    rfl
  obtain ⟨count, ran⟩ := @flushMain_detailed context _ _ state _ _ (.lockableFlushing .top) _
    (@State.flushException_flushed context true state.answering (state.detailed dropped)) rfl rfl
  rw [holding_answering] at ran
  refine ⟨count, (locks.trans _ ran).trans _ ?_⟩
  rw [flushSomeIfLockable, if_neg Bool.noConfusion]
  have unlocks : ∀ after : State, after.main = .lockableUnlocking →
      Reaches (State.next context) after { after with main := .flushed } :=
    fun after there => @State.reaches_of_perform context .unlockLockable _ _ there rfl
  generalize (exec (flushException context true) state.answering).1 = result
  generalize runClosing (flushException context true) state = after
  rcases result with exc | ⟨flushed, _ | _⟩
  · exact unlocks { after.detailed count with main := .lockableUnlocking } rfl
  · have notifies : Reaches (State.next context)
        { after.detailed count with main := .notifying }
        (State.notifyIfBelow context { after.detailed count with main := .notifying }) :=
      @State.reaches_of_perform context .notifyIfBelow _ _ rfl rfl
    have same : { State.notifyIfBelow context
        { after.detailed count with main := .notifying } with main := .flushed } =
        (notifyIfBelow context { after with main := .flushed }).detailed count := by
      rw [State.notifyIfBelow, notifyIfBelow]
      change ({ after.detailed count with
        main := .flushed, worker := if after.output.totalOutbufsLen < _ then _ else _ } : State) = _
      split
      · change _ = { after.detailed count with
          main := .flushed, worker := after.worker.notify.position }
        rw [Worker.position_notify]
        rfl
      · rfl
    have unlocked := unlocks _ (show (State.notifyIfBelow context
      { after.detailed count with main := .notifying }).main = .lockableUnlocking from rfl)
    rw [same] at unlocked
    exact notifies.trans _ unlocked
  · exact unlocks { after.detailed count with main := .lockableUnlocking } rfl

theorem announce_detailed {state : Sharing} (receiving : state.main = .receiving)
    (none : state.requests = 0) (waits : state.waitsForContinue = true) (dropped : Nat) :
    ∃ count, Reaches (State.next context) (state.detailed dropped)
      ((sendContinue context id (fun state => { state with main := .failing }) state).detailed
        count) := by
  have start : (state.detailed dropped).main = .receiving :=
    congrArg MainThread.position receiving
  let announced : State := { { state with expects := false }.detailed dropped with
    main := .announceLocked }
  have locks : Reaches (State.next context) (state.detailed dropped) announced := by
    refine (@State.reaches_of_perform context .announce _ _ ⟨start, none, waits⟩ rfl).trans _ ?_
    exact @State.reaches_of_perform context .lockAnnounce _ _
      ⟨rfl, Worker.position_holdsOutbufs _⟩ rfl
  have unlocks : ∀ (after : Sharing) (raised : Bool) (count : Nat), after.main = .receiving →
      Reaches (State.next context) { after.detailed count with main := .announceUnlocking raised }
        ((if raised = true then { after with main := .failing } else after).detailed count) := by
    intro after raised count there
    have unlocked := @State.reaches_of_perform context (.unlockAnnounce raised)
      { after.detailed count with main := .announceUnlocking raised } _ rfl rfl
    refine unlocked.trans _ ?_
    cases raised with
    | true => exact @State.reaches_of_perform context (.unlockReading true) _ _ rfl rfl
    | false =>
        have same : after.detailed count = { after.detailed count with main := .receiving } := by
          rw [← show (after.detailed count).main = .receiving from
            congrArg MainThread.position there]
        rw [if_neg Bool.noConfusion, same]
        exact .refl _ _
  have output : announced.output = state.answering.withoutAnswers :=
    (answering_withoutAnswers state).symm
  have stays : (runClosing (sendContinueOutput context)
      { state with expects := false }).main = .receiving :=
    (runClosing_main _ _).trans receiving
  rw [sendContinue]
  rcases @State.sendContinueOutput_flushed context state.answering
    ({ state with expects := false }.detailed dropped) with
    ⟨exc, after, appended, raises, socket⟩ | ⟨before, appended, socket, flushed⟩
  · have appends : Reaches (State.next context) announced
        { announced with output := after.withoutAnswers, main := .announceUnlocking true } := by
      refine @State.reaches_of_perform context .appendAnnounce _ _ rfl ?_
      change State.appendAnnounce announced = _
      rw [State.appendAnnounce, output, State.exec_appendContinue_withoutAnswers appended]
    have closing := @detailed_runClosing _ (sendContinueOutput context)
      { state with expects := false } [] (by
        change state.answering.socket = (exec (sendContinueOutput context) state.answering).2.socket
        rw [raises]
        exact socket.symm) dropped
    have final : (exec (sendContinueOutput context)
        { state with expects := false }.answering).2 = after := congrArg Prod.snd raises
    have unlocked := unlocks _ true dropped stays
    rw [closing, final] at unlocked
    refine ⟨dropped, (locks.trans _ appends).trans _ ?_⟩
    rw [raises]
    exact unlocked
  · have appends : Reaches (State.next context) announced
        { announced with output := before.withoutAnswers, main := .announceFlushing .top } := by
      refine @State.reaches_of_perform context .appendAnnounce _ _ rfl ?_
      change State.appendAnnounce announced = _
      rw [State.appendAnnounce, output, State.exec_appendContinue_withoutAnswers appended]
    obtain ⟨count, ran⟩ := @flushMain_detailed context _ (sendContinueOutput context)
      { state with expects := false } before _ (.announceFlushing .top) dropped flushed socket rfl
    refine ⟨count, ((locks.trans _ appends).trans _ ran).trans _ ?_⟩
    generalize (exec (sendContinueOutput context) state.answering).1 = result
    have behind := fun raised => unlocks _ raised count stays
    cases result with
    | ok value => exact behind false
    | error exc => exact behind true

/-! ### The steps of the worker -/

theorem sendContinue_detailed {state : Sharing} (continuing : state.worker = .continuing)
    (dropped : Nat) :
    ∃ count, Reaches (State.next context) (state.detailed dropped)
      ((sendContinue context (fun state => { state with worker := .outside })
        (fun state => { state with worker := .outside }) state).detailed count) := by
  let sent : Sharing :=
    { state with
      expects := false
      output := (exec (sendContinueOutput context) state.answering).2 }
  have returns : ∀ count,
      (sendContinue context (fun state => { state with worker := .outside })
        (fun state => { state with worker := .outside }) state).detailed count =
        { sent.detailed count with worker := .outside } := by
    intro count
    rw [sendContinue, runClosing]
    cases (exec (sendContinueOutput context) state.answering).1 with
    | ok value =>
        dsimp only
        split <;> rfl
    | error exc =>
        dsimp only
        split <;> rfl
  have start : (state.detailed dropped).worker = .continuing :=
    congrArg Worker.position continuing
  let locked : State := { state.detailed dropped with worker := .continueLocked }
  have locks : Reaches (State.next context) (state.detailed dropped) locked :=
    @State.reaches_of_perform context .lockContinue _ _
      ⟨start, MainThread.position_holdsOutbufs _⟩ rfl
  have leaves : ∀ count, Reaches (State.next context)
      { sent.detailed count with worker := .continueUnlocking }
      { sent.detailed count with worker := .outside } := by
    intro count
    have unlocks := @State.reaches_of_perform context .unlockContinue
      { sent.detailed count with worker := .continueUnlocking } _ rfl rfl
    exact unlocks.trans _ (@State.reaches_of_perform context .leave _ _ rfl rfl)
  have output : locked.output = state.answering.withoutAnswers :=
    (answering_withoutAnswers state).symm
  have appends : ∀ after, State.appendContinuing locked = after →
      Reaches (State.next context) locked after :=
    fun after same => @State.reaches_of_perform context .appendContinue _ _ rfl same
  rcases @State.sendContinueOutput_flushed context state.answering
    ({ state with expects := false }.detailed dropped) with
    ⟨exc, after, appended, raises, -⟩ | ⟨before, appended, -, flushed⟩
  · have final : (exec (sendContinueOutput context) state.answering).2 = after :=
      congrArg Prod.snd raises
    have queued : State.appendContinuing locked =
        { sent.detailed dropped with worker := .continueUnlocking } := by
      dsimp only [sent]
      rw [State.appendContinuing, output, State.exec_appendContinue_withoutAnswers appended,
        final]
      rfl
    refine ⟨dropped, (locks.trans _ (appends _ queued)).trans _ ?_⟩
    rw [returns]
    exact leaves dropped
  · have queued : State.appendContinuing locked =
        { ({ state with expects := false }.detailed dropped).holding before with
          worker := .continueFlushing .top } := by
      rw [State.appendContinuing, output, State.exec_appendContinue_withoutAnswers appended]
      rfl
    obtain ⟨count, ran⟩ := @flushWorker_detailed context { state with expects := false } before
      _ _ (.continueFlushing .top) dropped flushed rfl
    have behind : ∀ result : Except Exc Unit, WorkerPosition.afterFlush (State.ended result)
        (.continueFlushing .top) = .continueUnlocking := by
      rintro (exc | ⟨⟩) <;> rfl
    rw [behind] at ran
    refine ⟨count, ((locks.trans _ (appends _ queued)).trans _ ran).trans _ ?_⟩
    rw [returns]
    exact leaves count

theorem append_detailed (data : Payload) (state : Sharing) (dropped : Nat) :
    ∃ count, Reaches (State.next context)
      { state.detailed dropped with worker := .appending data }
      ((append context data state).detailed count) := by
  let start : State := { state.detailed dropped with worker := .appending data }
  have output : start.output = state.answering.withoutAnswers :=
    (answering_withoutAnswers state).symm
  have appends : ∀ after, State.append context data start = after →
      Reaches (State.next context) start after :=
    fun after same => @State.reaches_of_perform context (.append data) _ _ rfl same
  have unlocks : ∀ (output : Output) (count : Nat), Reaches (State.next context)
      { { state with output }.detailed count with worker := .writeUnlocking }
      { { state with output }.detailed count with worker := .serving } :=
    fun output count => @State.reaches_of_perform context .unlockWriting _ _ rfl rfl
  suffices ∃ count, Reaches (State.next context) start
      { { state with output := (exec (appendSoon context data) state.answering).2 }.detailed
        count with worker := .serving } from this
  have connected : state.answering.connected = state.output.connected :=
    (congrArg (·.connected) output).symm
  rw [appendSoon, exec_get_bind, connected]
  split
  · next lost =>
      refine ⟨dropped, (appends _ ?_).trans _ (unlocks state.answering dropped)⟩
      rw [State.append, if_pos (show start.output.connected = false from lost), output]
      rfl
  · next open_ =>
      rw [exec_bind]
      generalize appended : exec (appendPayload context data) state.answering = result
      have same := State.exec_appendPayload_withoutAnswers appended
      rw [← output] at same
      have stays : ¬start.output.connected = false := open_
      obtain ⟨exc | ⟨⟩, after⟩ := result
      · refine ⟨dropped, (appends _ ?_).trans _ (unlocks after dropped)⟩
        rw [State.append, if_neg stays, same]
        rfl
      · have queued : State.append context data start =
            { (state.detailed dropped).holding after with
              worker :=
                if after.totalOutbufsLen ≥ context.adj.sendBytes then .writeFlushing .top
                else .writeUnlocking } := by
          rw [State.append, if_neg stays, same]
          rfl
        have reached := appends _ queued
        dsimp only
        rw [exec_get_bind]
        split
        · next much =>
            rw [if_pos much] at reached
            obtain ⟨count, ran⟩ := @flushWorker_detailed context state _ _ _
              (.writeFlushing .top) dropped
              (@State.flushException_flushed context false after (state.detailed dropped)) rfl
            have behind : ∀ result, WorkerPosition.afterFlush (State.caught result)
                (.writeFlushing .top) = .writeUnlocking := by
              rintro (exc | ⟨flushed, _ | _⟩) <;> rfl
            rw [behind] at ran
            refine ⟨count, ((reached.trans _ ran).trans _ (unlocks _ count)).trans _ ?_⟩
            obtain ⟨result, final, flushed⟩ := Output.exec_flushException context false after
            rw [exec_bind, flushed]
            exact .refl _ _
        · next few =>
            rw [if_neg few] at reached
            exact ⟨dropped, reached.trans _ (unlocks after dropped)⟩

theorem goOn_detailed (waiter : Waiter) (state : Sharing) (dropped : Nat) :
    ∃ count, Reaches (State.next context)
      { state.detailed dropped with worker := .behindLook waiter }
      ((goOn context waiter state).detailed count) := by
  cases waiter with
  | service => exact ⟨dropped, .refl _ _⟩
  | writeSoon data => exact append_detailed data state dropped

theorem waitOrGoOn_detailed (waiter : Waiter) (state : Sharing) (dropped : Nat) :
    ∃ count, Reaches (State.next context)
      { state.detailed dropped with worker := .belowLocking waiter }
      ((waitOrGoOn context waiter (exec (flushUnderLock context) state.answering)
        state).detailed count) := by
  have locks := @State.reaches_of_perform context (.lockBelow waiter)
    { state.detailed dropped with worker := .belowLocking waiter } _
    ⟨rfl, MainThread.position_holdsOutbufs _⟩ rfl
  obtain ⟨count, ran⟩ := @flushWorker_detailed context state _ _ _
    (.belowFlushing waiter .top) dropped
    (@State.flushException_flushed context false state.answering (state.detailed dropped)) rfl
  rw [holding_answering] at ran
  rw [flushUnderLock, exec_bind]
  obtain ⟨⟨flushed, raised⟩, output, result⟩ :=
    Output.exec_flushException context false state.answering
  rw [result] at ran ⊢
  have behind : WorkerPosition.afterFlush (State.caught (.ok (flushed, raised)))
      (.belowFlushing waiter .top) = .belowFlushed waiter raised := by
    cases raised <;> rfl
  rw [behind] at ran
  let after : Sharing := { state with output }
  have looks : Reaches (State.next context)
      { after.detailed count with worker := .belowFlushed waiter raised }
      { after.detailed count with
        worker :=
          if raised = true ∨ output.connected = true ∧
              output.totalOutbufsLen > context.adj.outbufHighWatermark then
            .waiting waiter raised false
          else .belowUnlocking waiter } :=
    @State.reaches_of_perform context (.waitOrUnlock waiter raised) _ _ rfl rfl
  have reached := (locks.trans _ ran).trans _ looks
  dsimp only
  rw [exec_get_bind]
  cases raised with
  | true => exact ⟨count, reached⟩
  | false =>
      rw [if_neg Bool.false_ne_true]
      split
      · next waits =>
          rw [if_pos (.inr waits)] at reached
          exact ⟨count, reached⟩
      · next below =>
          rw [if_neg (fun other => other.elim Bool.noConfusion below)] at reached
          have unlocks := @State.reaches_of_perform context (.unlockBelow waiter)
            { after.detailed count with worker := .belowUnlocking waiter } _ rfl rfl
          obtain ⟨final, goes⟩ := @goOn_detailed context waiter after count
          exact ⟨final, (reached.trans _ unlocks).trans _ goes⟩

theorem enter_detailed {state : Sharing} {data : Payload}
    (writing : state.worker = .writing data) (dropped : Nat) :
    ∃ count, Reaches (State.next context) (state.detailed dropped)
      ((enter context data state).detailed count) := by
  have start : (state.detailed dropped).worker = .writing data :=
    congrArg Worker.position writing
  have locks : Reaches (State.next context) (state.detailed dropped)
      { state.detailed dropped with worker := .looking (.writeSoon data) } :=
    @State.reaches_of_perform context (.lockWriting data) _ _
      ⟨start, MainThread.position_holdsOutbufs _⟩ rfl
  have looks : Reaches (State.next context)
      { state.detailed dropped with worker := .looking (.writeSoon data) }
      { state.detailed dropped with
        worker :=
          if state.output.totalOutbufsLen > context.adj.outbufHighWatermark then
            .belowLocking (.writeSoon data)
          else .appending data } :=
    @State.reaches_of_perform context (.look (.writeSoon data)) _ _ rfl rfl
  have reached := locks.trans _ looks
  have total : state.answering.totalOutbufsLen = state.output.totalOutbufsLen :=
    congrArg (·.totalOutbufsLen) (answering_withoutAnswers state)
  rw [enter, flushBelow, exec_get_bind, total]
  split
  · next above =>
      rw [if_pos above] at reached
      obtain ⟨count, goes⟩ := @waitOrGoOn_detailed context (.writeSoon data) state dropped
      exact ⟨count, reached.trans _ goes⟩
  · next below =>
      rw [if_neg below] at reached
      obtain ⟨count, goes⟩ := @append_detailed context data
        { state with output := state.answering } dropped
      have same : ({ state with output := state.answering } : Sharing).detailed dropped =
          state.detailed dropped := holding_answering state dropped
      rw [same] at goes
      exact ⟨count, reached.trans _ goes⟩

theorem wake_detailed {state : Sharing} {waiter : Waiter} {raised : Bool}
    (waiting : state.worker = .waiting waiter raised true) (dropped : Nat) :
    ∃ count, Reaches (State.next context) (state.detailed dropped)
      ((wake context waiter raised state).detailed count) := by
  have start : (state.detailed dropped).worker = .waiting waiter raised true :=
    congrArg Worker.position waiting
  have wakes : Reaches (State.next context) (state.detailed dropped)
      { state.detailed dropped with
        worker := if raised = true then .belowUnlocking waiter else .belowFlushed waiter false } :=
    @State.reaches_of_perform context (.wake waiter raised) _ _
      ⟨start, MainThread.position_holdsOutbufs _⟩ rfl
  have goesOn : ∃ count, Reaches (State.next context)
      { state.detailed dropped with worker := .belowUnlocking waiter }
      ((goOn context waiter state).detailed count) := by
    obtain ⟨count, goes⟩ := @goOn_detailed context waiter state dropped
    have unlocks := @State.reaches_of_perform context (.unlockBelow waiter)
      { state.detailed dropped with worker := .belowUnlocking waiter } _ rfl rfl
    exact ⟨count, unlocks.trans _ goes⟩
  obtain ⟨count, goes⟩ := goesOn
  rw [wake]
  cases raised with
  | true =>
      rw [if_neg (fun again => Bool.noConfusion again.1)]
      exact ⟨count, wakes.trans _ goes⟩
  | false =>
      have looks : Reaches (State.next context)
          { state.detailed dropped with worker := .belowFlushed waiter false }
          { state.detailed dropped with
            worker :=
              if false = true ∨ state.output.connected = true ∧
                  state.output.totalOutbufsLen > context.adj.outbufHighWatermark then
                .waiting waiter false false
              else .belowUnlocking waiter } :=
        @State.reaches_of_perform context (.waitOrUnlock waiter false) _ _ rfl rfl
      have reached := wakes.trans _ looks
      split
      · next again =>
          rw [if_pos (.inr again.2)] at reached
          exact ⟨dropped, reached⟩
      · next below =>
          rw [if_neg (fun other => other.elim Bool.noConfusion fun again =>
            below ⟨rfl, again⟩)] at reached
          exact ⟨count, reached.trans _ goes⟩

theorem handleClose_detailed (state : Sharing) (dropped : Nat) :
    Reaches (State.next context) { state.detailed dropped with main := .closing }
      (state.handleClose.detailed dropped) := by
  have locks : Reaches (State.next context) { state.detailed dropped with main := .closing }
      { (state.detailed dropped).closeOutbufs with main := .closeUnlocking } :=
    @State.reaches_of_perform context .lockClosing _ _
      ⟨rfl, Worker.position_holdsOutbufs _⟩ rfl
  have unlocks : Reaches (State.next context)
      { (state.detailed dropped).closeOutbufs with main := .closeUnlocking }
      { (state.detailed dropped).closeOutbufs with main := .idle } :=
    @State.reaches_of_perform context .unlockClosing _ _ rfl rfl
  rw [handleClose, detailed_noteClosed]
  exact locks.trans _ unlocks

theorem next_detailed {action : Action} {state after : Sharing}
    (free : ∀ acquired, action = .flushSomeIfLockable acquired → acquired = true)
    (taken : next context action state = some after) (dropped : Nat) :
    ∃ count, Reaches (State.next context) (state.detailed dropped) (after.detailed count) := by
  obtain ⟨enabled, rfl⟩ := (next_eq_some context).mp taken
  have main : ∀ {start}, state.main = start → (state.detailed dropped).main = start.position :=
    congrArg MainThread.position
  have worker : ∀ {start}, state.worker = start →
      (state.detailed dropped).worker = start.position :=
    congrArg Worker.position
  cases action with
  | startReceiving =>
      obtain ⟨idle, -, unlocked, goesOn⟩ := enabled
      have starts : Reaches (State.next context) (state.detailed dropped)
          { state.detailed dropped with main := .reading } :=
        @State.reaches_of_perform context .startReading _ _ (main idle) rfl
      have locks : Reaches (State.next context) { state.detailed dropped with main := .reading }
          { state.detailed dropped with
            main := if state.isEnding = true then .readUnlocking false else .receiving } :=
        @State.reaches_of_perform context .lockReading _ _
          ⟨rfl, (Worker.position_holdsRequests _).trans unlocked⟩ rfl
      rw [goesOn] at locks
      exact ⟨dropped, starts.trans _ locks⟩
  | parse expects =>
      exact ⟨dropped, @State.reaches_of_perform context (.parse expects) _ _ (main enabled) rfl⟩
  | announce => exact announce_detailed enabled.1 enabled.2.1 enabled.2.2 dropped
  | complete =>
      exact ⟨dropped, @State.reaches_of_perform context .complete _ _ (main enabled) rfl⟩
  | blank => exact ⟨dropped, @State.reaches_of_perform context .blank _ _ (main enabled) rfl⟩
  | endReceiving =>
      have ends := @State.reaches_of_perform context (.endReading false) (state.detailed dropped)
        _ (main enabled) rfl
      exact ⟨dropped, ends.trans _
        (@State.reaches_of_perform context (.unlockReading false) _ _ rfl rfl)⟩
  | parseFails =>
      have ends := @State.reaches_of_perform context (.endReading true) (state.detailed dropped)
        _ (main enabled) rfl
      exact ⟨dropped, ends.trans _
        (@State.reaches_of_perform context (.unlockReading true) _ _ rfl rfl)⟩
  | maintain =>
      exact ⟨dropped, @State.reaches_of_perform context .maintain _ _
        ⟨main enabled.1, enabled.2⟩ rfl⟩
  | testRequests =>
      refine ⟨dropped, @State.reaches_of_perform context .testRequests _ _ (main enabled) ?_⟩
      change _ = state.testRequests.detailed dropped
      rw [Sharing.testRequests]
      change ({ state.detailed dropped with
        main := if state.requests = 0 then .flushing .top else .choosing } : State) = _
      split <;> rfl
  | testTotal =>
      refine ⟨dropped, @State.reaches_of_perform context .testTotal _ _ (main enabled) ?_⟩
      change _ = (Sharing.testTotal context state).detailed dropped
      rw [Sharing.testTotal]
      change ({ state.detailed dropped with
        main :=
          if state.output.totalOutbufsLen ≥ context.adj.sendBytes then .trying
          else .flushed } : State) = _
      split <;> rfl
  | flushSome => exact flushSome_detailed enabled dropped
  | flushSomeIfLockable acquired =>
      obtain rfl := free acquired rfl
      exact flushSomeIfLockable_detailed enabled dropped
  | testFlushed =>
      refine ⟨dropped, @State.reaches_of_perform context .testFlushed _ _ (main enabled) ?_⟩
      change State.testFlushed _ = state.testFlushed.detailed dropped
      rw [State.testFlushed, Sharing.testFlushed]
      change (if state.output.closeWhenFlushed = true ∧ state.output.totalOutbufsLen = 0 then _
        else _) = _
      split <;> rfl
  | handOver =>
      exact ⟨dropped, @State.reaches_of_perform context .handOver _ _ (main enabled) rfl⟩
  | closeIfWillClose =>
      have tests : Reaches (State.next context) (state.detailed dropped)
          { state.detailed dropped with
            main := if state.output.willClose = true then .closing else .idle } :=
        @State.reaches_of_perform context .closeIfWillClose _ _ (main enabled) rfl
      refine ⟨dropped, ?_⟩
      change Reaches _ _ (state.closeIfWillClose.detailed dropped)
      rw [Sharing.closeIfWillClose]
      split
      · next closes =>
          rw [if_pos closes] at tests
          exact tests.trans _ (handleClose_detailed state dropped)
      · next stays =>
          rw [if_neg stays] at tests
          exact tests
  | handleClose =>
      have starts : Reaches (State.next context) (state.detailed dropped)
          { state.detailed dropped with main := .closing } :=
        @State.reaches_of_perform context .startClosing _ _ (enabled.imp main main) rfl
      exact ⟨dropped, starts.trans _ (handleClose_detailed state dropped)⟩
  | closeSocket writes =>
      have same : (perform context (.closeSocket writes) state).detailed dropped =
          { state.detailed dropped with main := MainThread.position (.closing writes) } := by
        cases writes <;> rfl
      refine ⟨dropped, ?_⟩
      rw [same, ← main enabled]
      exact .refl _ _
  | cancel => exact ⟨dropped, @State.reaches_of_perform context .cancel _ _ enabled rfl⟩
  | serve =>
      exact ⟨dropped, @State.reaches_of_perform context .serve _ _
        ⟨enabled.1, worker enabled.2⟩ rfl⟩
  | write data =>
      exact ⟨dropped, @State.reaches_of_perform context (.write data) _ _
        ⟨worker enabled.1, enabled.2⟩ rfl⟩
  | enter data => exact enter_detailed enabled dropped
  | wake waiter raised => exact wake_detailed enabled dropped
  | endTask closeOnFinish =>
      refine ⟨dropped, @State.reaches_of_perform context (.endTask closeOnFinish) _ _
        (worker enabled) ?_⟩
      cases closeOnFinish <;> rfl
  | settle =>
      have locks := @State.reaches_of_perform context .lockSettling (state.detailed dropped) _
        ⟨worker enabled.1, MainThread.position_holdsRequests enabled.2⟩ rfl
      exact ⟨dropped, locks.trans _
        (@State.reaches_of_perform context .unlockSettling _ _ rfl rfl)⟩
  | checkBacklog =>
      have tests : Reaches (State.next context) (state.detailed dropped)
          { state.detailed dropped with
            worker := if state.requests > 1 then .looking .service else .drained } :=
        @State.reaches_of_perform context .testBacklog _ _ (worker enabled) rfl
      have looks : Reaches (State.next context)
          { state.detailed dropped with worker := .looking .service }
          { state.detailed dropped with
            worker :=
              if state.output.totalOutbufsLen > context.adj.outbufHighWatermark then
                .belowLocking .service
              else .drained } :=
        @State.reaches_of_perform context (.look .service) _ _ rfl rfl
      refine ⟨dropped, ?_⟩
      change Reaches _ _ ((Sharing.checkBacklog context state).detailed dropped)
      rw [Sharing.checkBacklog]
      by_cases more : state.requests > 1
      · rw [if_pos more] at tests
        have reached := tests.trans _ looks
        by_cases above : state.output.totalOutbufsLen > context.adj.outbufHighWatermark
        · rw [if_pos above] at reached
          rw [if_pos ⟨more, above⟩]
          exact reached
        · rw [if_neg above] at reached
          rw [if_neg (above ∘ And.right)]
          exact reached
      · rw [if_neg more] at tests
        rw [if_neg (more ∘ And.left)]
        exact tests
  | drain =>
      obtain ⟨count, ran⟩ := @waitOrGoOn_detailed context .service state dropped
      have same : { state.detailed dropped with worker := .belowLocking .service } =
          state.detailed dropped := by
        rw [show WorkerPosition.belowLocking .service = Worker.position .draining from rfl,
          ← worker enabled]
      rw [same] at ran
      exact ⟨count, ran⟩
  | pop =>
      let popping : Sharing := { state with
        output := HTTPChannel.Output.nextOutbuf context state.output }
      have locks : Reaches (State.next context) (state.detailed dropped)
          { popping.detailed dropped with worker := .popping } :=
        @State.reaches_of_perform context .lockPopping _ _
          ⟨worker enabled.1, MainThread.position_holdsRequests enabled.2⟩ rfl
      have pops : ∀ after, State.pop { popping.detailed dropped with worker := .popping } = after →
          Reaches (State.next context) (state.detailed dropped) after :=
        fun after same => locks.trans _ (@State.reaches_of_perform context .pop _ _ rfl same)
      have leaves : ∀ after : Sharing, Reaches (State.next context)
          { after.detailed dropped with worker := .leaving }
          ({ after with worker := .outside }.detailed dropped) :=
        fun after => @State.reaches_of_perform context .leave _ _ rfl rfl
      refine ⟨dropped, ?_⟩
      change Reaches _ _ ((Sharing.pop context state).detailed dropped)
      rw [Sharing.pop]
      split
      · next none => exact (pops _ (if_pos none)).trans _ (leaves popping)
      split
      · next some more =>
          have behind := pops _ ((if_neg some).trans (if_pos more))
          exact behind.trans _ (leaves
            { popping with
              requests := state.requests - 1
              pendingTasks := state.pendingTasks + 1 })
      · next some last => exact pops _ ((if_neg some).trans (if_neg last))
  | testContinue =>
      have tests : Reaches (State.next context) (state.detailed dropped)
          { state.detailed dropped with
            worker :=
              if state.output.connected = true ∧ state.waitsForContinue = true then .continuing
              else .leaving } :=
        @State.reaches_of_perform context .testContinue _ _ (worker enabled) rfl
      refine ⟨dropped, ?_⟩
      change Reaches _ _ (state.testContinue.detailed dropped)
      rw [Sharing.testContinue]
      split
      · next waits =>
          rw [if_pos waits] at tests
          exact tests
      · next done =>
          rw [if_neg done] at tests
          exact tests.trans _ (@State.reaches_of_perform context .leave _ _ rfl rfl)
  | sendContinue => exact sendContinue_detailed enabled dropped

/-- As long as the main thread finds the lock free, a run in which the sections are single
steps is a run in which they are not, with the same output and the same positions. -/
theorem run_detailed {actions : List Action} {socket : List SendResult} {state : Sharing}
    (free : ∀ action ∈ actions, ∀ acquired, action = .flushSomeIfLockable acquired →
      acquired = true)
    (ran : run (next context) actions (new context socket) = some state) :
    ∃ dropped, Reaches (State.next context) (State.new context) (state.detailed dropped) := by
  have along := along_of_forall (next context) (fun action mem _ => free action mem)
    (new context socket)
  have step : ∀ action state after detail, (∃ dropped, detail = state.detailed dropped) →
      (∀ acquired, action = .flushSomeIfLockable acquired → acquired = true) →
      next context action state = some after →
      ∃ final, Reaches (State.next context) detail final ∧
        ∃ dropped, final = after.detailed dropped := by
    rintro action state after detail ⟨dropped, rfl⟩ free taken
    obtain ⟨count, reached⟩ := next_detailed free taken dropped
    exact ⟨_, reached, count, rfl⟩
  obtain ⟨last, reached, dropped, rfl⟩ := run_simulated_along step ⟨0, rfl⟩ along ran
  exact ⟨dropped, reached⟩

end Sharing

end Waitress
