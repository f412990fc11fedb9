import Waitress.Channel.Sharing

/-!
# The output between two threads, step by step

Here every acquisition and every release of a lock is a step of its own, and so are
the three parts of a round of `_flush_some`.  The positions of the threads tell who
holds which lock.
-/

namespace Waitress.Interleaving

open Raising

/-- Where a thread is in `_flush_some`.  An outbuf is named by its number, as the thread
keeps it while others are dropped. -/
inductive FlushPosition where
  /-- In front of `outbuf = self.outbufs[0]`. -/
  | top
  /-- In front of the test of `outbuflen`. -/
  | looping (outbuf : Nat) (outbuflen : Int)
  /-- Between `outbuf.get` and `self.send`. -/
  | got (outbuf : Nat) (outbuflen : Int) (chunk : Bytes)
  /-- Between `self.send` and `outbuf.skip`. -/
  | sent (outbuf : Nat) (outbuflen : Int) (numSent : Nat)
  /-- In `handle_close`, in front of the lock. -/
  | closing
  /-- In `handle_close`, in front of its release. -/
  | closed
  deriving DecidableEq, Repr

def FlushPosition.isBetween : FlushPosition → Bool
  | .got _ _ _ => true
  | .sent _ _ _ => true
  | _ => false

inductive FlushOutcome where
  | at (position : FlushPosition)
  | returned
  | raised
  deriving DecidableEq, Repr

inductive MainPosition where
  | idle
  /-- In `received`, in front of `requests_lock`. -/
  | reading
  | receiving
  /-- In `send_continue`, in front of `outbuf_lock`. -/
  | announcing
  | announceLocked
  | announceFlushing (flush : FlushPosition)
  | announceUnlocking (raised : Bool)
  | readUnlocking (raised : Bool)
  /-- In `handle_write`, behind the test of `self.requests`. -/
  | choosing
  /-- In `_flush_some`, without the lock. -/
  | flushing (flush : FlushPosition)
  /-- In `_flush_some_if_lockable`, in front of the lock. -/
  | trying
  | lockableFlushing (flush : FlushPosition)
  | notifying
  | lockableUnlocking
  | flushed
  | handingOver
  | handedOver
  /-- In `handle_close`, in front of the lock. -/
  | closing
  | closeUnlocking
  /-- In front of a call of `handle_close`. -/
  | failing
  deriving DecidableEq, Repr

namespace MainPosition

def holdsRequests : MainPosition → Bool
  | .receiving | .announcing | .announceLocked => true
  | .announceFlushing _ | .announceUnlocking _ | .readUnlocking _ => true
  | _ => false

def holdsOutbufs : MainPosition → Bool
  | .announceLocked | .announceFlushing _ | .announceUnlocking _ => true
  | .lockableFlushing _ | .notifying | .lockableUnlocking => true
  | .closeUnlocking => true
  | .flushing flush => decide (flush = .closed)
  | _ => false

def isUnlocked : MainPosition → Bool
  | .flushing _ => true
  | _ => false

def flush? : MainPosition → Option FlushPosition
  | .flushing flush => some flush
  | .lockableFlushing flush => some flush
  | .announceFlushing flush => some flush
  | _ => none

/-- Does `_flush_exception` catch what the flush raises? -/
def catches : MainPosition → Bool
  | .announceFlushing _ => false
  | _ => true

def afterFlush (outcome : FlushOutcome) (position : MainPosition) : MainPosition :=
  match position, outcome with
  | .flushing _, .at flush => .flushing flush
  | .flushing _, _ => .flushed
  | .lockableFlushing _, .at flush => .lockableFlushing flush
  | .lockableFlushing _, .returned => .notifying
  | .lockableFlushing _, .raised => .lockableUnlocking
  | .announceFlushing _, .at flush => .announceFlushing flush
  | .announceFlushing _, .returned => .announceUnlocking false
  | .announceFlushing _, .raised => .announceUnlocking true
  | other, _ => other

end MainPosition

inductive WorkerPosition where
  | outside
  /-- In the task, outside of `write_soon`. -/
  | serving
  /-- In `write_soon`, in front of `outbuf_lock`. -/
  | writing (data : Payload)
  /-- In front of the first test of `_flush_outbufs_below_high_watermark`. -/
  | looking (waiter : Waiter)
  /-- There, in front of the lock. -/
  | belowLocking (waiter : Waiter)
  | belowFlushing (waiter : Waiter) (flush : FlushPosition)
  | belowFlushed (waiter : Waiter) (raised : Bool)
  | waiting (waiter : Waiter) (raised notified : Bool)
  | belowUnlocking (waiter : Waiter)
  | appending (data : Payload)
  | writeFlushing (flush : FlushPosition)
  | writeUnlocking
  /-- The task has ended with `close_on_finish`. -/
  | closing
  | closeUnlocking
  /-- The task has ended without it. -/
  | keeping
  | drained
  /-- In the last section of `service`, in front of the pop. -/
  | popping
  /-- Behind the pop, if no other request is going to be served. -/
  | popped
  /-- In `send_continue`, in front of `outbuf_lock`. -/
  | continuing
  | continueLocked
  | continueFlushing (flush : FlushPosition)
  | continueUnlocking
  /-- In front of the release of `requests_lock`. -/
  | leaving
  deriving DecidableEq, Repr

namespace WorkerPosition

def holdsRequests : WorkerPosition → Bool
  | .closeUnlocking | .popping | .popped | .continuing | .continueLocked => true
  | .continueFlushing _ | .continueUnlocking | .leaving => true
  | _ => false

def holdsOutbufs : WorkerPosition → Bool
  | .looking (.writeSoon _) | .belowLocking (.writeSoon _) => true
  | .belowFlushing _ _ | .belowFlushed _ _ | .belowUnlocking _ => true
  | .appending _ | .writeFlushing _ | .writeUnlocking => true
  | .continueLocked | .continueFlushing _ | .continueUnlocking => true
  | _ => false

def isContinuing : WorkerPosition → Bool
  | .continueLocked | .continueFlushing _ | .continueUnlocking => true
  | _ => false

/-- Is the request of the worker still the first of `self.requests`? -/
def isBusy : WorkerPosition → Bool
  | .outside | .closeUnlocking | .popped => false
  | .continuing | .continueLocked | .continueFlushing _ | .continueUnlocking | .leaving => false
  | _ => true

def flush? : WorkerPosition → Option FlushPosition
  | .belowFlushing _ flush => some flush
  | .writeFlushing flush => some flush
  | .continueFlushing flush => some flush
  | _ => none

/-- Does the flush close a channel whose client is gone? -/
def doClose : WorkerPosition → Bool
  | .continueFlushing _ => true
  | _ => false

def catches : WorkerPosition → Bool
  | .continueFlushing _ => false
  | _ => true

def afterFlush (outcome : FlushOutcome) (position : WorkerPosition) : WorkerPosition :=
  match position, outcome with
  | .belowFlushing waiter _, .at flush => .belowFlushing waiter flush
  | .belowFlushing waiter _, .returned => .belowFlushed waiter false
  | .belowFlushing waiter _, .raised => .belowFlushed waiter true
  | .writeFlushing _, .at flush => .writeFlushing flush
  | .writeFlushing _, _ => .writeUnlocking
  | .continueFlushing _, .at flush => .continueFlushing flush
  | .continueFlushing _, _ => .continueUnlocking
  | other, _ => other

def notify : WorkerPosition → WorkerPosition
  | .waiting waiter raised _ => .waiting waiter raised true
  | position => position

def behindLook : Waiter → WorkerPosition
  | .writeSoon data => .appending data
  | .service => .drained

end WorkerPosition

structure State where
  output : Output
  /-- How many outbufs were dropped, which is the number of the first one. -/
  dropped : Nat := 0
  /-- `len(self.requests)` -/
  requests : Nat := 0
  pendingTasks : Nat := 0
  /-- The current request expects the line, and its head was read. -/
  expects : Bool := false
  main : MainPosition := .idle
  worker : WorkerPosition := .outside
  deriving DecidableEq, Repr

namespace State

def new (context : ChannelContext) : State := { output := Output.new context [] }

def waitsForContinue (state : State) : Bool := state.expects && !state.output.sentContinue

def isEnding (state : State) : Bool :=
  state.output.willClose || state.output.closeWhenFlushed

def outbuf? (number : Nat) (state : State) : Option Outbuf :=
  if number < state.dropped then none else state.output.outbufs[number - state.dropped]?

/-- The section of `handle_close`. -/
def closeOutbufs (state : State) : State :=
  { state with output := state.output.handleClose, worker := state.worker.notify }

section

variable (context : ChannelContext)

/-- A step of `_flush_some`; `answer` is what a send would bring. -/
def flushStep (doClose : Bool) (answer : SendResult) (position : FlushPosition)
    (state : State) : FlushOutcome × State :=
  match position with
  | .top =>
      match state.output.outbufs with
      | [] => (.raised, state)
      | outbuf :: _ => (.at (.looping state.dropped outbuf.len), state)
  | .looping number outbuflen =>
      if outbuflen > 0 then
        match state.outbuf? number with
        -- A dropped outbuf is closed.
        | none => (.raised, state)
        | some outbuf => (.at (.got number outbuflen (outbuf.get context.sendbufLen)), state)
      else if state.output.outbufs.length > 1 then
        (.at .top,
          { state with
            output.outbufs := state.output.outbufs.tail
            dropped := state.dropped + 1 })
      else (.returned, state)
  | .got number outbuflen chunk =>
      match answer with
      | .wouldBlock => (.returned, state)
      | .disconnected => (if doClose = true then .at .closing else .returned, state)
      | .raises _ => (.raised, state)
      | .sent n =>
          if min n chunk.length = 0 then (.returned, state)
          else
            (.at (.sent number outbuflen (min n chunk.length)),
              { state with
                output.accepted := state.output.accepted ++ chunk.take (min n chunk.length) })
  | .sent number outbuflen numSent =>
      match state.outbuf? number with
      | none => (.raised, state)
      | some outbuf =>
          match outbuf.skip numSent true with
          | (.error _, _) => (.raised, state)
          | (.ok (), rest) =>
              (.at (.looping number (outbuflen - numSent)),
                { state with
                  output.outbufs := state.output.outbufs.set (number - state.dropped) rest
                  output.totalOutbufsLen := state.output.totalOutbufsLen - numSent })
  | .closing => (.at .closed, state.closeOutbufs)
  | .closed => (.returned, state)

/-- What was raised in a flush is caught, or it is not. -/
def catchRaised (outcome : FlushOutcome) (catches : Bool) (state : State) : State :=
  if outcome = .raised ∧ catches = true then { state with output.willClose := true } else state

def flushMain (answer : SendResult) (state : State) : State :=
  match state.main.flush? with
  | none => state
  | some position =>
      let (outcome, after) := flushStep context true answer position state
      { catchRaised outcome state.main.catches after with
        main := state.main.afterFlush outcome }

def flushWorker (answer : SendResult) (state : State) : State :=
  match state.worker.flush? with
  | none => state
  | some position =>
      let (outcome, after) := flushStep context state.worker.doClose answer position state
      { catchRaised outcome state.worker.catches after with
        worker := state.worker.afterFlush outcome }

/-- `send_continue` up to the flush. -/
def appendContinue : OutputM Unit := do
  let outbufs ← MonadExcept.ofExcept (Output.appendLast continueLine (← get).outbufs)
  modify fun out =>
    { out with
      outbufs
      currentOutbufCount := out.currentOutbufCount + continueLine.length
      totalOutbufsLen := out.totalOutbufsLen + continueLine.length
      written := out.written ++ continueLine
      sentContinue := true }

theorem exec_sendContinueOutput (out : Output) :
    exec (sendContinueOutput context) out =
      exec (do appendContinue; let _flushed ← flushSome context true; pure ()) out := by
  rw [sendContinueOutput, exec_get_bind, exec_bind, exec_ofExcept, exec_bind, appendContinue,
    exec_get_bind, exec_bind, exec_ofExcept]
  cases Output.appendLast continueLine out.outbufs with
  | error exc => rfl
  | ok outbufs => rfl

/-! ### The other steps of the main thread -/

/-- `send_continue` behind the lock, up to the flush. -/
def appendAnnounce (state : State) : State :=
  match exec appendContinue state.output with
  | (.ok (), output) => { state with output, main := .announceFlushing .top }
  | (.error _, output) => { state with output, main := .announceUnlocking true }

def complete (state : State) : State :=
  { state with
    output.sentContinue := false
    expects := false
    requests := state.requests + 1
    pendingTasks := if state.requests = 0 then state.pendingTasks + 1 else state.pendingTasks }

def testRequests (state : State) : State :=
  { state with main := if state.requests = 0 then .flushing .top else .choosing }

def testTotal (state : State) : State :=
  { state with
    main := if state.output.totalOutbufsLen ≥ context.adj.sendBytes then .trying else .flushed }

def tryLock (state : State) : State :=
  { state with
    main := if state.worker.holdsOutbufs = true then .flushed else .lockableFlushing .top }

def notifyIfBelow (state : State) : State :=
  { state with
    main := .lockableUnlocking
    worker :=
      if state.output.totalOutbufsLen < context.adj.outbufHighWatermark then state.worker.notify
      else state.worker }

def testFlushed (state : State) : State :=
  if state.output.closeWhenFlushed = true ∧ state.output.totalOutbufsLen = 0 then
    { state with output.closeWhenFlushed := false, main := .handingOver }
  else { state with main := .handedOver }

def closeIfWillClose (state : State) : State :=
  { state with main := if state.output.willClose = true then .closing else .idle }

def cancel (state : State) : State :=
  { state with
    output.willClose := true
    output.connected := false
    requests := 0
    pendingTasks := state.pendingTasks - 1 }

/-! ### The other steps of the worker -/

def look (waiter : Waiter) (state : State) : State :=
  { state with
    worker :=
      if state.output.totalOutbufsLen > context.adj.outbufHighWatermark then .belowLocking waiter
      else .behindLook waiter }

/-- Behind the flush, and behind a wait in the loop. -/
def waitOrUnlock (waiter : Waiter) (raised : Bool) (state : State) : State :=
  { state with
    worker :=
      if raised = true ∨ state.output.connected = true ∧
          state.output.totalOutbufsLen > context.adj.outbufHighWatermark then
        .waiting waiter raised false
      else .belowUnlocking waiter }

def append (data : Payload) (state : State) : State :=
  if state.output.connected = false then { state with worker := .writeUnlocking }
  else
    match exec (appendPayload context data) state.output with
    | (.error _, output) => { state with output, worker := .writeUnlocking }
    | (.ok (), output) =>
        { state with
          output
          worker :=
            if output.totalOutbufsLen ≥ context.adj.sendBytes then .writeFlushing .top
            else .writeUnlocking }

def settle (state : State) : State :=
  { state with output.closeWhenFlushed := true, requests := 0, worker := .closeUnlocking }

def testBacklog (state : State) : State :=
  { state with worker := if state.requests > 1 then .looking .service else .drained }

def pop (state : State) : State :=
  if state.requests = 0 then { state with worker := .leaving }
  else if state.output.connected = true ∧ state.requests > 1 then
    { state with
      requests := state.requests - 1
      pendingTasks := state.pendingTasks + 1
      worker := .leaving }
  else { state with requests := state.requests - 1, worker := .popped }

def testContinue (state : State) : State :=
  { state with
    worker :=
      if state.output.connected = true ∧ state.waitsForContinue = true then .continuing
      else .leaving }

def appendContinuing (state : State) : State :=
  match exec appendContinue state.output with
  | (.ok (), output) => { state with output, expects := false, worker := .continueFlushing .top }
  | (.error _, output) => { state with output, expects := false, worker := .continueUnlocking }

end

end State

inductive Action where
  | startReading
  | lockReading
  | parse (expects : Bool)
  | announce
  | lockAnnounce
  | appendAnnounce
  | unlockAnnounce (raised : Bool)
  | complete
  | blank
  | endReading (raised : Bool)
  | unlockReading (raised : Bool)
  | maintain
  | testRequests
  | testTotal
  | tryLock
  | flushMain (answer : SendResult)
  | notifyIfBelow
  | unlockLockable
  | testFlushed
  | handOver
  | closeIfWillClose
  | startClosing
  | lockClosing
  | unlockClosing
  | cancel
  | serve
  | write (data : Payload)
  | lockWriting (data : Payload)
  | look (waiter : Waiter)
  | lockBelow (waiter : Waiter)
  | flushWorker (answer : SendResult)
  | waitOrUnlock (waiter : Waiter) (raised : Bool)
  | wake (waiter : Waiter) (raised : Bool)
  | unlockBelow (waiter : Waiter)
  | append (data : Payload)
  | unlockWriting
  | endTask (closeOnFinish : Bool)
  | lockSettling
  | unlockSettling
  | testBacklog
  | lockPopping
  | pop
  | testContinue
  | lockContinue
  | appendContinue
  | unlockContinue
  | leave

namespace State

def Enabled (action : Action) (state : State) : Prop :=
  match action with
  | .startReading => state.main = .idle
  | .lockReading => state.main = .reading ∧ state.worker.holdsRequests = false
  | .parse _ => state.main = .receiving
  | .announce => state.main = .receiving ∧ state.requests = 0 ∧ state.waitsForContinue = true
  | .lockAnnounce => state.main = .announcing ∧ state.worker.holdsOutbufs = false
  | .appendAnnounce => state.main = .announceLocked
  | .unlockAnnounce raised => state.main = .announceUnlocking raised
  | .complete => state.main = .receiving
  | .blank => state.main = .receiving
  | .endReading _ => state.main = .receiving
  | .unlockReading raised => state.main = .readUnlocking raised
  | .maintain => state.main = .idle ∧ state.requests = 0
  | .testRequests => state.main = .idle
  | .testTotal => state.main = .choosing
  | .tryLock => state.main = .trying
  | .flushMain _ =>
      state.main.flush?.isSome = true ∧
        (state.main.flush? = some .closing → state.worker.holdsOutbufs = false)
  | .notifyIfBelow => state.main = .notifying
  | .unlockLockable => state.main = .lockableUnlocking
  | .testFlushed => state.main = .flushed
  | .handOver => state.main = .handingOver
  | .closeIfWillClose => state.main = .handedOver
  -- The client is gone, or an exception was raised.
  | .startClosing => state.main = .idle ∨ state.main = .failing
  | .lockClosing => state.main = .closing ∧ state.worker.holdsOutbufs = false
  | .unlockClosing => state.main = .closeUnlocking
  | .cancel => state.pendingTasks > 0
  | .serve => state.pendingTasks > 0 ∧ state.worker = .outside
  -- Else `write_soon` raises, or there is nothing to write.
  | .write data => state.worker = .serving ∧ state.output.connected = true ∧ data.isTrue = true
  | .lockWriting data => state.worker = .writing data ∧ state.main.holdsOutbufs = false
  | .look waiter => state.worker = .looking waiter
  | .lockBelow waiter => state.worker = .belowLocking waiter ∧ state.main.holdsOutbufs = false
  | .flushWorker _ => state.worker.flush?.isSome = true
  | .waitOrUnlock waiter raised => state.worker = .belowFlushed waiter raised
  | .wake waiter raised =>
      state.worker = .waiting waiter raised true ∧ state.main.holdsOutbufs = false
  | .unlockBelow waiter => state.worker = .belowUnlocking waiter
  | .append data => state.worker = .appending data
  | .unlockWriting => state.worker = .writeUnlocking
  | .endTask _ => state.worker = .serving
  | .lockSettling => state.worker = .closing ∧ state.main.holdsRequests = false
  | .unlockSettling => state.worker = .closeUnlocking
  | .testBacklog => state.worker = .keeping
  | .lockPopping => state.worker = .drained ∧ state.main.holdsRequests = false
  | .pop => state.worker = .popping
  | .testContinue => state.worker = .popped
  | .lockContinue => state.worker = .continuing ∧ state.main.holdsOutbufs = false
  | .appendContinue => state.worker = .continueLocked
  | .unlockContinue => state.worker = .continueUnlocking
  | .leave => state.worker = .leaving

instance (action : Action) (state : State) : Decidable (Enabled action state) := by
  cases action <;> unfold Enabled <;> infer_instance

variable (context : ChannelContext)

def perform (action : Action) (state : State) : State :=
  match action with
  | .startReading => { state with main := .reading }
  | .lockReading =>
      { state with main := if state.isEnding = true then .readUnlocking false else .receiving }
  | .parse expects => { state with expects }
  | .announce => { state with expects := false, main := .announcing }
  | .lockAnnounce => { state with main := .announceLocked }
  | .appendAnnounce => state.appendAnnounce
  | .unlockAnnounce raised =>
      { state with main := if raised = true then .readUnlocking true else .receiving }
  | .complete => state.complete
  | .blank => { state with output.sentContinue := false, expects := false }
  | .endReading raised => { state with main := .readUnlocking raised }
  | .unlockReading raised => { state with main := if raised = true then .failing else .idle }
  | .maintain => { state with output.willClose := true }
  | .testRequests => state.testRequests
  | .testTotal => testTotal context state
  | .tryLock => state.tryLock
  | .flushMain answer => flushMain context answer state
  | .notifyIfBelow => notifyIfBelow context state
  | .unlockLockable => { state with main := .flushed }
  | .testFlushed => state.testFlushed
  | .handOver => { state with output.willClose := true, main := .handedOver }
  | .closeIfWillClose => state.closeIfWillClose
  | .startClosing => { state with main := .closing }
  | .lockClosing => { state.closeOutbufs with main := .closeUnlocking }
  | .unlockClosing => { state with main := .idle }
  | .cancel => state.cancel
  | .serve => { state with pendingTasks := state.pendingTasks - 1, worker := .serving }
  | .write data => { state with worker := .writing data }
  | .lockWriting data => { state with worker := .looking (.writeSoon data) }
  | .look waiter => look context waiter state
  | .lockBelow waiter => { state with worker := .belowFlushing waiter .top }
  | .flushWorker answer => flushWorker context answer state
  | .waitOrUnlock waiter raised => waitOrUnlock context waiter raised state
  | .wake waiter raised =>
      { state with
        worker := if raised = true then .belowUnlocking waiter else .belowFlushed waiter false }
  | .unlockBelow waiter => { state with worker := .behindLook waiter }
  | .append data => append context data state
  | .unlockWriting => { state with worker := .serving }
  | .endTask true => { state with worker := .closing }
  | .endTask false => { state with worker := .keeping }
  | .lockSettling => state.settle
  | .unlockSettling => { state with worker := .outside }
  | .testBacklog => state.testBacklog
  | .lockPopping =>
      { state with
        output := HTTPChannel.Output.nextOutbuf context state.output
        worker := .popping }
  | .pop => state.pop
  | .testContinue => state.testContinue
  | .lockContinue => { state with worker := .continueLocked }
  | .appendContinue => state.appendContinuing
  | .unlockContinue => { state with worker := .leaving }
  | .leave => { state with worker := .outside }

def next (action : Action) (state : State) : Option State :=
  if Enabled action state then some (perform context action state) else none

theorem next_eq_some {action : Action} {state after : State} :
    next context action state = some after ↔
      Enabled action state ∧ perform context action state = after := by
  rw [next]
  split
  · next enabled => simp [enabled]
  · next disabled => simp [disabled]

end State

end Waitress.Interleaving
