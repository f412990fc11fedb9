import Waitress.Channel
import Waitress.Library.Transition

/-!
# The output between two threads

The main thread and one worker work on the output of a channel.  A section under
`outbuf_lock` is one step; a worker that waits for a notification is between two
of them.  Everything that a thread tests without the lock is a step of its own.
-/

namespace Waitress

open Raising

inductive Waiter where
  | writeSoon (data : Payload)
  | service
  deriving DecidableEq, Repr

inductive Worker where
  | outside
  /-- In the task, outside of `write_soon`. -/
  | serving
  /-- In `write_soon`, in front of the lock; `self.connected` was true. -/
  | writing (data : Payload)
  | waiting (waiter : Waiter) (raised notified : Bool)
  /-- The task has ended with `close_on_finish`. -/
  | closing
  /-- The task has ended without it. -/
  | keeping
  /-- There was too much data in the outbufs. -/
  | draining
  | drained
  /-- In the last section, behind the pop. -/
  | popped
  /-- In `send_continue`, in front of the lock of the outbufs. -/
  | continuing
  deriving DecidableEq, Repr

def Worker.notify : Worker → Worker
  | .waiting waiter raised _ => .waiting waiter raised true
  | worker => worker

def Worker.holdsRequests : Worker → Bool
  | .popped => true
  | .continuing => true
  | _ => false

inductive Flush where
  | flushSome
  | flushSomeIfLockable
  deriving DecidableEq, Repr

inductive MainThread where
  | idle
  /-- In `received`, under `requests_lock`. -/
  | receiving
  /-- In `handle_write`, behind the test of `self.requests`. -/
  | choosing
  | flushing (flush : Flush)
  | flushed
  /-- Between the two assignments of the flags. -/
  | handingOver
  | handedOver
  /-- In `handle_close`, between its section and the closing of the socket; `writes` says
  that `handle_write` has called it from a send. -/
  | closing (writes : Bool)
  /-- In front of a call of `handle_close`. -/
  | failing
  deriving DecidableEq, Repr

structure Sharing where
  output : Output
  /-- `len(self.requests)` -/
  requests : Nat := 0
  pendingTasks : Nat := 0
  /-- The current request expects the line, and its head was read. -/
  expects : Bool := false
  worker : Worker := .outside
  main : MainThread := .idle
  socketClosed : Bool := false
  /-- The totals at which `write_soon` has appended. -/
  levels : List Int := []
  /-- What had been written when `handle_close` has first run, and those totals. -/
  closed : Option (Bytes × List Int) := none
  deriving DecidableEq, Repr

namespace Sharing

def new (context : ChannelContext) (socket : List SendResult) : Sharing :=
  { output := Output.new context socket }

def isEnding (state : Sharing) : Bool := state.output.willClose || state.output.closeWhenFlushed

def writable (state : Sharing) : Bool :=
  decide (state.output.totalOutbufsLen > 0) || state.output.willClose ||
    state.output.closeWhenFlushed

/-- The part of the test for the line about the current request and the latch. -/
def waitsForContinue (state : Sharing) : Bool := state.expects && !state.output.sentContinue

def notify (state : Sharing) : Sharing := { state with worker := state.worker.notify }

def noteClosed (state : Sharing) : Sharing :=
  { state with
    closed := state.closed.or (some (state.output.written, state.levels))
    worker := state.worker.notify }

/-- The output as an operation finds it: without a socket every send raises. -/
def answering (state : Sharing) : Output :=
  if state.socketClosed = true then { state.output with socket := [.raises .attributeError] }
  else state.output

def metDisconnection (before after : Output) : Bool :=
  (before.socket.take (before.socket.length - after.socket.length)).contains .disconnected

/-- An operation in a section; if a send finds the client gone, the channel is closed there. -/
def runClosing {Value : Type} (action : OutputM Value) (state : Sharing) : Sharing :=
  let output := (exec action state.answering).2
  if metDisconnection state.answering output = true then
    noteClosed { state with output, socketClosed := true }
  else { state with output }

section

variable (context : ChannelContext)

/-- `send_continue`; `returned` and `raised` say where the two ways out lead to. -/
def sendContinue (returned raised : Sharing → Sharing) (state : Sharing) : Sharing :=
  let after := runClosing (sendContinueOutput context) { state with expects := false }
  match (exec (sendContinueOutput context) state.answering).1 with
  | .ok () => returned after
  | .error _ => raised after

/-! ### The main thread -/

def complete (state : Sharing) : Sharing :=
  { state with
    output.sentContinue := false
    expects := false
    requests := state.requests + 1
    pendingTasks := if state.requests = 0 then state.pendingTasks + 1 else state.pendingTasks }

def testRequests (state : Sharing) : Sharing :=
  { state with main := if state.requests = 0 then .flushing .flushSome else .choosing }

def testTotal (state : Sharing) : Sharing :=
  { state with
    main :=
      if state.output.totalOutbufsLen ≥ context.adj.sendBytes then .flushing .flushSomeIfLockable
      else .flushed }

/-- `_flush_exception(self._flush_some)`, without the lock. -/
def flushSome (state : Sharing) : Sharing :=
  let output := (exec (flushException context true) state.answering).2
  if metDisconnection state.answering output = true then
    noteClosed { state with output, main := .closing true }
  else { state with output, main := .flushed }

def notifyIfBelow (state : Sharing) : Sharing :=
  if state.output.totalOutbufsLen < context.adj.outbufHighWatermark then state.notify else state

/-- `_flush_exception(self._flush_some_if_lockable)`; `acquired` says that the lock is free. -/
def flushSomeIfLockable (acquired : Bool) (state : Sharing) : Sharing :=
  let after := { runClosing (flushException context true) state with main := .flushed }
  if acquired = false then { state with main := .flushed }
  else
    match (exec (flushException context true) state.answering).1 with
    | .ok (_, false) => notifyIfBelow context after
    | _ => after

def testFlushed (state : Sharing) : Sharing :=
  if state.output.closeWhenFlushed = true ∧ state.output.totalOutbufsLen = 0 then
    { state with output.closeWhenFlushed := false, main := .handingOver }
  else { state with main := .handedOver }

def handleClose (state : Sharing) : Sharing :=
  noteClosed { state with output := state.output.handleClose, main := .closing false }

def closeIfWillClose (state : Sharing) : Sharing :=
  if state.output.willClose = true then state.handleClose else { state with main := .idle }

def cancel (state : Sharing) : Sharing :=
  { state with
    output.willClose := true
    output.connected := false
    requests := 0
    pendingTasks := state.pendingTasks - 1 }

/-! ### The worker -/

def append (data : Payload) (state : Sharing) : Sharing :=
  { state with
    output := (exec (appendSoon context data) state.answering).2
    levels :=
      if state.output.connected = true then state.levels ++ [state.output.totalOutbufsLen]
      else state.levels
    worker := .serving }

def goOn (waiter : Waiter) (state : Sharing) : Sharing :=
  match waiter with
  | .writeSoon data => append context data state
  | .service => { state with worker := .drained }

def waitOrGoOn (waiter : Waiter) (outcome : Except Exc Below × Output) (state : Sharing) :
    Sharing :=
  match outcome with
  | (.ok (.waits raised), output) => { state with output, worker := .waiting waiter raised false }
  | (_, output) => goOn context waiter { state with output }

/-- The section of `write_soon` up to a wait. -/
def enter (data : Payload) (state : Sharing) : Sharing :=
  waitOrGoOn context (.writeSoon data) (exec (flushBelow context) state.answering) state

def wake (waiter : Waiter) (raised : Bool) (state : Sharing) : Sharing :=
  if raised = false ∧ state.output.connected = true ∧
      state.output.totalOutbufsLen > context.adj.outbufHighWatermark then
    { state with worker := .waiting waiter false false }
  else goOn context waiter state

def settle (state : Sharing) : Sharing :=
  { state with output.closeWhenFlushed := true, requests := 0, worker := .outside }

/-- Does `service` look at the outbufs before the next request? -/
def checkBacklog (state : Sharing) : Sharing :=
  { state with
    worker :=
      if state.requests > 1 ∧ state.output.totalOutbufsLen > context.adj.outbufHighWatermark then
        .draining
      else .drained }

def drain (state : Sharing) : Sharing :=
  waitOrGoOn context .service (exec (flushUnderLock context) state.answering) state

def pop (state : Sharing) : Sharing :=
  if state.requests = 0 then
    { state with
      output := HTTPChannel.Output.nextOutbuf context state.output
      worker := .outside }
  else if state.output.connected = true ∧ state.requests > 1 then
    { state with
      output := HTTPChannel.Output.nextOutbuf context state.output
      requests := state.requests - 1
      pendingTasks := state.pendingTasks + 1
      worker := .outside }
  else
    { state with
      output := HTTPChannel.Output.nextOutbuf context state.output
      requests := state.requests - 1
      worker := .popped }

def testContinue (state : Sharing) : Sharing :=
  if state.output.connected = true ∧ state.waitsForContinue = true then
    { state with worker := .continuing }
  else { state with worker := .outside }

/-! ### The steps -/

inductive Action where
  | startReceiving
  | parse (expects : Bool)
  | announce
  | complete
  | blank
  | endReceiving
  | parseFails
  | maintain
  | testRequests
  | testTotal
  | flushSome
  | flushSomeIfLockable (acquired : Bool)
  | testFlushed
  | handOver
  | closeIfWillClose
  | handleClose
  | closeSocket (writes : Bool)
  | cancel
  | serve
  | write (data : Payload)
  | enter (data : Payload)
  | wake (waiter : Waiter) (raised : Bool)
  | endTask (closeOnFinish : Bool)
  | settle
  | checkBacklog
  | drain
  | pop
  | testContinue
  | sendContinue

def Enabled (action : Action) (state : Sharing) : Prop :=
  match action with
  | .startReceiving =>
      state.main = .idle ∧ state.socketClosed = false ∧ state.worker.holdsRequests = false ∧
        state.isEnding = false
  | .parse _ => state.main = .receiving
  | .announce => state.main = .receiving ∧ state.requests = 0 ∧ state.waitsForContinue = true
  | .complete => state.main = .receiving
  | .blank => state.main = .receiving
  | .endReceiving => state.main = .receiving
  | .parseFails => state.main = .receiving
  | .maintain => state.main = .idle ∧ state.requests = 0
  | .testRequests => state.main = .idle
  | .testTotal => state.main = .choosing
  | .flushSome => state.main = .flushing .flushSome
  | .flushSomeIfLockable _ => state.main = .flushing .flushSomeIfLockable
  | .testFlushed => state.main = .flushed
  | .handOver => state.main = .handingOver
  | .closeIfWillClose => state.main = .handedOver
  -- The client is gone, or an exception was raised.
  | .handleClose => state.main = .idle ∨ state.main = .failing
  | .closeSocket writes => state.main = .closing writes
  | .cancel => state.pendingTasks > 0
  | .serve => state.pendingTasks > 0 ∧ state.worker = .outside
  -- Else `write_soon` raises, or there is nothing to write.
  | .write data => state.worker = .serving ∧ state.output.connected = true ∧ data.isTrue = true
  | .enter data => state.worker = .writing data
  | .wake waiter raised => state.worker = .waiting waiter raised true
  | .endTask _ => state.worker = .serving
  | .settle => state.worker = .closing ∧ state.main ≠ .receiving
  | .checkBacklog => state.worker = .keeping
  | .drain => state.worker = .draining
  | .pop => state.worker = .drained ∧ state.main ≠ .receiving
  | .testContinue => state.worker = .popped
  | .sendContinue => state.worker = .continuing

instance (action : Action) (state : Sharing) : Decidable (Enabled action state) := by
  cases action <;> unfold Enabled <;> infer_instance

def perform (action : Action) (state : Sharing) : Sharing :=
  match action with
  | .startReceiving => { state with main := .receiving }
  | .parse expects => { state with expects }
  | .announce => sendContinue context id (fun state => { state with main := .failing }) state
  | .complete => state.complete
  | .blank => { state with output.sentContinue := false, expects := false }
  | .endReceiving => { state with main := .idle }
  | .parseFails => { state with main := .failing }
  | .maintain => { state with output.willClose := true }
  | .testRequests => state.testRequests
  | .testTotal => testTotal context state
  | .flushSome => flushSome context state
  | .flushSomeIfLockable acquired => flushSomeIfLockable context acquired state
  | .testFlushed => state.testFlushed
  | .handOver => { state with output.willClose := true, main := .handedOver }
  | .closeIfWillClose => state.closeIfWillClose
  | .handleClose => state.handleClose
  | .closeSocket writes =>
      { state with socketClosed := true, main := if writes = true then .flushed else .idle }
  | .cancel => state.cancel
  | .serve => { state with pendingTasks := state.pendingTasks - 1, worker := .serving }
  | .write data => { state with worker := .writing data }
  | .enter data => enter context data state
  | .wake waiter raised => wake context waiter raised state
  | .endTask true => { state with worker := .closing }
  | .endTask false => { state with worker := .keeping }
  | .settle => state.settle
  | .checkBacklog => checkBacklog context state
  | .drain => drain context state
  | .pop => pop context state
  | .testContinue => state.testContinue
  | .sendContinue =>
      sendContinue context (fun state => { state with worker := .outside })
        (fun state => { state with worker := .outside }) state

def next (action : Action) (state : Sharing) : Option Sharing :=
  if Enabled action state then some (perform context action state) else none

theorem next_eq_some {action : Action} {state after : Sharing} :
    next context action state = some after ↔
      Enabled action state ∧ perform context action state = after := by
  rw [next]
  split
  · next enabled => simp [enabled]
  · next disabled => simp [disabled]

end

end Sharing

end Waitress
