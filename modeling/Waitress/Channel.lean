import Waitress.Channel.Output
import Waitress.Channel.Service
import Waitress.Library.Transition

/-!
# A channel and its threads

The state of one `HTTPChannel` with the main thread and with the calls of
`service` that the dispatcher has made.  A section under `requests_lock` is one
step, and so is `handle_close` with its `del_channel`, although the main thread
reads the socket map without waiting for it.  Everything else that one thread can
see of the other is a step of its own.
-/

namespace Waitress

open Raising

/-- A parser object; the numbers are given in the order of the stream. -/
structure Numbered where
  number : Nat
  parser : HTTPRequestParser
  deriving DecidableEq, Repr

/-- Where a call of `service` is, up to its last section under `requests_lock`. -/
inductive ServicePosition where
  | popped
  /-- The task for `self.requests[0]` was created. -/
  | started (request : Numbered)
  /-- `self.connected` was true. -/
  | working (request : Numbered)
  /-- The task has ended with `close_on_finish`. -/
  | closing (request : Numbered)
  /-- The task has ended without it. -/
  | keeping (request : Numbered)
  /-- There was too much data in the outbufs. -/
  | draining (request : Numbered)
  /-- In `outbuf_lock.wait()`; `raised` says that the flush in front of it has raised. -/
  | waiting (request : Numbered) (raised : Bool)
  /-- The request was closed. -/
  | drained (request : Numbered)
  deriving DecidableEq, Repr

def ServicePosition.request : ServicePosition → Option Numbered
  | .popped => none
  | .started request => some request
  | .working request => some request
  | .closing request => some request
  | .keeping request => some request
  | .draining request => some request
  | .waiting request _ => some request
  | .drained request => some request

/-- Where the main thread is. -/
inductive MainPosition where
  | idle
  /-- In `handle_write`, between the two assignments of the flags. -/
  | handingOver
  /-- In `handle_write`, in front of the last test. -/
  | flushed
  /-- In front of a call of `handle_close`. -/
  | failing
  /-- The channel is not in the socket map any more. -/
  | gone
  deriving DecidableEq, Repr

/-- What was appended to the outbufs. -/
inductive Emission where
  | continueLine (number : Nat)
  | response (number : Nat)
  deriving DecidableEq, Repr

structure HTTPChannel where
  output : Output
  /-- A request that has not been received completely. -/
  request : Option Numbered := none
  requests : List Numbered := []
  /-- How often the channel stands in the dispatcher's queue. -/
  pendingTasks : Nat := 0
  /-- The calls of `service` in front of the end of their last section. -/
  running : List ServicePosition := []
  /-- The number of calls behind it. -/
  leaving : Nat := 0
  main : MainPosition := .idle
  nextNumber : Nat := 0
  /-- The numbers of the requests that were appended, and of those that a task was made for. -/
  appended : List Nat := []
  given : List Nat := []
  closed : List Nat := []
  log : List Emission := []
  /-- The requests that `received` has left completed. -/
  finished : List Numbered := []

abbrev ChannelM := Raising Exc HTTPChannel

namespace HTTPChannel

def new (context : ChannelContext) (socket : List SendResult) : HTTPChannel :=
  { output := Output.new context socket }

def isEnding (channel : HTTPChannel) : Bool :=
  channel.output.willClose || channel.output.closeWhenFlushed

def logOutput (channel : HTTPChannel) (output : Output) (emission : Emission) : HTTPChannel :=
  { channel with
    output
    log :=
      if output.written = channel.output.written then channel.log else channel.log ++ [emission] }

section Receiving

variable (context : ChannelContext)

def sendContinue : ChannelM Unit := do
  match (← get).request with
  | none => throw .attributeError
  | some request =>
      modify fun channel =>
        { channel with
          request := some { request with parser.expectContinue := false } }
      let (result, output) := exec (sendContinueOutput context) (← get).output.answering
      modify fun channel => channel.logOutput output (.continueLine request.number)
      MonadExcept.ofExcept result
      modify fun channel =>
        { channel with
          request := some
            { request with parser.expectContinue := false, parser.completed := false } }

/-- Does the current request wait for a line that was not sent yet? -/
def waitsForContinue (channel : HTTPChannel) : Bool :=
  channel.request.any fun request =>
    request.parser.expectContinue && request.parser.headersFinished &&
      !channel.output.sentContinue

def receiveRequest [CPython] (data : Bytes) : ChannelM Nat := do
  let channel ← get
  let request := channel.request.getD { number := channel.nextNumber, parser := {} }
  let (parser, result) := request.parser.received context.adj data
  let request := { request with parser }
  modify fun channel =>
    { channel with
      request := some request
      nextNumber := if channel.request = none then channel.nextNumber + 1 else channel.nextNumber
      finished :=
        if parser.completed = true then channel.finished ++ [request] else channel.finished }
  MonadExcept.ofExcept result

def takeRequest (channel : HTTPChannel) : HTTPChannel :=
  match channel.request with
  | none => channel
  | some request =>
      if request.parser.completed = false then channel
      else
        let channel :=
          { channel with request := none, output.sentContinue := false }
        if request.parser.empty = true then channel
        else
          { channel with
            requests := channel.requests ++ [request]
            appended := channel.appended ++ [request.number]
            pendingTasks :=
              if channel.requests = [] then channel.pendingTasks + 1 else channel.pendingTasks }

/-- While requests are queued the line is kept back, since the responses are in order. -/
def continueIfAlone : ChannelM Unit := do
  let channel ← get
  if channel.requests = [] ∧ channel.waitsForContinue = true then sendContinue context
  else pure ()

/-- One round of the loop; the result is the number of bytes that were consumed. -/
def receiveRound [CPython] (data : Bytes) : ChannelM Nat := do
  let n ← receiveRequest context data
  continueIfAlone context
  modify takeRequest
  return n

/-- The loop of `received`, with at most one round for each byte. -/
def receiveLoop [CPython] : Nat → Bytes → ChannelM Unit
  | 0, _ => pure ()
  | fuel + 1, data => do
      let n ← receiveRound context data
      if n ≥ data.length then pure () else receiveLoop fuel (data.drop n)

def received [CPython] (data : Bytes) : ChannelM Unit := do
  if (← get).isEnding = true then pure () else receiveLoop context data.length data

end Receiving

/-! ### The main thread -/

section Steps

variable (context : ChannelContext)

/-- Where the main thread is once a handler has returned: `handle_close` has taken the
channel from the socket map, and a channel that `cancel` has disconnected is still there. -/
def settledMain (output : Output) : MainPosition :=
  if output.connected = false ∧ output.willClose = false then .gone else .idle

/-- What an exception in `handle_read` leads to. -/
def failIfRaised : Except Exc Unit × HTTPChannel → HTTPChannel
  | (.ok (), channel) => { channel with main := settledMain channel.output }
  | (.error _, channel) => { channel with main := .failing }

def handleRead [CPython] (data : Bytes) (channel : HTTPChannel) : HTTPChannel :=
  failIfRaised (exec (received context data) channel)

theorem handleRead_main [CPython] (data : Bytes) (channel : HTTPChannel) :
    ∃ main, handleRead context data channel =
      { (exec (received context data) channel).2 with main } := by
  rw [handleRead]
  rcases exec (received context data) channel with ⟨result, after⟩
  cases result with
  | ok => exact ⟨_, rfl⟩
  | error exc => exact ⟨_, rfl⟩

/-- `handle_write` up to the first assignment of a flag; `lockable` says that no
task holds the lock of the outbufs. -/
def flushBeforeClose (lockable : Bool) (channel : HTTPChannel) : HTTPChannel :=
  let output :=
    (exec (flushWrite context channel.requests.isEmpty lockable) channel.output.answering).2
  if output.closeWhenFlushed = true ∧ output.totalOutbufsLen = 0 then
    { channel with output := { output with closeWhenFlushed := false }, main := .handingOver }
  else { channel with output, main := .flushed }

/-- The rest of `handle_write`. -/
def closeIfWillClose (channel : HTTPChannel) : HTTPChannel :=
  if channel.output.willClose = true then
    { channel with output := channel.output.handleClose, main := .gone }
  else { channel with main := settledMain channel.output }

/-- What the server's maintenance does to a channel that was idle for long. -/
def maintain (channel : HTTPChannel) : HTTPChannel :=
  if channel.requests = [] then { channel with output.willClose := true } else channel

/-- `cancel`, for a task that was taken from the dispatcher's queue. -/
def cancel (channel : HTTPChannel) : HTTPChannel :=
  { channel with
    output.willClose := true
    output.connected := false
    requests := []
    pendingTasks := channel.pendingTasks - 1 }

/-! ### The calls of `service` -/

def move (i : Nat) (position : ServicePosition) (channel : HTTPChannel) : HTTPChannel :=
  { channel with running := channel.running.set i position }

def escape (i : Nat) (channel : HTTPChannel) : HTTPChannel :=
  { channel with running := channel.running.eraseIdx i }

/-- The call is behind its last section under the lock. -/
def leave (i : Nat) (channel : HTTPChannel) : HTTPChannel :=
  { channel with running := channel.running.eraseIdx i, leaving := channel.leaving + 1 }

def startTask (i : Nat) (channel : HTTPChannel) : HTTPChannel :=
  match channel.requests with
  | [] => channel.escape i
  | request :: _ =>
      move i (.started request) { channel with given := channel.given ++ [request.number] }

def writeSoon (request : Numbered) (data : Payload) (channel : HTTPChannel) : HTTPChannel :=
  channel.logOutput (exec (writeSoonOutput context data) channel.output.answering).2
    (.response request.number)

def endTask (i : Nat) (request : Numbered) (outcome : Except Exc Bool) (channel : HTTPChannel) :
    HTTPChannel :=
  match outcome with
  | .ok true => channel.move i (.closing request)
  | .ok false => channel.move i (.keeping request)
  | .error _ => channel.escape i

/-- The section under the lock if the connection is to be closed. -/
def settle (i : Nat) (channel : HTTPChannel) : HTTPChannel :=
  leave i
    { channel with
      output.closeWhenFlushed := true
      closed := channel.closed ++ channel.requests.map Numbered.number
      requests := [] }

/-- The next request is going to have an outbuf of its own. -/
def Output.nextOutbuf (output : Output) : Output :=
  { output with
    currentOutbufCount :=
      if output.currentOutbufCount > 0 then context.adj.outbufHighWatermark
      else output.currentOutbufCount }

def closeRequest (i : Nat) (request : Numbered) (channel : HTTPChannel) : HTTPChannel :=
  move i (.drained request)
    { channel with
      output := Output.nextOutbuf context channel.output
      closed := channel.closed ++ [request.number] }

/-- Before the next request there should not be too much data in the outbufs; the lock is
not held for this test. -/
def drain (i : Nat) (request : Numbered) (channel : HTTPChannel) : HTTPChannel :=
  if channel.requests.length > 1 ∧
      channel.output.totalOutbufsLen > context.adj.outbufHighWatermark then
    channel.move i (.draining request)
  else closeRequest context i request channel

/-- `_flush_outbufs_below_high_watermark` behind the test, up to a wait. -/
def flushBelow (i : Nat) (request : Numbered) (channel : HTTPChannel) : HTTPChannel :=
  match exec (flushUnderLock context) channel.output.answering with
  | (.ok (.waits raised), output) =>
      move i (.waiting request raised) { channel with output := { output with notified := false } }
  | (_, output) => closeRequest context i request { channel with output }

def wake (i : Nat) (request : Numbered) (raised : Bool) (channel : HTTPChannel) : HTTPChannel :=
  if raised = false ∧ channel.output.connected = true ∧
      channel.output.totalOutbufsLen > context.adj.outbufHighWatermark then
    move i (.waiting request false) { channel with output.notified := false }
  else closeRequest context i request channel

/-- The section under the lock if the connection stays open. -/
def resume (i : Nat) (channel : HTTPChannel) : HTTPChannel :=
  match channel.requests with
  | [] => channel.escape i
  | _ :: requests =>
      let channel := { channel with requests }
      if channel.output.connected = true ∧ requests ≠ [] then
        leave i { channel with pendingTasks := channel.pendingTasks + 1 }
      else if channel.output.connected = true ∧ channel.waitsForContinue = true then
        match exec (sendContinue context) channel with
        | (.ok (), channel) => channel.leave i
        | (.error _, channel) => channel.escape i
      else channel.leave i

inductive Action where
  | read (data : Bytes)
  | readNothing
  | readFails
  | flush (lockable : Bool)
  | handOver
  | close
  | maintain
  | cancel
  | pop
  | startTask (i : Nat)
  | testConnected (i : Nat)
  | write (i : Nat) (data : Payload)
  | endTask (i : Nat) (application : Call AppIter) (surroundings : TaskContext)
  | settle (i : Nat)
  | drain (i : Nat)
  | flushBelow (i : Nat)
  | wake (i : Nat)
  | resume (i : Nat)
  | return_

def next [CPython] (action : Action) (channel : HTTPChannel) : Option HTTPChannel :=
  match action with
  | .read data => if channel.main = .idle then some (handleRead context data channel) else none
  | .readNothing =>
      -- `recv` calls `handle_close`.
      if channel.main = .idle then
        some { channel with output := channel.output.handleClose, main := .gone }
      else none
  | .readFails => if channel.main = .idle then some { channel with main := .failing } else none
  | .flush lockable =>
      if channel.main = .idle then some (flushBeforeClose context lockable channel) else none
  | .handOver =>
      if channel.main = .handingOver then
        some { channel with output.willClose := true, main := .flushed }
      else none
  | .close =>
      match channel.main with
      | .flushed => some channel.closeIfWillClose
      | .failing => some { channel with output := channel.output.handleClose, main := .gone }
      | _ => none
  | .maintain => if channel.main = .idle then some channel.maintain else none
  | .cancel => if channel.pendingTasks > 0 then some channel.cancel else none
  | .pop =>
      if channel.pendingTasks > 0 then
        some
          { channel with
            pendingTasks := channel.pendingTasks - 1
            running := channel.running ++ [.popped] }
      else none
  | .startTask i =>
      match channel.running[i]? with
      | some .popped => some (channel.startTask i)
      | _ => none
  | .testConnected i =>
      match channel.running[i]? with
      | some (.started request) =>
          some (channel.move i
            (if channel.output.connected = true then .working request else .closing request))
      | _ => none
  | .write i data =>
      match channel.running[i]? with
      | some (.working request) => some (writeSoon context request data channel)
      | _ => none
  | .endTask i application surroundings =>
      match channel.running[i]? with
      | some (.working request) =>
          some (channel.endTask i request
            (serveRequest { surroundings with adj := context.adj } application request.parser true))
      | _ => none
  | .settle i =>
      match channel.running[i]? with
      | some (.closing _) => some (channel.settle i)
      | _ => none
  | .drain i =>
      match channel.running[i]? with
      | some (.keeping request) => some (drain context i request channel)
      | _ => none
  | .flushBelow i =>
      match channel.running[i]? with
      | some (.draining request) => some (flushBelow context i request channel)
      | _ => none
  | .wake i =>
      match channel.running[i]?, channel.output.notified with
      | some (.waiting request raised), true => some (wake context i request raised channel)
      | _, _ => none
  | .resume i =>
      match channel.running[i]? with
      | some (.drained _) => some (resume context i channel)
      | _ => none
  | .return_ =>
      if channel.leaving > 0 then some { channel with leaving := channel.leaving - 1 } else none

inductive Steps [CPython] (channel : HTTPChannel) : Action → HTTPChannel → Prop where
  | read {data : Bytes} : channel.main = .idle →
      Steps channel (.read data) (handleRead context data channel)
  | readNothing : channel.main = .idle →
      Steps channel .readNothing
        { channel with output := channel.output.handleClose, main := .gone }
  | readFails : channel.main = .idle → Steps channel .readFails { channel with main := .failing }
  | flush {lockable : Bool} : channel.main = .idle →
      Steps channel (.flush lockable) (flushBeforeClose context lockable channel)
  | handOver : channel.main = .handingOver →
      Steps channel .handOver { channel with output.willClose := true, main := .flushed }
  | close : channel.main = .flushed → Steps channel .close channel.closeIfWillClose
  | closeFailing : channel.main = .failing →
      Steps channel .close { channel with output := channel.output.handleClose, main := .gone }
  | maintain : channel.main = .idle → Steps channel .maintain channel.maintain
  | cancel : channel.pendingTasks > 0 → Steps channel .cancel channel.cancel
  | pop : channel.pendingTasks > 0 →
      Steps channel .pop
        { channel with
          pendingTasks := channel.pendingTasks - 1
          running := channel.running ++ [.popped] }
  | startTask {i : Nat} : channel.running[i]? = some .popped →
      Steps channel (.startTask i) (channel.startTask i)
  | testConnected {i : Nat} {request : Numbered} : channel.running[i]? = some (.started request) →
      Steps channel (.testConnected i)
        (channel.move i
          (if channel.output.connected = true then .working request else .closing request))
  | write {i : Nat} {data : Payload} {request : Numbered} :
      channel.running[i]? = some (.working request) →
      Steps channel (.write i data) (writeSoon context request data channel)
  | endTask {i : Nat} {application : Call AppIter} {surroundings : TaskContext}
      {request : Numbered} : channel.running[i]? = some (.working request) →
      Steps channel (.endTask i application surroundings)
        (channel.endTask i request
          (serveRequest { surroundings with adj := context.adj } application request.parser true))
  | settle {i : Nat} {request : Numbered} : channel.running[i]? = some (.closing request) →
      Steps channel (.settle i) (channel.settle i)
  | drain {i : Nat} {request : Numbered} : channel.running[i]? = some (.keeping request) →
      Steps channel (.drain i) (drain context i request channel)
  | flushBelow {i : Nat} {request : Numbered} : channel.running[i]? = some (.draining request) →
      Steps channel (.flushBelow i) (flushBelow context i request channel)
  | wake {i : Nat} {request : Numbered} {raised : Bool} :
      channel.running[i]? = some (.waiting request raised) → channel.output.notified = true →
      Steps channel (.wake i) (wake context i request raised channel)
  | resume {i : Nat} {request : Numbered} : channel.running[i]? = some (.drained request) →
      Steps channel (.resume i) (resume context i channel)
  | return_ : channel.leaving > 0 →
      Steps channel .return_ { channel with leaving := channel.leaving - 1 }

theorem next_steps [CPython] {action : Action} {channel after : HTTPChannel}
    (taken : next context action channel = some after) : Steps context channel action after := by
  unfold next at taken
  cases action <;> dsimp only at taken <;> split at taken <;> cases taken
  · exact .read (by assumption)
  · exact .readNothing (by assumption)
  · exact .readFails (by assumption)
  · exact .flush (by assumption)
  · exact .handOver (by assumption)
  · exact .close (by assumption)
  · exact .closeFailing (by assumption)
  · exact .maintain (by assumption)
  · exact .cancel (by assumption)
  · exact .pop (by assumption)
  · exact .startTask (by assumption)
  · exact .testConnected (by assumption)
  · exact .write (by assumption)
  · exact .endTask (by assumption)
  · exact .settle (by assumption)
  · exact .drain (by assumption)
  · exact .flushBelow (by assumption)
  · exact .wake (by assumption) (by assumption)
  · exact .resume (by assumption)
  · exact .return_ (by assumption)

end Steps

end HTTPChannel

end Waitress
