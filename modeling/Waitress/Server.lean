import Waitress.Channel.Calls
import Waitress.Library.Dict
import Waitress.Task.Dispatcher
import Waitress.Trigger

/-!
# The server process

The main thread in `wasyncore.poll` over the sockets of one map, and the handler
threads of the dispatcher that all servers share.  What a socket, `select` and
the clock answer is part of the action.  A step of the main thread is one
predicate or one handler of one object; `handle_write` takes the steps that
`HTTPChannel` has for it.  A step of a channel that closes it takes it from the maps
as well: `handle_close` with its `del_channel` is not split, in whatever thread it
runs, although the main thread reads the socket map without waiting for it.
-/

namespace Waitress

open Raising

/-- The parameters of a server; times are in ticks of the clock. -/
structure ServerAdjustments extends Adjustments where
  connectionLimit : Int := 100
  cleanupInterval : Int := 30
  channelTimeout : Int := 120

namespace HTTPChannel

def readable (context : ChannelContext) (channel : HTTPChannel) : Bool :=
  !(channel.output.willClose || channel.output.closeWhenFlushed ||
    decide ((channel.requests.length : Int) > context.adj.channelRequestLookahead) ||
    decide (channel.output.totalOutbufsLen ≠ 0))

def writable (channel : HTTPChannel) : Bool :=
  decide (channel.output.totalOutbufsLen > 0) || channel.output.willClose ||
    channel.output.closeWhenFlushed

/-- Does `write_soon` pull the trigger? -/
def pullsInWrite (context : ChannelContext) (data : Payload) (output : Output) : Bool :=
  if output.connected = false ∨ data.isTrue = false then false
  else
    let (waits, output) := exec (flushOutbufsBelowHighWatermark context) output
    if waits = .ok true then true
    else if output.connected = false then false
    else
      let (appended, output) := exec (appendPayload context data) output
      if appended ≠ .ok () ∨ output.totalOutbufsLen < context.adj.sendBytes then false
      else
        let (result, output) := exec (flushException context false) output
        match result with
        | .ok (flushed, exception) =>
            exception || !flushed || decide (output.totalOutbufsLen ≥ context.adj.sendBytes)
        | .error _ => false

def pulls (context : ChannelContext) (action : Action) (channel : HTTPChannel) : Bool :=
  match action with
  | .write _ data => pullsInWrite context data channel.output.answering
  -- In front of each wait.
  | .flushBelow _ =>
      decide ((exec (flushUnderLock context) channel.output.answering).1 ≠ .ok .below)
  | .wake i =>
      match channel.running[i]? with
      | some (.waiting _ false) =>
          channel.output.connected &&
            decide (channel.output.totalOutbufsLen > context.adj.outbufHighWatermark)
      | _ => false
  | .return_ => channel.output.connected
  | _ => false

def touches (action : Action) (pulled : Bool) (before after : HTTPChannel) : Bool :=
  match action with
  | .read _ => true
  | .cancel => true
  | .return_ => pulled
  | _ => decide (before.output.accepted.length < after.output.accepted.length)

def closes (action : Action) (before after : HTTPChannel) : Bool :=
  match action with
  | .cancel => false
  | _ => before.output.connected && !after.output.connected

def isHandled (channel : HTTPChannel) : Bool :=
  decide (channel.main = .idle ∨ channel.main = .gone)

end HTTPChannel

/-- A channel with what concerns its server. -/
structure Connection where
  context : ChannelContext
  /-- The number of the server that has accepted it. -/
  server : Nat
  fileno : Option Nat
  lastActivity : Int
  channel : HTTPChannel
  /-- When the channel took its last step of any kind. -/
  lastStep : Int

def Connection.new (i fileno : Nat) (context : ChannelContext) (socket : List SendResult)
    (now : Int) : Connection where
  context := context
  server := i
  fileno := some fileno
  lastActivity := now
  channel := .new context socket
  lastStep := now

structure BaseWSGIServer where
  fileno : Option Nat := none
  accepting : Bool := true
  inConnectionOverflow : Bool := false
  nextChannelCleanup : Int := 0
  activeChannels : Dict Nat Nat := {}
  triggerFileno : Option Nat := none
  /-- Nothing passes a callback. -/
  trigger : Trigger Empty := {}

/-- `readable` behind the maintenance, where `size` is the length of the map. -/
def BaseWSGIServer.readable (adj : ServerAdjustments) (size : Nat) (server : BaseWSGIServer) :
    Bool × BaseWSGIServer :=
  if server.accepting = true then
    if server.inConnectionOverflow = false ∧ (size : Int) ≥ adj.connectionLimit then
      (false, { server with inConnectionOverflow := true })
    else if server.inConnectionOverflow = true ∧ (size : Int) < adj.connectionLimit then
      (true, { server with inConnectionOverflow := false })
    else (!server.inConnectionOverflow, server)
  else (false, server)

inductive Registered where
  | server (i : Nat)
  | trigger (i : Nat)
  | channel (id : Nat)
  deriving DecidableEq, Repr

/-- Where the main thread is in `loop`. -/
inductive LoopPosition where
  /-- In the loop over the items of the map, behind `readable` of the first one if
  that is known; when no items are left, in `select`. -/
  | gathering (items : List (Nat × Registered)) (isReadable : Option Bool) (r w e : List Nat)
  /-- In the loops behind `select`, possibly in a handler of a channel. -/
  | handling (busy : Option Nat) (r w e : List Nat)
  /-- The loop was left by an exception. -/
  | ended
  deriving DecidableEq, Repr

inductive Serving where
  | calling (id : Nat)
  /-- The call of `service` is behind its last section. -/
  | returning (id : Nat)
  deriving DecidableEq, Repr

structure Process where
  map : Dict Nat Registered := {}
  server : Nat → BaseWSGIServer := fun _ => {}
  connection : Nat → Option Connection := fun _ => none
  nextId : Nat := 0
  pool : ThreadedTaskDispatcher Nat := {}
  serving : Nat → Option Serving := fun _ => none
  loop : LoopPosition := .handling none [] [] []
  /-- When the last step was taken. -/
  clock : Int := 0

namespace Process

def setServer (i : Nat) (server : BaseWSGIServer) (process : Process) : Process :=
  { process with server := Function.update process.server i server }

def setConnection (id : Nat) (connection : Connection) (process : Process) : Process :=
  { process with connection := Function.update process.connection id (some connection) }

def setServing (threadNo : Nat) (serving : Option Serving) (process : Process) : Process :=
  { process with serving := Function.update process.serving threadNo serving }

/-! ### Creation -/

/-- `__init__` registers the trigger and then the socket. -/
def addServer (i triggerFileno fileno : Nat) (process : Process) : Process :=
  setServer i { fileno := some fileno, triggerFileno := some triggerFileno }
    { process with map := (process.map.set triggerFileno (.trigger i)).set fileno (.server i) }

/-- The servers for a list of descriptors, with the numbers from `i` on. -/
def addServers : Nat → List (Nat × Nat) → Process → Process
  | _, [], process => process
  | i, filenos :: rest, process => addServers (i + 1) rest (addServer i filenos.1 filenos.2 process)

/-- `create_server`; each socket comes with the descriptor of its trigger. -/
def createServer (threads : Nat) (filenos : List (Nat × Nat)) : Process :=
  addServers 0 filenos { pool := ThreadedTaskDispatcher.setThreadCount threads {} }

/-! ### Channels -/

/-- `add_channel` for a new channel. -/
def addChannel (i fileno : Nat) (context : ChannelContext) (socket : List SendResult) (now : Int)
    (process : Process) : Process :=
  let server := process.server i
  setServer i { server with activeChannels := server.activeChannels.set fileno process.nextId }
    (setConnection process.nextId (.new i fileno context socket now)
      { process with
        map := process.map.set fileno (.channel process.nextId)
        nextId := process.nextId + 1 })

/-- `del_channel`, where `self._fileno` is the descriptor. -/
def delChannel (id fileno : Nat) (connection : Connection) (process : Process) : Process :=
  let server := process.server connection.server
  setServer connection.server
    { server with activeChannels := server.activeChannels.erase fileno }
    (setConnection id { connection with fileno := none }
      { process with map := process.map.erase fileno })

def addTasks (id : Nat) (woken : Option Nat) (before after : HTTPChannel)
    (pool : ThreadedTaskDispatcher Nat) : Option (ThreadedTaskDispatcher Nat) :=
  if before.pendingTasks < after.pendingTasks then pool.addTask id woken else some pool

def pullTrigger (i : Nat) (process : Process) : Bool × Process :=
  let server := process.server i
  match server.trigger.physicalPull with
  | .ok trigger => (true, process.setServer i { server with trigger })
  | .error _ => (false, process)

section

variable [CPython] (adj : ServerAdjustments)

/-- The channel of a connection takes a step.  If that closes it, it is taken from the
maps, in whatever thread this happens. -/
def act (id : Nat) (action : HTTPChannel.Action) (now : Int) (woken : Option Nat)
    (process : Process) : Option Process := do
  let connection ← process.connection id
  let channel ← HTTPChannel.next connection.context action connection.channel
  let pool ← addTasks id woken connection.channel channel process.pool
  let (pulled, process) :=
    if connection.channel.pulls connection.context action = true then
      pullTrigger connection.server process
    else (true, process)
  let lastActivity :=
    if connection.channel.touches action pulled channel = true then now
    else connection.lastActivity
  let after := { connection with channel, lastActivity, lastStep := now }
  let process := setConnection id after { process with pool }
  match connection.fileno with
  | some fileno =>
      if connection.channel.closes action channel = true then
        some (process.delChannel id fileno after)
      else some process
  | none => some process

/-- The main thread takes a step in a handler of the channel. -/
def handle (id : Nat) (action : HTTPChannel.Action) (now : Int) (woken : Option Nat)
    (r w e : List Nat) (process : Process) : Option Process := do
  let process ← process.act id action now woken
  let connection ← process.connection id
  return { process with
    loop := .handling (if connection.channel.isHandled = true then none else some id) r w e }

/-! ### The loop over the items -/

def maintenance (i : Nat) (now : Int) (process : Process) : Process :=
  { process with
    connection := fun id =>
      (process.connection id).map fun connection =>
        if id ∈ (process.server i).activeChannels.entries.map Prod.snd ∧
            connection.lastActivity < now - adj.channelTimeout then
          { connection with channel := connection.channel.maintain }
        else connection }

/-- The first part of `readable` of a server. -/
def cleanUp (i : Nat) (now : Int) (process : Process) : Process :=
  let server := process.server i
  if now ≥ server.nextChannelCleanup then
    maintenance adj i now
      (process.setServer i { server with nextChannelCleanup := now + adj.cleanupInterval })
  else process

def testReadable (now : Int) (process : Process) : Registered → Option (Bool × Process)
  | .server i =>
      let process := process.cleanUp adj i now
      let (isReadable, server) := (process.server i).readable adj process.map.entries.length
      some (isReadable, process.setServer i server)
  | .trigger _ => some (true, process)
  | .channel id =>
      (process.connection id).map fun connection =>
        (connection.channel.readable connection.context, process)

/-- `writable`, which for an accepting socket does not count. -/
def testWritable (process : Process) : Registered → Option Bool
  | .server _ => some false
  | .trigger _ => some false
  | .channel id => (process.connection id).map fun connection => connection.channel.writable

def appendIf (condition : Bool) (fileno : Nat) (filenos : List Nat) : List Nat :=
  if condition = true then filenos ++ [fileno] else filenos

/-! ### Handlers of the other objects -/

def eraseFileno (fileno : Option Nat) (map : Dict Nat Registered) : Dict Nat Registered :=
  match fileno with
  | none => map
  | some fileno => map.erase fileno

/-- `close` of a server, which closes its trigger too. -/
def closeServer (i : Nat) (process : Process) : Process :=
  let server := process.server i
  setServer i
    { server with
      fileno := none, accepting := false, triggerFileno := none, trigger := server.trigger.close }
    { process with
      map := eraseFileno server.fileno (eraseFileno server.triggerFileno process.map) }

def readTrigger (i : Nat) (process : Process) : Process :=
  let server := process.server i
  match server.trigger.recv with
  | .ok trigger => process.setServer i { server with trigger }
  | .error _ => process

/-- What a socket answers when it is read from. -/
inductive ReadEvent where
  | data (data : Bytes)
  /-- The end of the stream, or an error that means it. -/
  | closed
  /-- Any other exception. -/
  | fails
  /-- Another connection, with its descriptor. -/
  | accepted (fileno sendbufLen : Nat) (socket : List SendResult)
  /-- Nothing that changes anything. -/
  | nothing

/-- `handle_read_event` of the object that the map has for the descriptor, if any. -/
def handleRead (fileno : Nat) (event : ReadEvent) (now : Int) (woken : Option Nat)
    (r w e : List Nat) (process : Process) : Option Process :=
  match process.map.get? fileno, event with
  | none, _ => some { process with loop := .handling none r w e }
  | some (.server i), .accepted accepted sendbufLen socket =>
      -- A descriptor in use is not given out again.
      if process.map.get? accepted = none then
        some { process.addChannel i accepted { adj := adj.toAdjustments, sendbufLen } socket now with
          loop := .handling none r w e }
      else none
  | some (.server _), .nothing => some { process with loop := .handling none r w e }
  | some (.server i), .fails => some { process.closeServer i with loop := .handling none r w e }
  | some (.trigger i), .nothing => some { process.readTrigger i with loop := .handling none r w e }
  | some (.channel id), .data data =>
      if data = [] then none else process.handle id (.read data) now woken r w e
  | some (.channel id), .closed => process.handle id .readNothing now woken r w e
  | some (.channel id), .fails => process.handle id .readFails now woken r w e
  | _, _ => none

def handleWrite (fileno : Nat) (lockable : Bool) (now : Int) (w e : List Nat) (process : Process) :
    Option Process :=
  match process.map.get? fileno with
  | some (.channel id) => process.handle id (.flush lockable) now none [] w e
  | _ => some { process with loop := .handling none [] w e }

def handleExpt (fileno : Nat) (failed : Bool) (now : Int) (e : List Nat) (process : Process) :
    Option Process :=
  match process.map.get? fileno, failed with
  | some (.server i), true => some { process.closeServer i with loop := .handling none [] [] e }
  -- `handle_close`, as behind a read of nothing.
  | some (.channel id), true => process.handle id .readNothing now none [] [] e
  | _, _ => some { process with loop := .handling none [] [] e }

/-! ### Handler threads -/

/-- What the thread does once the call of `service` has taken a step. -/
def Serving.go (id : Nat) (before after : HTTPChannel) : Option Serving :=
  if before.leaving < after.leaving then some (.returning id)
  else if after.running.length < before.running.length then none
  else some (.calling id)

/-- A step of the call of `service` that the thread is in. -/
def service (threadNo : Nat) (action : HTTPChannel.Action) (now : Int) (woken : Option Nat)
    (process : Process) : Option Process :=
  match process.serving threadNo with
  | some (.calling id) =>
      if action.isService = true then do
        let connection ← process.connection id
        let after ← process.act id action now woken
        let served ← after.connection id
        return after.setServing threadNo (Serving.go id connection.channel served.channel)
      else none
  | some (.returning id) =>
      (process.act id .return_ now woken).map (setServing threadNo none)
  | none => none

/-- A handler thread takes the lock, unless it is in a call. -/
def handlerThread (threadNo : Nat) (now : Int) (process : Process) : Option Process :=
  if process.serving threadNo = none then do
    let pool ← process.pool.handlerThread threadNo
    match process.pool.queue with
    | [] => some { process with pool }
    | id :: queue =>
        -- Has the thread taken the task?
        if pool.queue = queue then
          (process.act id .pop now none).map fun process =>
            setServing threadNo (some (.calling id)) { process with pool }
        else some { process with pool }
  else none

def cancelTasks (now : Int) : List Nat → Process → Option Process
  | [], process => some process
  | id :: rest, process => (process.act id .cancel now none).bind (cancelTasks now rest)

/-! ### The steps -/

inductive Action where
  | testReadable
  | testWritable
  | select (r w e : List Nat)
  | handleRead (event : ReadEvent) (woken : Option Nat)
  | handleWrite (lockable : Bool)
  | handleExpt (failed : Bool)
  /-- The handler of a channel goes on. -/
  | proceed (action : HTTPChannel.Action)
  | poll
  | interrupt
  | setThreadCount (count : Nat)
  | cancelPending
  | handlerThread (threadNo : Nat)
  | service (threadNo : Nat) (action : HTTPChannel.Action) (woken : Option Nat)

/-- No handler thread has closed one of the descriptors meanwhile. -/
def AllOpen (filenos : List Nat) (process : Process) : Prop :=
  ∀ fileno ∈ filenos, process.map.get? fileno ≠ none

instance (filenos : List Nat) (process : Process) : Decidable (process.AllOpen filenos) :=
  List.decidableBAll _ _

def perform (now : Int) (action : Action) (process : Process) : Option Process :=
  match action, process.loop with
  | .testReadable, .gathering (item :: items) none r w e =>
      (process.testReadable adj now item.2).map fun tested =>
        { tested.2 with loop := .gathering (item :: items) (some tested.1) r w e }
  | .testWritable, .gathering (item :: items) (some isReadable) r w e =>
      (process.testWritable item.2).map fun isWritable =>
        { process with
          loop := .gathering items none (appendIf isReadable item.1 r) (appendIf isWritable item.1 w)
            (appendIf (isReadable || isWritable) item.1 e) }
  | .select r' w' e', .gathering [] _ r w e =>
      if process.AllOpen (r ++ w ++ e) then
        -- `select` keeps the order.
        if r'.Sublist r ∧ w'.Sublist w ∧ e'.Sublist e then
          some { process with loop := .handling none r' w' e' }
        else none
      -- A bad descriptor is an exception that `poll` raises again.
      else some { process with loop := .ended }
  | .handleRead event woken, .handling none (fileno :: r) w e =>
      process.handleRead adj fileno event now woken r w e
  | .handleWrite lockable, .handling none [] (fileno :: w) e =>
      process.handleWrite fileno lockable now w e
  | .handleExpt failed, .handling none [] [] (fileno :: e) =>
      process.handleExpt fileno failed now e
  | .proceed action, .handling (some id) r w e =>
      if action matches .handOver | .close then process.handle id action now none r w e else none
  | .poll, .handling none [] [] [] =>
      some { process with loop := .gathering process.map.entries none [] [] [] }
  | .interrupt, _ => some { process with loop := .ended }
  -- The parts of `shutdown`.
  | .setThreadCount count, .ended => some { process with pool := process.pool.setThreadCount count }
  | .cancelPending, .ended =>
      (cancelTasks now process.pool.queue process).map fun process =>
        { process with pool := process.pool.cancelPending }
  | .handlerThread threadNo, _ => process.handlerThread threadNo now
  | .service threadNo action woken, _ => process.service threadNo action now woken
  | _, _ => none

/-- What the main thread does behind `select`, where `r'` are the descriptors that were
left to be read from. -/
inductive Handled (now : Int) (process : Process) (busy : Option Nat) (r' r w e : List Nat) :
    Process → Prop where
  | nothing : busy = none →
      Handled now process busy r' r w e { process with loop := .handling none r w e }
  | accepts {i fileno accepted sendbufLen : Nat} {socket : List SendResult} :
      busy = none → r' = fileno :: r → process.map.get? fileno = some (.server i) →
      process.map.get? accepted = none →
      Handled now process busy r' r w e
        { process.addChannel i accepted { adj := adj.toAdjustments, sendbufLen } socket now with
          loop := .handling none r w e }
  | closeServer {i : Nat} : busy = none →
      Handled now process busy r' r w e { process.closeServer i with loop := .handling none r w e }
  | readTrigger {i : Nat} : busy = none →
      Handled now process busy r' r w e { process.readTrigger i with loop := .handling none r w e }
  | channel {id : Nat} {action : HTTPChannel.Action} {woken : Option Nat} {after : Process} :
      busy = none ∨ busy = some id → process.handle id action now woken r w e = some after →
      action.IsMain →
      Handled now process busy r' r w e after

inductive Steps (now : Int) (process : Process) : Action → Process → Prop where
  | testReadable {item : Nat × Registered} {items : List (Nat × Registered)} {r w e : List Nat}
      {tested : Bool × Process} : process.loop = .gathering (item :: items) none r w e →
      process.testReadable adj now item.2 = some tested →
      Steps now process .testReadable
        { tested.2 with loop := .gathering (item :: items) (some tested.1) r w e }
  | testWritable {item : Nat × Registered} {items : List (Nat × Registered)} {r w e : List Nat}
      {isReadable isWritable : Bool} :
      process.loop = .gathering (item :: items) (some isReadable) r w e →
      process.testWritable item.2 = some isWritable →
      Steps now process .testWritable
        { process with
          loop := .gathering items none (appendIf isReadable item.1 r) (appendIf isWritable item.1 w)
            (appendIf (isReadable || isWritable) item.1 e) }
  | select {isReadable : Option Bool} {r w e r' w' e' : List Nat} :
      process.loop = .gathering [] isReadable r w e → process.AllOpen (r ++ w ++ e) →
      r'.Sublist r → w'.Sublist w → e'.Sublist e →
      Steps now process (.select r' w' e') { process with loop := .handling none r' w' e' }
  | selectFails {isReadable : Option Bool} {r w e r' w' e' : List Nat} :
      process.loop = .gathering [] isReadable r w e → ¬ process.AllOpen (r ++ w ++ e) →
      Steps now process (.select r' w' e') { process with loop := .ended }
  | handled {action : Action} {busy : Option Nat} {r' w' e' r w e : List Nat} {after : Process} :
      process.loop = .handling busy r' w' e' → r <:+ r' →
      Handled adj now process busy r' r w e after →
      Steps now process action after
  | poll : process.loop = .handling none [] [] [] →
      Steps now process .poll
        { process with loop := .gathering process.map.entries none [] [] [] }
  | interrupt : Steps now process .interrupt { process with loop := .ended }
  | setThreadCount {count : Nat} : process.loop = .ended →
      Steps now process (.setThreadCount count)
        { process with pool := process.pool.setThreadCount count }
  | cancelPending {after : Process} : process.loop = .ended →
      cancelTasks now process.pool.queue process = some after →
      Steps now process .cancelPending { after with pool := after.pool.cancelPending }
  | handlerThread {threadNo : Nat} {after : Process} :
      process.handlerThread threadNo now = some after →
      Steps now process (.handlerThread threadNo) after
  | service {threadNo : Nat} {action : HTTPChannel.Action} {woken : Option Nat} {after : Process} :
      process.service threadNo action now woken = some after →
      Steps now process (.service threadNo action woken) after

variable {now : Int} {process after : Process}

theorem handleRead_handled {fileno : Nat} {event : ReadEvent} {woken : Option Nat}
    {r w e : List Nat}
    (done : process.handleRead adj fileno event now woken r w e = some after) :
    Handled adj now process none (fileno :: r) r w e after := by
  unfold handleRead at done
  split at done
  · cases done
    exact .nothing rfl
  · rename_i isServer
    split at done
    · rename_i free
      cases done
      exact .accepts rfl rfl isServer free
    · cases done
  · cases done
    exact .nothing rfl
  · cases done
    exact .closeServer rfl
  · cases done
    exact .readTrigger rfl
  · split at done
    · cases done
    · exact .channel (.inl rfl) done trivial
  · exact .channel (.inl rfl) done trivial
  · exact .channel (.inl rfl) done trivial
  · cases done

theorem handleWrite_handled {fileno : Nat} {lockable : Bool} {w e : List Nat}
    (done : process.handleWrite fileno lockable now w e = some after) :
    Handled adj now process none [] [] w e after := by
  unfold handleWrite at done
  split at done
  · exact .channel (.inl rfl) done trivial
  · cases done
    exact .nothing rfl

theorem handleExpt_handled {fileno : Nat} {failed : Bool} {e : List Nat}
    (done : process.handleExpt fileno failed now e = some after) :
    Handled adj now process none [] [] [] e after := by
  unfold handleExpt at done
  split at done
  · cases done
    exact .closeServer rfl
  · exact .channel (.inl rfl) done trivial
  · cases done
    exact .nothing rfl

theorem perform_steps {action : Action} (taken : process.perform adj now action = some after) :
    Steps adj now process action after := by
  unfold perform at taken
  split at taken
  · rename_i at_
    obtain ⟨tested, isReadable, rfl⟩ := Option.map_eq_some_iff.mp taken
    exact .testReadable at_ isReadable
  · rename_i at_
    obtain ⟨isWritable, tested, rfl⟩ := Option.map_eq_some_iff.mp taken
    exact .testWritable at_ tested
  · rename_i at_
    split at taken
    · rename_i allOpen
      split at taken
      · rename_i sublists
        cases taken
        exact .select at_ allOpen sublists.1 sublists.2.1 sublists.2.2
      · cases taken
    · rename_i closed
      cases taken
      exact .selectFails at_ closed
  · rename_i at_
    exact .handled at_ (List.suffix_cons _ _) (handleRead_handled adj taken)
  · rename_i at_
    exact .handled at_ (List.suffix_refl _) (handleWrite_handled adj taken)
  · rename_i at_
    exact .handled at_ (List.suffix_refl _) (handleExpt_handled adj taken)
  · rename_i at_
    split at taken
    · exact .handled at_ (List.suffix_refl _) (.channel (.inr rfl) taken trivial)
    · exact .handled at_ (List.suffix_refl _) (.channel (.inr rfl) taken trivial)
    · cases taken
  · rename_i at_
    cases taken
    exact .poll at_
  · cases taken
    exact .interrupt
  · rename_i at_
    cases taken
    exact .setThreadCount at_
  · rename_i at_
    obtain ⟨cancelled, done, rfl⟩ := Option.map_eq_some_iff.mp taken
    exact .cancelPending at_ done
  · exact .handlerThread taken
  · exact .service taken
  · cases taken

def next (step : Int × Action) (process : Process) : Option Process :=
  (process.perform adj step.1 step.2).map fun process => { process with clock := step.1 }

end

end Process

end Waitress
