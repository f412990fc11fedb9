import Waitress.Server.Registry

/-!
# The main thread and the channels

While the loop runs, a channel has its descriptor exactly as long as it is connected,
and the main thread is in a handler of at most one connected channel.
-/

namespace Waitress.Process

/-- The channel in whose handler the main thread is. -/
def busy (process : Process) : Option Nat :=
  match process.loop with
  | .handling busy _ _ _ => busy
  | _ => none

/-- What holds of the channels while the loop runs. -/
structure Attached (busy : Option Nat) (process : Process) : Prop where
  registered : ∀ id connection, process.connection id = some connection →
    (connection.fileno ≠ none ↔ connection.channel.output.connected = true)
  idle : ∀ id connection, process.connection id = some connection →
    connection.channel.output.connected = true → busy ≠ some id →
      connection.channel.main = .idle

theorem Attached.of_same {busy : Option Nat} {process after : Process}
    (attached : process.Attached busy) (same : after.connection = process.connection) :
    after.Attached busy := by
  obtain ⟨registered, idle⟩ := attached
  exact ⟨same ▸ registered, same ▸ idle⟩

section

variable [CPython] {id : Nat} {action : HTTPChannel.Action} {now : Int} {woken : Option Nat}
  {process final : Process} {before after : Connection}

theorem Leaves.registered (leaves : Leaves id action now woken process before after final)
    (notCancel : action ≠ .cancel)
    (registered : before.fileno ≠ none ↔ before.channel.output.connected = true) :
    after.fileno ≠ none ↔ after.channel.output.connected = true := by
  have lost : after.channel.output.connected = true → before.channel.output.connected = true :=
    HTTPChannel.next_connected before.context leaves.taken
  have closes : before.channel.closes action after.channel =
      (before.channel.output.connected && !after.channel.output.connected) := by
    cases action with
    | cancel => exact absurd rfl notCancel
    | _ => rfl
  rcases leaves.fileno with ⟨same, stays⟩ | ⟨gone, closed⟩
  · rw [same]
    rw [closes] at stays
    grind
  · rw [closes] at closed
    grind

theorem Attached.act {busy : Option Nat} (attached : process.Attached busy)
    (leaves : Leaves id action now woken process before after final) (notCancel : action ≠ .cancel)
    {busyAfter : Option Nat}
    (others : ∀ other, other ≠ id → busyAfter ≠ some other → busy ≠ some other)
    (idle : after.channel.output.connected = true → busyAfter ≠ some id →
      after.channel.main = .idle) : final.Attached busyAfter := by
  refine ⟨fun other connection found => ?_, fun other connection found connected notBusy => ?_⟩
  · by_cases same : other = id
    · rw [same, leaves.connection_self] at found
      cases found
      exact leaves.registered notCancel (attached.registered id before leaves.found)
    · rw [leaves.connection_of_ne same] at found
      exact attached.registered other connection found
  · by_cases same : other = id
    · rw [same, leaves.connection_self] at found
      cases found
      exact idle connected (same ▸ notBusy)
    · rw [leaves.connection_of_ne same] at found
      exact attached.idle other connection found connected (others other same notBusy)

theorem Attached.worker {busy : Option Nat} (attached : process.Attached busy)
    (leaves : Leaves id action now woken process before after final) (notCancel : action ≠ .cancel)
    (main : after.channel.main = before.channel.main) : final.Attached busy := by
  refine attached.act leaves notCancel (fun _ _ notBusy => notBusy) fun connected notBusy => ?_
  rw [main]
  refine attached.idle id before leaves.found ?_ notBusy
  exact HTTPChannel.next_connected before.context leaves.taken connected

theorem Attached.handle (attached : process.Attached process.busy) {r w e : List Nat}
    (done : process.handle id action now woken r w e = some final) (isMain : action.IsMain)
    (alone : process.busy = none ∨ process.busy = some id) :
    final.Attached final.busy := by
  obtain ⟨middle, acted, done⟩ := Option.bind_eq_some_iff.mp done
  obtain ⟨connection, found, done⟩ := Option.bind_eq_some_iff.mp done
  cases done
  obtain ⟨before, after, leaves⟩ := act_leaves acted
  obtain rfl := Option.some.inj (leaves.connection_self.symm.trans found)
  have notCancel : action ≠ .cancel := by
    rintro rfl
    exact isMain
  have moved : middle.Attached (if after.channel.isHandled = true then none else some id) := by
    refine attached.act leaves notCancel (fun other different notBusy => ?_)
      fun connected notBusy => ?_
    · rcases alone with none | one
      · rw [none]
        exact (Option.some_ne_none other).symm
      · rw [one]
        exact fun same => different (Option.some.inj same).symm
    · split at notBusy
      · rename_i handled
        refine (of_decide_eq_true handled).resolve_right fun gone => ?_
        have closed := HTTPChannel.main_gone before.context isMain leaves.taken gone
        exact Bool.false_ne_true (closed.symm.trans connected)
      · exact absurd rfl notBusy
  exact moved.of_same rfl

variable {adj : ServerAdjustments}

omit [CPython] in
theorem Attached.cleanUp {busy : Option Nat} (attached : process.Attached busy) (i : Nat) :
    (process.cleanUp adj i now).Attached busy := by
  have kept : ∀ {id after}, (process.cleanUp adj i now).connection id = some after →
      ∃ before, process.connection id = some before ∧ after.fileno = before.fileno ∧
        after.channel.output.connected = before.channel.output.connected ∧
        after.channel.main = before.channel.main := by
    intro id after found
    rcases @cleanUp_connection adj now i id process with same | ⟨before, was, -, -, cleaned⟩
    · exact ⟨after, same.symm.trans found, rfl, rfl, rfl⟩
    · rw [cleaned] at found
      cases found
      refine ⟨before, was, rfl, ?_⟩
      dsimp only
      unfold HTTPChannel.maintain
      split
      · exact ⟨rfl, rfl⟩
      · exact ⟨rfl, rfl⟩
  refine ⟨fun id after found => ?_, fun id after found connected notBusy => ?_⟩
  · obtain ⟨before, was, fileno, connected, -⟩ := kept found
    rw [fileno, connected]
    exact attached.registered id before was
  · obtain ⟨before, was, -, same, main⟩ := kept found
    rw [main]
    exact attached.idle id before was (same ▸ connected) notBusy

omit [CPython] in
theorem Attached.testReadable {busy : Option Nat} (attached : process.Attached busy)
    {registered : Registered} {tested : Bool × Process}
    (done : process.testReadable adj now registered = some tested) : tested.2.Attached busy := by
  cases testReadable_tests done with
  | @server i inConnectionOverflow cleaned same =>
      have cleanedUp := @Attached.cleanUp now process adj busy attached i
      rw [← same] at cleanedUp
      exact cleanedUp.of_same rfl
  | other => exact attached

omit [CPython] in
theorem Attached.addChannel {busy : Option Nat} (attached : process.Attached busy)
    (i fileno : Nat) (context : ChannelContext) (socket : List SendResult) :
    (process.addChannel i fileno context socket now).Attached busy := by
  refine ⟨fun id connection found => ?_, fun id connection found connected notBusy => ?_⟩
  · by_cases same : id = process.nextId
    · rw [same, addChannel_connection_self] at found
      cases found
      exact ⟨fun _ => rfl, fun _ => Option.some_ne_none _⟩
    · rw [addChannel_connection_of_ne _ same] at found
      exact attached.registered id connection found
  · by_cases same : id = process.nextId
    · rw [same, addChannel_connection_self] at found
      cases found
      rfl
    · rw [addChannel_connection_of_ne _ same] at found
      exact attached.idle id connection found connected notBusy

theorem Attached.handled (attached : process.Attached process.busy) {busy : Option Nat}
    (same : process.busy = busy) {r' r w e : List Nat}
    (done : Handled adj now process busy r' r w e final) : final.Attached final.busy := by
  subst same
  have loop : ∀ {middle : Process}, middle.Attached process.busy → process.busy = none →
      ({ middle with loop := .handling none r w e } : Process).Attached none := by
    intro middle kept free
    rw [free] at kept
    exact kept.of_same rfl
  cases done with
  | nothing free => exact loop attached free
  | accepts free => exact loop (attached.addChannel _ _ _ _) free
  | closeServer free => exact loop (attached.of_same rfl) free
  | @readTrigger i free =>
      obtain ⟨server, read⟩ := readTrigger_eq i process
      rw [read]
      exact loop (attached.of_same rfl) free
  | channel alone done isMain => exact attached.handle done isMain alone

theorem Attached.service {busy : Option Nat} (attached : process.Attached busy) {threadNo : Nat}
    (done : process.service threadNo action now woken = some final) : final.Attached busy := by
  cases service_serves done with
  | @calls id middle before after calling isService acted leaves =>
      have served := (HTTPChannel.service_serviceStep before.context isService leaves.taken).2
      refine (attached.worker leaves ?_ served.main).of_same rfl
      rintro rfl
      cases isService
  | @returns id middle before after returning acted leaves =>
      have returned := (HTTPChannel.next_return_ before.context leaves.taken).2
      exact (attached.worker leaves nofun (by rw [returned])).of_same rfl

theorem Attached.handlerThread {busy : Option Nat} (attached : process.Attached busy)
    {threadNo : Nat} (done : process.handlerThread threadNo now = some final) :
    final.Attached busy := by
  cases handlerThread_takes done with
  | @task id queue pool middle before after free handled first taken acted leaves =>
      have popped := (HTTPChannel.next_pop before.context leaves.taken).2
      have kept := attached.worker leaves nofun (by rw [popped])
      exact kept.of_same rfl
  | other => exact attached.of_same rfl

theorem service_loop {threadNo : Nat}
    (done : process.service threadNo action now woken = some final) :
    final.loop = process.loop := by
  cases service_serves done with
  | calls calling isService acted leaves => exact leaves.loop
  | returns returning acted leaves => exact leaves.loop

theorem handlerThread_loop {threadNo : Nat}
    (done : process.handlerThread threadNo now = some final) : final.loop = process.loop := by
  cases handlerThread_takes done with
  | task free handled first taken acted leaves => exact leaves.loop
  | other => rfl

theorem cancelTasks_loop {ids : List Nat} (done : cancelTasks now ids process = some final) :
    final.loop = process.loop := by
  induction ids generalizing process with
  | nil =>
      cases done
      rfl
  | cons id ids inductionHypothesis =>
      obtain ⟨middle, acted, rest⟩ := Option.bind_eq_some_iff.mp done
      obtain ⟨before, after, leaves⟩ := act_leaves acted
      exact (inductionHypothesis rest).trans leaves.loop

/-- The sockets while the loop runs and behind it. -/
structure Connected (process : Process) : Prop where
  registry : process.Registry
  attached : process.loop ≠ .ended → process.Attached process.busy

/-- Once the loop is over, the main thread does not come back. -/
theorem Connected.perform (connected : process.Connected) {action : Action}
    (taken : process.perform adj now action = some final) : final.Connected := by
  refine ⟨connected.registry.perform adj taken, fun runs => ?_⟩
  have attached := connected.attached
  cases perform_steps adj taken with
  | testReadable at_ tested =>
      have kept := attached (by rw [at_]; exact nofun)
      rw [busy, at_] at kept
      exact (kept.testReadable tested).of_same rfl
  | testWritable at_ tested =>
      have kept := attached (by rw [at_]; exact nofun)
      rw [busy, at_] at kept
      exact kept.of_same rfl
  | select at_ allOpen r w e =>
      have kept := attached (by rw [at_]; exact nofun)
      rw [busy, at_] at kept
      exact kept.of_same rfl
  | handled at_ suffix done =>
      have kept := attached (by rw [at_]; exact nofun)
      exact kept.handled (by rw [busy, at_]) done
  | poll at_ =>
      have kept := attached (by rw [at_]; exact nofun)
      rw [busy, at_] at kept
      exact kept.of_same rfl
  | selectFails | interrupt => exact absurd rfl runs
  | setThreadCount at_ => exact absurd at_ runs
  | cancelPending at_ done => exact absurd ((cancelTasks_loop done).trans at_) runs
  | handlerThread done =>
      have same := handlerThread_loop done
      rw [busy, same]
      exact (attached (same ▸ runs)).handlerThread done
  | service done =>
      have same := service_loop done
      rw [busy, same]
      exact (attached (same ▸ runs)).service done

theorem Connected.next {step : Int × Action} (connected : process.Connected)
    (taken : process.next adj step = some final) : final.Connected := by
  obtain ⟨after, performed, rfl⟩ := Option.map_eq_some_iff.mp taken
  obtain ⟨registry, attached⟩ := connected.perform performed
  exact ⟨registry.of_same ⟨rfl, rfl, fun _ => rfl, fun _ => rfl⟩,
    fun runs => (attached runs).of_same rfl⟩

omit [CPython] in
theorem Connected.created (threads : Nat) {filenos : List (Nat × Nat)}
    (distinct : (allFilenos filenos).Nodup) : (createServer threads filenos).Connected where
  registry := Registry.created threads distinct
  attached _ := by
    refine ⟨fun id connection found => ?_, fun id connection found => ?_⟩
    · rw [createServer_connection] at found
      cases found
    · rw [createServer_connection] at found
      cases found

/-- Whatever the order of the steps, the maps agree with what is open. -/
theorem run_connected {threads : Nat} {filenos : List (Nat × Nat)} {steps : List (Int × Action)}
    (distinct : (allFilenos filenos).Nodup)
    (ran : Transition.run (next adj) steps (createServer threads filenos) = some process) :
    process.Connected :=
  Transition.run_invariant (fun _ _ _ connected taken => Connected.next connected taken)
    (Connected.created threads distinct) ran

/-- A connection is accepted, and a handler thread serves its first request. -/
def serveOne : List (Int × Action) :=
  [(1, .poll), (1, .testReadable), (1, .testWritable), (1, .testReadable), (1, .testWritable),
    (2, .select [4] [] []), (2, .handleRead (.accepted 5 65536 []) none), (2, .poll),
    (3, .testReadable), (3, .testWritable), (3, .testReadable), (3, .testWritable),
    (3, .testReadable), (3, .testWritable), (4, .handlerThread 0), (5, .select [5] [] []),
    (5, .handleRead (.data (ascii "GET / HTTP/1.1\r\n\r\n")) (some 0)), (6, .handlerThread 0),
    (7, .service 0 (.startTask 0) none)]

omit [CPython] in
theorem run_serveOne :
    let _ : CPython := .unchecked
    ∃ process, Transition.run (next {}) serveOne (createServer 1 [(3, 4)]) = some process ∧
      process.serving 0 = some (.calling 0) ∧ process.map.get? 5 = some (.channel 0) := by
  intro cpython
  have ends : (Transition.run (next {}) serveOne (createServer 1 [(3, 4)])).map
      (fun process => (process.serving 0, process.map.get? 5)) =
      some (some (.calling 0), some (.channel 0)) := by decide +kernel
  obtain ⟨process, ran, same⟩ := Option.map_eq_some_iff.mp ends
  obtain ⟨serves, registered⟩ := Prod.mk.inj same
  exact ⟨process, ran, serves, registered⟩

omit [CPython] in
theorem run_connected_sample :
    let _ : CPython := .unchecked
    ∃ process, Transition.run (next {}) serveOne (createServer 1 [(3, 4)]) = some process ∧
      process.map.get? 5 = some (.channel 0) ∧ process.Connected := by
  intro cpython
  obtain ⟨process, ran, -, registered⟩ := run_serveOne
  exact ⟨process, ran, registered, run_connected (by decide) ran⟩

/-- What is known while the main thread looks at the items. -/
def Quiet (process : Process) : Prop := process.Registry ∧ process.Attached none

omit [CPython] in
theorem Connected.quiet (connected : process.Connected) (items : List (Nat × Registered))
    (isReadable : Option Bool) (r w e : List Nat)
    (at_ : process.loop = .gathering items isReadable r w e) : process.Quiet := by
  have attached := connected.attached (by rw [at_]; exact nofun)
  rw [busy, at_] at attached
  exact ⟨connected.registry, attached⟩

omit [CPython] in
/-- The channels that a server knows of are idle then. -/
theorem Quiet.idle (quiet : process.Quiet) {i id : Nat} {connection : Connection}
    (found : process.connection id = some connection)
    (active : id ∈ (process.server i).activeChannels.entries.map Prod.snd) :
    connection.channel.main = .idle ∧ connection.server = i ∧ connection.fileno ≠ none := by
  obtain ⟨registry, attached⟩ := quiet
  obtain ⟨⟨fileno, other⟩, mem, rfl⟩ := List.mem_map.mp active
  have held := (Dict.mem_entries_iff (registry.activeDistinct i)).mp mem
  obtain ⟨known, foundToo, registered, server⟩ := (registry.active i fileno other).mp held
  obtain rfl := Option.some.inj (found.symm.trans foundToo)
  have isOpen : connection.fileno ≠ none := by
    rw [registered]
    exact Option.some_ne_none _
  have connected := (attached.registered other connection found).mp isOpen
  exact ⟨attached.idle other connection found connected nofun, server, isOpen⟩

end

end Waitress.Process
