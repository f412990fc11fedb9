import Waitress.Server.Waking

/-!
# The main thread goes on

Whatever `select` and the sockets answer, the main thread has a next step until its
loop is left by an exception.
-/

namespace Waitress.Process

/-! ### What the other threads leave alone -/

def KeepsMain (process final : Process) : Prop :=
  ∀ id before, process.connection id = some before →
    ∃ after, final.connection id = some after ∧ after.channel.main = before.channel.main

theorem KeepsMain.of_same {process final : Process}
    (connection : final.connection = process.connection) : KeepsMain process final := by
  intro id before found
  exact ⟨before, (congrFun connection id).trans found, rfl⟩

section

variable [CPython] {adj : ServerAdjustments} {process final : Process} {now : Int} {id : Nat}
  {action : HTTPChannel.Action} {woken : Option Nat} {before after : Connection}

theorem Leaves.keepsMain (leaves : Leaves id action now woken process before after final)
    (main : after.channel.main = before.channel.main) : KeepsMain process final := by
  intro other connection found
  by_cases same : other = id
  · rw [same] at found ⊢
    obtain rfl := Option.some.inj (leaves.found.symm.trans found)
    exact ⟨after, leaves.connection_self, main⟩
  · exact ⟨connection, (leaves.connection_of_ne same).trans found, rfl⟩

omit [CPython] in
theorem testReadable_keepsMain {registered : Registered} {tested : Bool × Process}
    (done : process.testReadable adj now registered = some tested) :
    KeepsMain process tested.2 := by
  cases testReadable_tests done with
  | other => exact .of_same rfl
  | @server i inConnectionOverflow cleaned same =>
      intro id before found
      change ∃ after, cleaned.connection id = some after ∧ _
      rw [same]
      rcases @cleanUp_connection adj now i id process with kept | ⟨known, was, -, -, cleaned⟩
      · exact ⟨before, kept.trans found, rfl⟩
      · obtain rfl := Option.some.inj (was.symm.trans found)
        refine ⟨_, cleaned, ?_⟩
        unfold HTTPChannel.maintain
        split
        · rfl
        · rfl

theorem service_keepsMain {threadNo : Nat}
    (done : process.service threadNo action now woken = some final) : KeepsMain process final := by
  cases service_serves done with
  | @calls id middle before after calling isService acted leaves =>
      have step := (HTTPChannel.service_serviceStep before.context isService leaves.taken).2
      exact leaves.keepsMain step.main
  | @returns id middle before after returning acted leaves =>
      have returned := (HTTPChannel.next_return_ before.context leaves.taken).2
      refine leaves.keepsMain ?_
      rw [returned]

theorem handlerThread_keepsMain {threadNo : Nat}
    (done : process.handlerThread threadNo now = some final) : KeepsMain process final := by
  cases handlerThread_takes done with
  | @task id queue pool middle before after free handled first taken acted leaves =>
      have popped := (HTTPChannel.next_pop before.context leaves.taken).2
      refine leaves.keepsMain ?_
      rw [popped]
  | other => exact .of_same rfl

/-! ### Where the main thread is -/

/-- The items of the loop are known, and a handler that has not returned is in a channel. -/
structure Underway (process : Process) : Prop where
  listed : ∀ items isReadable r w e, process.loop = .gathering items isReadable r w e →
    ∀ fileno id, (fileno, Registered.channel id) ∈ items →
      ∃ connection, process.connection id = some connection
  inside : ∀ id r w e, process.loop = .handling (some id) r w e →
    ∃ connection, process.connection id = some connection ∧ connection.channel.isHandled = false

omit [CPython] in
theorem Underway.of_keepsMain (underway : process.Underway) (keeps : KeepsMain process final)
    (loop : final.loop = process.loop) : final.Underway := by
  refine ⟨fun items isReadable r w e at_ fileno id mem => ?_, fun id r w e at_ => ?_⟩
  · obtain ⟨before, found⟩ := underway.listed items isReadable r w e (loop ▸ at_) fileno id mem
    obtain ⟨after, known, -⟩ := keeps id before found
    exact ⟨after, known⟩
  · obtain ⟨before, found, isInside⟩ := underway.inside id r w e (loop ▸ at_)
    obtain ⟨after, known, main⟩ := keeps id before found
    refine ⟨after, known, ?_⟩
    rw [HTTPChannel.isHandled, main]
    exact isInside

theorem Handled.underway {busy : Option Nat} {r' r w e : List Nat}
    (done : Handled adj now process busy r' r w e final) : final.Underway := by
  refine ⟨fun items isReadable r w e at_ => ?_, fun id r w e at_ => ?_⟩
  · obtain ⟨busy, handling⟩ := done.loop
    cases handling.symm.trans at_
  · cases done with
    | nothing | accepts | closeServer | readTrigger => cases at_
    | channel alone done =>
        obtain ⟨middle, acted, done⟩ := Option.bind_eq_some_iff.mp done
        obtain ⟨connection, found, done⟩ := Option.bind_eq_some_iff.mp done
        cases done
        change LoopPosition.handling (if connection.channel.isHandled = true then none else _) _ _ _ =
          _ at at_
        split at at_
        · cases at_
        · rename_i notHandled
          cases at_
          exact ⟨connection, found, Bool.eq_false_iff.mpr notHandled⟩

theorem Underway.perform (underway : process.Underway) (registry : process.Registry)
    {action : Action} (taken : process.perform adj now action = some final) : final.Underway := by
  cases perform_steps adj taken with
  | testReadable at_ tested =>
      refine ⟨fun items isReadable r w e same fileno id mem => ?_, fun id r w e same => ?_⟩
      · cases same
        obtain ⟨before, found⟩ := underway.listed _ _ _ _ _ at_ fileno id mem
        obtain ⟨after, known, -⟩ := testReadable_keepsMain tested id before found
        exact ⟨after, known⟩
      · cases same
  | testWritable at_ tested =>
      refine ⟨fun items isReadable r w e same fileno id mem => ?_, fun id r w e same => ?_⟩
      · cases same
        exact underway.listed _ _ _ _ _ at_ fileno id (List.mem_cons_of_mem _ mem)
      · cases same
  | handled at_ suffix done => exact done.underway
  | poll at_ =>
      refine ⟨fun items isReadable r w e same fileno id mem => ?_, fun id r w e same => ?_⟩
      · cases same
        have held := (Dict.mem_entries_iff registry.distinct).mp mem
        obtain ⟨connection, found, -⟩ := (registry.channel fileno id).mp held
        exact ⟨connection, found⟩
      · cases same
  | select | selectFails | interrupt =>
      refine ⟨fun items isReadable r w e same => ?_, fun id r w e same => ?_⟩
      · cases same
      · cases same
  | setThreadCount at_ => exact underway.of_keepsMain (.of_same rfl) rfl
  | cancelPending at_ done =>
      have ended := (cancelTasks_loop done).trans at_
      refine ⟨fun items isReadable r w e same => ?_, fun id r w e same => ?_⟩
      · cases ended.symm.trans same
      · cases ended.symm.trans same
  | handlerThread done =>
      exact underway.of_keepsMain (handlerThread_keepsMain done) (handlerThread_loop done)
  | service done => exact underway.of_keepsMain (service_keepsMain done) (service_loop done)

/-! ### Steps of a channel -/

omit [CPython] in
theorem exists_addTasks (id : Nat) (before after : HTTPChannel)
    (pool : ThreadedTaskDispatcher Nat) :
    ∃ woken, (addTasks id woken before after pool).isSome := by
  by_cases more : before.pendingTasks < after.pendingTasks
  · by_cases parked : ∃ threadNo ∈ pool.threads, pool.position threadNo = .parked
    · obtain ⟨threadNo, isParked⟩ := parked
      refine ⟨some threadNo, ?_⟩
      rw [addTasks, if_pos more, ThreadedTaskDispatcher.addTask]
      dsimp only
      rw [if_pos isParked]
      rfl
    · refine ⟨none, ?_⟩
      rw [addTasks, if_pos more, ThreadedTaskDispatcher.addTask]
      dsimp only
      rw [if_pos fun threadNo mem isParked => parked ⟨threadNo, mem, isParked⟩]
      rfl
  · refine ⟨none, ?_⟩
    rw [addTasks, if_neg more]
    rfl

theorem handle_isSome {connection : Connection} {channel : HTTPChannel}
    {pool : ThreadedTaskDispatcher Nat} (found : process.connection id = some connection)
    (taken : HTTPChannel.next connection.context action connection.channel = some channel)
    (added : addTasks id woken connection.channel channel process.pool = some pool)
    (now : Int) (r w e : List Nat) : (process.handle id action now woken r w e).isSome := by
  have acted : ∃ middle, process.act id action now woken = some middle := by
    unfold act
    rw [found, Option.bind_eq_bind, Option.bind_some, taken, Option.bind_eq_bind, Option.bind_some,
      added, Option.bind_eq_bind, Option.bind_some]
    dsimp only
    split
    · split
      · exact ⟨_, rfl⟩
      · exact ⟨_, rfl⟩
    · exact ⟨_, rfl⟩
  obtain ⟨middle, acted⟩ := acted
  obtain ⟨before, after, leaves⟩ := act_leaves acted
  rw [handle, acted, Option.bind_eq_bind, Option.bind_some, leaves.connection_self]
  rfl

/-- Most of the steps of the main thread add no task. -/
theorem handle_isSome_of_le {connection : Connection} {channel : HTTPChannel}
    (found : process.connection id = some connection)
    (taken : HTTPChannel.next connection.context action connection.channel = some channel)
    (fewer : channel.pendingTasks ≤ connection.channel.pendingTasks)
    (now : Int) (r w e : List Nat) : (process.handle id action now none r w e).isSome :=
  handle_isSome found taken (if_neg (Nat.not_lt.mpr fewer)) now r w e

/-! ### The next step of the main thread -/

/-- What the system call for a descriptor can answer. -/
def Answers (fileno : Nat) (event : ReadEvent) (process : Process) : Prop :=
  match process.map.get? fileno, event with
  | none, _ => True
  | some (.server _), .accepted accepted _ _ => process.map.get? accepted = none
  | some (.server _), .nothing => True
  | some (.server _), .fails => True
  | some (.trigger _), .nothing => True
  | some (.channel _), .data data => data ≠ []
  | some (.channel _), .closed => True
  | some (.channel _), .fails => True
  | _, _ => False

structure GoesOn (adj : ServerAdjustments) (now : Int) (process : Process) : Prop where
  items : ∀ item items isReadable r w e,
    process.loop = .gathering (item :: items) isReadable r w e →
      (process.next adj
        (now, if isReadable = none then .testReadable else .testWritable)).isSome
  /-- `select` leaves the loop if one of its descriptors was closed. -/
  select : ∀ isReadable r w e r' w' e', process.loop = .gathering [] isReadable r w e →
    r'.Sublist r → w'.Sublist w → e'.Sublist e →
      process.next adj (now, .select r' w' e') =
        some { process with
          loop := if process.AllOpen (r ++ w ++ e) then .handling none r' w' e' else .ended
          clock := now }
  read : ∀ fileno r w e event, process.loop = .handling none (fileno :: r) w e →
    process.Answers fileno event →
      ∃ woken, (process.next adj (now, .handleRead event woken)).isSome
  write : ∀ fileno w e lockable, process.loop = .handling none [] (fileno :: w) e →
    (process.next adj (now, .handleWrite lockable)).isSome
  exceptional : ∀ fileno e failed, process.loop = .handling none [] [] (fileno :: e) →
    (process.next adj (now, .handleExpt failed)).isSome
  inside : ∀ id r w e, process.loop = .handling (some id) r w e →
    ∃ action, (process.next adj (now, .proceed action)).isSome
  poll : process.loop = .handling none [] [] [] → (process.next adj (now, .poll)).isSome

theorem next_isSome {action : Action} (performed : (process.perform adj now action).isSome) :
    (process.next adj (now, action)).isSome := by
  rw [Process.next, Option.isSome_map]
  exact performed

omit [CPython] in
theorem Connected.idle_of_registered (connected : process.Connected) {fileno : Nat}
    {r w e : List Nat} (at_ : process.loop = .handling none r w e)
    (held : process.map.get? fileno = some (.channel id)) :
    ∃ connection, process.connection id = some connection ∧ connection.channel.main = .idle := by
  have attached := connected.attached (by rw [at_]; exact nofun)
  rw [busy, at_] at attached
  obtain ⟨connection, found, registered⟩ := (connected.registry.channel fileno id).mp held
  have isConnected := (attached.registered id connection found).mp
    (by rw [registered]; exact Option.some_ne_none _)
  exact ⟨connection, found, attached.idle id connection found isConnected
    (Option.some_ne_none id).symm⟩

theorem Connected.read (connected : process.Connected) {fileno : Nat} {r w e : List Nat}
    {event : ReadEvent} (at_ : process.loop = .handling none (fileno :: r) w e)
    (answers : process.Answers fileno event) (now : Int) :
    ∃ woken, (process.handleRead adj fileno event now woken r w e).isSome := by
  unfold Answers at answers
  unfold handleRead
  cases held : process.map.get? fileno with
  | none => exact ⟨none, rfl⟩
  | some registered =>
      rw [held] at answers
      cases registered with
      | server i =>
          cases event with
          | accepted accepted sendbufLen socket =>
              refine ⟨none, ?_⟩
              dsimp only
              rw [if_pos answers]
              rfl
          | nothing | fails => exact ⟨none, rfl⟩
          | data | closed => exact False.elim answers
      | trigger i =>
          cases event with
          | nothing => exact ⟨none, rfl⟩
          | data | closed | fails | accepted => exact False.elim answers
      | channel id =>
          obtain ⟨connection, found, main⟩ := connected.idle_of_registered at_ held
          cases event with
          | data data =>
              have taken : HTTPChannel.next connection.context (.read data) connection.channel =
                  some (HTTPChannel.handleRead connection.context data connection.channel) :=
                if_pos main
              obtain ⟨woken, added⟩ := exists_addTasks id connection.channel
                (HTTPChannel.handleRead connection.context data connection.channel) process.pool
              obtain ⟨pool, added⟩ := Option.isSome_iff_exists.mp added
              refine ⟨woken, ?_⟩
              dsimp only
              rw [if_neg answers]
              exact handle_isSome found taken added now r w e
          | closed =>
              have taken : HTTPChannel.next connection.context .readNothing connection.channel =
                  some _ := if_pos main
              exact ⟨none, handle_isSome_of_le found taken (Nat.le_refl _) now r w e⟩
          | fails =>
              have taken : HTTPChannel.next connection.context .readFails connection.channel =
                  some _ := if_pos main
              exact ⟨none, handle_isSome_of_le found taken (Nat.le_refl _) now r w e⟩
          | accepted | nothing => exact False.elim answers

theorem Connected.write (connected : process.Connected) {fileno : Nat} {w e : List Nat}
    (at_ : process.loop = .handling none [] (fileno :: w) e) (lockable : Bool) (now : Int) :
    (process.handleWrite fileno lockable now w e).isSome := by
  unfold handleWrite
  split
  · rename_i id held
    obtain ⟨connection, found, main⟩ := connected.idle_of_registered at_ held
    have taken : HTTPChannel.next connection.context (.flush lockable) connection.channel =
        some (HTTPChannel.flushBeforeClose connection.context lockable connection.channel) :=
      if_pos main
    refine handle_isSome_of_le found taken (Nat.le_of_eq ?_) now [] w e
    exact (HTTPChannel.flushBeforeClose_keepsQueue connection.context lockable main).pendingTasks
  · rfl

theorem Connected.exceptional (connected : process.Connected) {fileno : Nat} {e : List Nat}
    (at_ : process.loop = .handling none [] [] (fileno :: e)) (failed : Bool) (now : Int) :
    (process.handleExpt fileno failed now e).isSome := by
  unfold handleExpt
  split
  · rfl
  · rename_i id held
    obtain ⟨connection, found, main⟩ := connected.idle_of_registered at_ held
    have taken : HTTPChannel.next connection.context .readNothing connection.channel = some _ :=
      if_pos main
    exact handle_isSome_of_le found taken (Nat.le_refl _) now [] [] e
  · rfl

/-- In a handler that has not returned, one of its two other parts is next. -/
theorem Underway.proceed (underway : process.Underway) {r w e : List Nat}
    (at_ : process.loop = .handling (some id) r w e) (now : Int) :
    ∃ action, (action = .handOver ∨ action = .close) ∧
      (process.handle id action now none r w e).isSome := by
  obtain ⟨connection, found, isInside⟩ := underway.inside id r w e at_
  have notHandled := of_decide_eq_false isInside
  cases main : connection.channel.main with
  | idle => exact absurd (.inl main) notHandled
  | gone => exact absurd (.inr main) notHandled
  | handingOver =>
      have taken : HTTPChannel.next connection.context .handOver connection.channel = some _ :=
        if_pos main
      exact ⟨.handOver, .inl rfl, handle_isSome_of_le found taken (Nat.le_refl _) now r w e⟩
  | flushed =>
      have taken : HTTPChannel.next connection.context .close connection.channel =
          some connection.channel.closeIfWillClose := by
        rw [HTTPChannel.next, main]
      refine ⟨.close, .inr rfl, handle_isSome_of_le found taken (Nat.le_of_eq ?_) now r w e⟩
      exact (HTTPChannel.closeIfWillClose_keepsQueue main).pendingTasks
  | failing =>
      have taken : HTTPChannel.next connection.context .close connection.channel =
          some { connection.channel with
            output := connection.channel.output.handleClose, main := .gone } := by
        rw [HTTPChannel.next, main]
      exact ⟨.close, .inr rfl, handle_isSome_of_le found taken (Nat.le_refl _) now r w e⟩

omit [CPython] in
theorem testReadable_isSome {registered : Registered}
    (known : ∀ id, registered = .channel id →
      ∃ connection, process.connection id = some connection) (now : Int) :
    (process.testReadable adj now registered).isSome := by
  cases registered with
  | server | trigger => rfl
  | channel id =>
      obtain ⟨connection, found⟩ := known id rfl
      rw [Process.testReadable, found]
      rfl

omit [CPython] in
theorem testWritable_isSome {registered : Registered}
    (known : ∀ id, registered = .channel id →
      ∃ connection, process.connection id = some connection) :
    (process.testWritable registered).isSome := by
  cases registered with
  | server | trigger => rfl
  | channel id =>
      obtain ⟨connection, found⟩ := known id rfl
      rw [Process.testWritable, found]
      rfl

theorem Underway.items (underway : process.Underway) {item : Nat × Registered}
    {items : List (Nat × Registered)} {isReadable : Option Bool} {r w e : List Nat}
    (at_ : process.loop = .gathering (item :: items) isReadable r w e) (now : Int) :
    (process.perform adj now
      (if isReadable = none then .testReadable else .testWritable)).isSome := by
  have known : ∀ id, item.2 = .channel id →
      ∃ connection, process.connection id = some connection := by
    intro id isChannel
    refine underway.listed _ _ _ _ _ at_ item.1 id ?_
    rw [← isChannel]
    exact List.mem_cons_self
  cases isReadable with
  | none =>
      rw [if_pos rfl]
      unfold Process.perform
      rw [at_]
      dsimp only
      rw [Option.isSome_map]
      exact testReadable_isSome known now
  | some isReadable =>
      rw [if_neg (Option.some_ne_none _)]
      unfold Process.perform
      rw [at_]
      dsimp only
      rw [Option.isSome_map]
      exact testWritable_isSome known

theorem GoesOn.of_underway (connected : process.Connected) (underway : process.Underway)
    (now : Int) : process.GoesOn adj now where
  items item items isReadable r w e at_ := next_isSome (underway.items at_ now)
  select isReadable r w e r' w' e' at_ fewer fewer' fewer'' := by
    unfold Process.next Process.perform
    rw [at_]
    dsimp only
    split
    · rw [if_pos ⟨fewer, fewer', fewer''⟩]
      rfl
    · rfl
  read fileno r w e event at_ answers := by
    obtain ⟨woken, handled⟩ := @Connected.read _ adj _ connected _ _ _ _ _ at_ answers now
    refine ⟨woken, next_isSome ?_⟩
    unfold Process.perform
    rw [at_]
    exact handled
  write fileno w e lockable at_ := by
    refine next_isSome ?_
    unfold Process.perform
    rw [at_]
    exact connected.write at_ lockable now
  exceptional fileno e failed at_ := by
    refine next_isSome ?_
    unfold Process.perform
    rw [at_]
    exact connected.exceptional at_ failed now
  inside id r w e at_ := by
    obtain ⟨action, parts, handled⟩ := underway.proceed at_ now
    refine ⟨action, next_isSome ?_⟩
    unfold Process.perform
    rw [at_]
    rcases parts with rfl | rfl
    · exact handled
    · exact handled
  poll at_ := by
    refine next_isSome ?_
    unfold Process.perform
    rw [at_]
    rfl

/-! ### Every run -/

theorem Underway.next (underway : process.Underway) (registry : process.Registry)
    {step : Int × Action} (taken : process.next adj step = some final) : final.Underway := by
  obtain ⟨after, performed, rfl⟩ := Option.map_eq_some_iff.mp taken
  exact (underway.perform registry performed).of_keepsMain (.of_same rfl) rfl

omit [CPython] in
theorem Underway.created (threads : Nat) (filenos : List (Nat × Nat)) :
    (createServer threads filenos).Underway := by
  obtain ⟨map, server, created⟩ := addServers_eq filenos 0
    { pool := ThreadedTaskDispatcher.setThreadCount threads {} }
  rw [createServer, created]
  refine ⟨fun items isReadable r w e at_ => ?_, fun id r w e at_ => ?_⟩
  · cases at_
  · cases at_

end

end Waitress.Process
