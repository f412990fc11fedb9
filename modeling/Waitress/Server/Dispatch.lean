import Waitress.Server.Ledger

/-!
# The dispatcher of the process

Every step of the process is a step of the dispatcher or leaves it alone, so that
its books are kept.  With those of the process, a channel is in the queue or in the
hands of a thread at most once.
-/

namespace Waitress.Process

section

variable [CPython] {id : Nat} {action : HTTPChannel.Action} {now : Int} {woken : Option Nat}
  {process final : Process} {before after : Connection} {adj : ServerAdjustments}

def PoolSteps (pool after : ThreadedTaskDispatcher Nat) : Prop :=
  after = pool ∨ ∃ action, ThreadedTaskDispatcher.next action pool = some after

theorem Leaves.poolSteps (leaves : Leaves id action now woken process before after final) :
    PoolSteps process.pool final.pool := by
  have added := leaves.pool
  unfold addTasks at added
  split at added
  · exact .inr ⟨.addTask id woken, added⟩
  · exact .inl (Option.some.inj added).symm

theorem handle_poolSteps {r w e : List Nat}
    (done : process.handle id action now woken r w e = some final) :
    PoolSteps process.pool final.pool := by
  obtain ⟨middle, acted, done⟩ := Option.bind_eq_some_iff.mp done
  obtain ⟨connection, found, done⟩ := Option.bind_eq_some_iff.mp done
  cases done
  obtain ⟨before, after, leaves⟩ := act_leaves acted
  exact leaves.poolSteps

theorem cancelTasks_pool {ids : List Nat} (done : cancelTasks now ids process = some final) :
    final.pool = process.pool := by
  induction ids generalizing process with
  | nil =>
      cases done
      rfl
  | cons id ids inductionHypothesis =>
      obtain ⟨middle, acted, rest⟩ := Option.bind_eq_some_iff.mp done
      obtain ⟨before, after, leaves⟩ := act_leaves acted
      have cancelled := (HTTPChannel.next_cancel before.context leaves.taken).2
      have fewer : after.channel.pendingTasks ≤ before.channel.pendingTasks := by
        rw [cancelled]
        exact Nat.sub_le _ _
      exact (inductionHypothesis rest).trans (leaves.pool_of_le fewer)

theorem handled_poolSteps {busy : Option Nat} {r' r w e : List Nat}
    (done : Handled adj now process busy r' r w e final) :
    PoolSteps process.pool final.pool := by
  cases done with
  | @readTrigger i =>
      obtain ⟨server, read⟩ := readTrigger_eq i process
      rw [read]
      exact .inl rfl
  | channel alone done isMain => exact handle_poolSteps done
  | nothing | accepts | closeServer => exact .inl rfl

omit [CPython] in
theorem testReadable_pool {registered : Registered} {tested : Bool × Process}
    (done : process.testReadable adj now registered = some tested) :
    tested.2.pool = process.pool := by
  cases testReadable_tests done with
  | other => rfl
  | @server i inConnectionOverflow cleaned same =>
      have frame := (@cleanUp_pool now process adj i).1
      rw [← same] at frame
      exact frame

theorem perform_poolSteps {action : Action}
    (taken : process.perform adj now action = some final) :
    PoolSteps process.pool final.pool := by
  cases perform_steps adj taken with
  | testReadable at_ tested => exact .inl (testReadable_pool tested)
  | handled at_ suffix done => exact handled_poolSteps done
  | setThreadCount => exact .inr ⟨.setThreadCount _, rfl⟩
  | cancelPending at_ done =>
      have same := cancelTasks_pool done
      refine .inr ⟨.cancelPending, ?_⟩
      rw [← same]
      rfl
  | handlerThread done =>
      cases handlerThread_takes done with
      | task free handled => exact .inr ⟨.handlerThread _, handled⟩
      | other free handled => exact .inr ⟨.handlerThread _, handled⟩
  | service done =>
      cases service_serves done with
      | calls calling isService acted leaves => exact leaves.poolSteps
      | returns returning acted leaves => exact leaves.poolSteps
  | testWritable | select | selectFails | poll | interrupt => exact .inl rfl

/-! ### Every run -/

structure Accounted (adj : ServerAdjustments) (process : Process) : Prop where
  connected : process.Connected
  refines : process.Refines adj
  ledger : process.Ledger
  sound : process.pool.Sound

omit [CPython] in
theorem PoolSteps.sound {pool poolThen : ThreadedTaskDispatcher Nat} (sound : pool.Sound)
    (steps : PoolSteps pool poolThen) : poolThen.Sound := by
  rcases steps with rfl | ⟨action, taken⟩
  · exact sound
  · exact sound.next taken

theorem Accounted.next {step : Int × Action} (accounted : process.Accounted adj)
    (taken : process.next adj step = some final) : final.Accounted adj := by
  obtain ⟨connected, refines, ledger, sound⟩ := accounted
  refine ⟨connected.next taken, ?_, ?_, ?_⟩
  all_goals obtain ⟨after, performed, rfl⟩ := Option.map_eq_some_iff.mp taken
  · have kept := (Refines.preserved step.1).perform refines connected.quiet performed
    exact kept
  · exact (ledger.perform connected.registry performed).of_connection rfl rfl rfl
  · exact (perform_poolSteps performed).sound sound

omit [CPython] in
theorem createServer_pool (threads : Nat) (filenos : List (Nat × Nat)) :
    (createServer threads filenos).pool = ThreadedTaskDispatcher.setThreadCount threads {} ∧
      (createServer threads filenos).serving = fun _ => none := by
  obtain ⟨map, server, created⟩ := addServers_eq filenos 0
    { pool := ThreadedTaskDispatcher.setThreadCount threads {} }
  rw [createServer, created]
  exact ⟨rfl, rfl⟩

omit [CPython] in
theorem Ledger.created (threads : Nat) (filenos : List (Nat × Nat)) :
    (createServer threads filenos).Ledger := by
  obtain ⟨pool, serving⟩ := createServer_pool threads filenos
  have numbers : ∀ view id, (createServer threads filenos).number view id = 0 := by
    intro view id
    rw [number, createServer_connection]
    rfl
  have nobody : ∀ place, ((createServer threads filenos).threadsAt place).card = 0 := by
    intro place
    rw [Finset.card_eq_zero, Process.threadsAt, serving]
    exact Finset.filter_false_of_mem fun _ _ => (Option.some_ne_none place).symm
  refine ⟨fun id => ?_, fun id => ?_, fun id => ?_, fun threadNo serves => ?_⟩
  · rw [numbers, pool, (ThreadedTaskDispatcher.setThreadCount_keepsOutside threads {}).2]
    rfl
  · rw [numbers, nobody]
  · rw [numbers, nobody]
  · rw [serving] at serves
    exact absurd rfl serves

theorem Accounted.created (threads : Nat) {filenos : List (Nat × Nat)}
    (distinct : (allFilenos filenos).Nodup) : (createServer threads filenos).Accounted adj where
  connected := .created threads distinct
  refines id connection found := by
    rw [createServer_connection] at found
    cases found
  ledger := .created threads filenos
  sound := by
    rw [(createServer_pool threads filenos).1]
    exact ThreadedTaskDispatcher.Sound.initial.setThreadCount threads

/-- Every task of the dispatcher is one of a channel, and a channel has one at most, which
waits in the queue or is in the hands of a thread. -/
structure Dispatched (adj : ServerAdjustments) (process : Process) : Prop where
  refines : process.Refines adj
  ledger : process.Ledger
  books : process.pool.BooksKept
  alone : ∀ id, process.pool.queue.count id + (process.threadsAt (.calling id)).card ≤ 1
  inOrder : ∀ id connection, process.connection id = some connection →
    connection.channel.ServedInOrder

theorem Refines.inOrder (refines : process.Refines adj) {id : Nat} {connection : Connection}
    (found : process.connection id = some connection) : connection.channel.ServedInOrder := by
  obtain ⟨socket, actions, ran⟩ := (refines id connection found).reaches
  exact (HTTPChannel.run_orderly connection.context ran).servedInOrder

theorem Accounted.alone (accounted : process.Accounted adj) (id : Nat) :
    process.pool.queue.count id + (process.threadsAt (.calling id)).card ≤ 1 := by
  rw [accounted.ledger.tasks, accounted.ledger.calling]
  cases found : process.connection id with
  | none =>
      rw [number, number, found]
      exact Nat.zero_le 1
  | some connection =>
      rw [number_eq found, number_eq found]
      exact (accounted.refines.inOrder found).alone

/-- Whatever the order of the steps, the books of the dispatcher and of the channels agree. -/
theorem run_dispatched {threads : Nat} {filenos : List (Nat × Nat)}
    {steps : List (Int × Action)} (distinct : (allFilenos filenos).Nodup)
    (ran : Transition.run (Process.next adj) steps (createServer threads filenos) = some process) :
    process.Dispatched adj := by
  have accounted : process.Accounted adj :=
    Transition.run_invariant (fun _ _ _ accounted taken => Accounted.next accounted taken)
      (Accounted.created threads distinct) ran
  exact ⟨accounted.refines, accounted.ledger, accounted.sound.booksKept, accounted.alone,
    fun _ _ => accounted.refines.inOrder⟩

omit [CPython] in
theorem run_dispatched_sample :
    let _ : CPython := .unchecked
    ∃ process, Transition.run (Process.next {}) serveOne (createServer 1 [(3, 4)]) = some process ∧
      process.serving 0 = some (.calling 0) ∧ process.Dispatched {} := by
  intro cpython
  obtain ⟨process, ran, serves, -⟩ := run_serveOne
  exact ⟨process, ran, serves, run_dispatched (by decide) ran⟩

end

end Waitress.Process
