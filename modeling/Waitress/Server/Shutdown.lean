import Waitress.Server.Requests

/-!
# Cancelling the tasks that wait

When the loop has ended, `shutdown` cancels each channel of the queue once and leaves
all the others alone.
-/

namespace Waitress

def Connection.cancel (now : Int) (connection : Connection) : Connection :=
  { connection with
    channel := connection.channel.cancel
    lastActivity := now
    lastStep := now }

namespace Process

def cancelled (now : Int) (ids : List Nat) (process : Process) : Process :=
  { process with
    connection := fun id => (process.connection id).map fun connection =>
      if id ∈ ids then connection.cancel now else connection }

theorem cancelled_nil (now : Int) (process : Process) : process.cancelled now [] = process := by
  have same : ∀ id, ((process.connection id).map fun connection =>
      if id ∈ [] then connection.cancel now else connection) = process.connection id := by
    intro id
    cases process.connection id with
    | none => rfl
    | some connection => exact congrArg some (if_neg List.not_mem_nil)
  rw [cancelled, funext same]

theorem cancelled_cons {now : Int} {process : Process} {id : Nat} {ids : List Nat}
    {connection : Connection} (found : process.connection id = some connection)
    (once : id ∉ ids) :
    (process.setConnection id (connection.cancel now)).cancelled now ids =
      process.cancelled now (id :: ids) := by
  have same : ∀ other, (((process.setConnection id (connection.cancel now)).connection other).map
      fun connection => if other ∈ ids then connection.cancel now else connection) =
      (process.connection other).map fun connection =>
        if other ∈ id :: ids then connection.cancel now else connection := by
    intro other
    by_cases isSame : other = id
    · rw [isSame, setConnection_connection_self, found, Option.map_some, Option.map_some,
        if_neg once, if_pos List.mem_cons_self]
    · rw [setConnection_connection_of_ne _ _ isSame]
      simp only [List.mem_cons, isSame, false_or]
  rw [cancelled, cancelled, funext same]
  rfl

section

variable [CPython] {adj : ServerAdjustments} {process : Process} {now : Int} {id : Nat}

theorem act_cancel {connection : Connection} (found : process.connection id = some connection)
    (queued : 0 < connection.channel.pendingTasks) (now : Int) :
    process.act id .cancel now none =
      some (process.setConnection id (connection.cancel now)) := by
  have stepped : HTTPChannel.next connection.context .cancel connection.channel =
      some connection.channel.cancel := if_pos queued
  have pool : addTasks id none connection.channel connection.channel.cancel process.pool =
      some process.pool := if_neg (Nat.not_lt.mpr (Nat.sub_le _ _))
  unfold act
  rw [found, Option.bind_eq_bind, Option.bind_some, stepped, Option.bind_eq_bind, Option.bind_some,
    pool, Option.bind_eq_bind, Option.bind_some]
  obtain ⟨context, server, fileno, lastActivity, channel, lastStep⟩ := connection
  cases fileno with
  | none => rfl
  | some fileno => rfl

theorem cancelTasks_eq {ids : List Nat} (distinct : ids.Nodup)
    (queued : ∀ id ∈ ids, 0 < process.number HTTPChannel.pendingTasks id) :
    cancelTasks now ids process = some (process.cancelled now ids) := by
  induction ids generalizing process with
  | nil => rw [cancelled_nil, cancelTasks]
  | cons id ids inductionHypothesis =>
      obtain ⟨once, distinct⟩ := List.nodup_cons.mp distinct
      have waits := queued id List.mem_cons_self
      cases found : process.connection id with
      | none =>
          rw [number, found] at waits
          exact absurd waits (Nat.lt_irrefl _)
      | some connection =>
          rw [number_eq found] at waits
          rw [cancelTasks, act_cancel found waits, Option.bind_some, inductionHypothesis distinct,
            cancelled_cons found once]
          intro other mem
          have different : other ≠ id := fun same => once (same ▸ mem)
          rw [number, setConnection_connection_of_ne _ _ different]
          exact queued other (List.mem_cons_of_mem _ mem)

/-- Wherever a run has led to when the loop has ended, the channels that wait in the queue are
cancelled, each of them once.  The calls of `service` go on, and the sockets stay open. -/
theorem run_cancels {threads : Nat} {filenos : List (Nat × Nat)} {steps : List (Int × Action)}
    (distinct : (allFilenos filenos).Nodup)
    (ran : Transition.run (Process.next adj) steps (createServer threads filenos) = some process)
    (ended : process.loop = .ended) (now : Int) :
    ∃ final, process.next adj (now, .cancelPending) = some final ∧ final.pool.queue = [] ∧
      (∀ threadNo, final.pool.position threadNo ≠ .parked) ∧ final.serving = process.serving ∧
      final.map = process.map ∧ final.server = process.server ∧
      ∀ id connection, process.connection id = some connection →
        final.connection id =
          some (if id ∈ process.pool.queue then connection.cancel now else connection) := by
  have accounted : process.Accounted adj :=
    Transition.run_invariant (fun _ _ _ accounted taken => Accounted.next accounted taken)
      (Accounted.created threads distinct) ran
  have once : process.pool.queue.Nodup := by
    refine List.nodup_iff_count_le_one.mpr fun id => ?_
    exact (Nat.le_add_right _ _).trans (accounted.alone id)
  have queued : ∀ id ∈ process.pool.queue, 0 < process.number HTTPChannel.pendingTasks id := by
    intro id mem
    rw [← accounted.ledger.tasks id]
    exact List.count_pos_iff.mpr mem
  have done := @cancelTasks_eq _ process now _ once queued
  refine ⟨{ process.cancelled now process.pool.queue with
    pool := process.pool.cancelPending, clock := now }, ?_, rfl, fun threadNo => ?_, rfl,
    rfl, rfl, fun id connection found => ?_⟩
  · rw [Process.next, perform, done]
    · rfl
    · exact ended
  · exact ThreadedTaskDispatcher.notifyAll_not_parked _ threadNo
  · exact congrArg (Option.map _) found

omit [CPython] in
theorem run_cancels_sample :
    let _ : CPython := .unchecked
    ∃ process connection,
      Transition.run (Process.next {}) (serveOne.take 17 ++ [(6, .interrupt)])
        (createServer 1 [(3, 4)]) = some process ∧
      process.pool.queue = [0] ∧ process.connection 0 = some connection ∧
      connection.channel.requests ≠ [] ∧
      ∃ final, process.next {} (7, .cancelPending) = some final ∧ final.pool.queue = [] ∧
        (∀ threadNo, final.pool.position threadNo ≠ .parked) ∧ final.serving = process.serving ∧
        final.map = process.map ∧ final.server = process.server ∧
        ∀ id connection, process.connection id = some connection →
          final.connection id =
            some (if id ∈ process.pool.queue then connection.cancel 7 else connection) := by
  intro cpython
  have ends : (Transition.run (Process.next {}) (serveOne.take 17 ++ [(6, .interrupt)])
      (createServer 1 [(3, 4)])).map (fun process =>
        (process.loop, process.pool.queue, (process.connection 0).map fun connection =>
          connection.channel.requests.isEmpty)) =
      some (.ended, [0], some false) := by decide +kernel
  obtain ⟨process, ran, same⟩ := Option.map_eq_some_iff.mp ends
  obtain ⟨ended, same⟩ := Prod.mk.inj same
  obtain ⟨queue, same⟩ := Prod.mk.inj same
  obtain ⟨connection, found, requests⟩ := Option.map_eq_some_iff.mp same
  have waiting : connection.channel.requests ≠ [] := List.isEmpty_eq_false_iff.mp requests
  exact ⟨process, connection, ran, queue, found, waiting, run_cancels (by decide) ran ended 7⟩

end

end Process

end Waitress
