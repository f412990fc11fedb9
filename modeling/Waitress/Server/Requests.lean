import Waitress.Server.Waking

/-!
# No request is stranded

A request of a connected channel is in the hands of a handler thread, or the channel
is in the queue of the dispatcher.  In the second case not all threads sleep.
-/

namespace Waitress.Process

/-- Somebody is going to serve the requests of every channel. -/
def Served (process : Process) : Prop :=
  ∀ id connection, process.connection id = some connection → connection.channel.Working

section

variable [CPython] {adj : ServerAdjustments} {process final : Process} {now : Int} {id : Nat}
  {action : HTTPChannel.Action} {woken : Option Nat} {before after : Connection}

theorem Refines.stage (refines : process.Refines adj) {connection : Connection}
    (found : process.connection id = some connection) : connection.channel.Stage := by
  obtain ⟨socket, actions, ran⟩ := (refines id connection found).reaches
  exact (HTTPChannel.run_orderly connection.context ran).stage

theorem Served.act (served : process.Served) (refines : process.Refines adj)
    (leaves : Leaves id action now woken process before after final)
    (unescaped : HTTPChannel.Unescaped before.channel after.channel) : final.Served := by
  intro other connection found
  by_cases same : other = id
  · rw [same, leaves.connection_self] at found
    cases found
    have working := served id before leaves.found
    exact working.next before.context (refines.stage leaves.found) leaves.taken unescaped
  · exact served other connection ((leaves.connection_of_ne same).symm.trans found)

theorem Served.act_of_le (served : process.Served) (refines : process.Refines adj)
    (leaves : Leaves id action now woken process before after final)
    (calls : before.channel.running.length ≤ after.channel.running.length) : final.Served :=
  served.act refines leaves fun fewer => absurd fewer (Nat.not_lt.mpr calls)

omit [CPython] in
theorem Served.testReadable (served : process.Served) {registered : Registered}
    {tested : Bool × Process}
    (done : process.testReadable adj now registered = some tested) : tested.2.Served := by
  cases testReadable_tests done with
  | other => exact served
  | @server i inConnectionOverflow cleaned same =>
      intro id connection found
      change cleaned.connection id = some connection at found
      rw [same] at found
      rcases @cleanUp_connection adj now i id process with kept | ⟨before, was, -, -, cleaned⟩
      · exact served id connection (kept.symm.trans found)
      · rw [cleaned] at found
        cases found
        exact (served id before was).of_keepsQueue (HTTPChannel.maintain_keepsQueue before.channel)

theorem Served.handled (served : process.Served) (refines : process.Refines adj)
    {busy : Option Nat} {r' r w e : List Nat}
    (done : Handled adj now process busy r' r w e final) : final.Served := by
  cases done with
  | nothing | closeServer => exact served
  | accepts =>
      intro id connection found
      by_cases same : id = process.nextId
      · change (process.addChannel _ _ _ _ now).connection id = _ at found
        rw [same, addChannel_connection_self] at found
        cases found
        exact fun _ waiting => absurd rfl waiting
      · change (process.addChannel _ _ _ _ now).connection id = _ at found
        rw [addChannel_connection_of_ne _ same] at found
        exact served id connection found
  | @readTrigger i =>
      obtain ⟨server, read⟩ := readTrigger_eq i process
      rw [read]
      exact served
  | channel alone done isMain =>
      obtain ⟨middle, acted, done⟩ := Option.bind_eq_some_iff.mp done
      obtain ⟨connection, found, done⟩ := Option.bind_eq_some_iff.mp done
      cases done
      obtain ⟨before, after, leaves⟩ := act_leaves acted
      obtain ⟨running, -⟩ := HTTPChannel.main_addsTask before.context isMain leaves.taken
      have kept := served.act_of_le refines leaves (Nat.le_of_eq (by rw [running]))
      exact kept

theorem Served.cancelTasks {ids : List Nat} (served : process.Served)
    (refines : process.Refines adj) (done : cancelTasks now ids process = some final) :
    final.Served := by
  induction ids generalizing process with
  | nil =>
      cases done
      exact served
  | cons id ids inductionHypothesis =>
      obtain ⟨middle, acted, rest⟩ := Option.bind_eq_some_iff.mp done
      obtain ⟨before, after, leaves⟩ := act_leaves acted
      have cancelled := (HTTPChannel.next_cancel before.context leaves.taken).2
      have servedThen := served.act_of_le refines leaves (by rw [cancelled]; exact Nat.le_refl _)
      exact inductionHypothesis servedThen ((Refines.preserved now).act refines acted) rest

theorem Served.perform (served : process.Served) (refines : process.Refines adj)
    {action : Action}
    (stays : process.StaysOn final action)
    (taken : process.perform adj now action = some final) : final.Served := by
  cases perform_steps adj taken with
  | testReadable at_ tested => exact served.testReadable tested
  | handled at_ suffix done => exact served.handled refines done
  | cancelPending at_ done =>
      have kept := served.cancelTasks refines done
      exact kept
  | handlerThread done =>
      cases handlerThread_takes done with
      | @task id queue pool middle before after free handled first taken acted leaves =>
          have popped := (HTTPChannel.next_pop before.context leaves.taken).2
          have kept := served.act_of_le refines leaves ?_
          · exact kept
          · rw [popped, List.length_append]
            exact Nat.le_add_right _ _
      | other => exact served
  | @service threadNo step woken _ done =>
      cases service_serves done with
      | @calls id middle before after calling isService acted leaves =>
          have on := stays.ne_none calling
          have kept := served.act refines leaves fun fewer => ?_
          · exact kept
          · by_contra behind
            rw [Serving.go, if_neg behind, if_pos fewer] at on
            exact on rfl
      | @returns id middle before after returning acted leaves =>
          have returned := (HTTPChannel.next_return_ before.context leaves.taken).2
          have kept := served.act_of_le refines leaves (by rw [returned])
          exact kept
  | testWritable | select | selectFails | poll | interrupt | setThreadCount => exact served

/-! ### Every run -/

/-- The books of the process are kept, and every request is going to be served. -/
def Attending (adj : ServerAdjustments) (process : Process) : Prop :=
  process.Accounted adj ∧ process.Served

theorem Attending.next (attending : process.Attending adj) {step : Int × Action}
    (unescaped : process.escapes adj step = false)
    (taken : process.next adj step = some final) : final.Attending adj := by
  obtain ⟨accounted, served⟩ := attending
  refine ⟨accounted.next taken, ?_⟩
  obtain ⟨now, action⟩ := step
  obtain ⟨middle, performed, rfl⟩ := Option.map_eq_some_iff.mp taken
  have kept := served.perform accounted.refines (staysOn_of_unescaped unescaped performed) performed
  exact kept

theorem Attending.created (threads : Nat) {filenos : List (Nat × Nat)}
    (distinct : (allFilenos filenos).Nodup) :
    (createServer threads filenos).Attending adj := by
  refine ⟨.created threads distinct, fun id connection found => ?_⟩
  rw [createServer_connection] at found
  cases found

omit [CPython] in
/-- A call of the channel is one of some thread, and its tasks are in the queue. -/
theorem Ledger.attended (ledger : process.Ledger) {connection : Connection}
    (found : process.connection id = some connection)
    (waits : 0 < connection.channel.pendingTasks + connection.channel.running.length) :
    (∃ threadNo ∈ process.pool.threads, process.serving threadNo = some (.calling id)) ∨
      id ∈ process.pool.queue := by
  have tasks := ledger.tasks id
  have calling := ledger.calling id
  rw [number_eq found] at tasks calling
  by_cases queued : id ∈ process.pool.queue
  · exact .inr queued
  · rw [List.count_eq_zero.mpr queued] at tasks
    have served : 0 < (process.threadsAt (.calling id)).card := by
      rw [calling]
      omega
    obtain ⟨threadNo, mem⟩ := Finset.card_pos.mp served
    obtain ⟨registered, serves⟩ := Finset.mem_filter.mp mem
    exact .inl ⟨threadNo, registered, serves⟩

/-- As long as no exception escapes from `service`, the requests of a connected channel are
in the hands of a handler thread, or the channel is queued and not every thread sleeps. -/
theorem run_attended {threads : Nat} {filenos : List (Nat × Nat)} {steps : List (Int × Action)}
    (distinct : (allFilenos filenos).Nodup)
    (unescaped : Transition.Along (Process.next adj)
      (fun step process => process.escapes adj step = false) steps (createServer threads filenos))
    (ran : Transition.run (Process.next adj) steps (createServer threads filenos) = some process)
    {connection : Connection} (found : process.connection id = some connection)
    (connected : connection.channel.output.connected = true)
    (waiting : connection.channel.requests ≠ []) :
    (∃ threadNo ∈ process.pool.threads, process.serving threadNo = some (.calling id)) ∨
      id ∈ process.pool.queue ∧
        (process.pool.threads.Nonempty →
          ∃ threadNo ∈ process.pool.threads, process.pool.position threadNo ≠ .parked) := by
  obtain ⟨⟨-, -, ledger, sound⟩, served⟩ : process.Attending adj :=
    Transition.run_invariant_along (fun _ _ _ attending met taken => Attending.next attending met taken)
      (Attending.created threads distinct) unescaped ran
  rcases ledger.attended found (served id connection found connected waiting) with calling | queued
  · exact .inl calling
  · exact .inr ⟨queued, sound.attended (List.ne_nil_of_mem queued)⟩

omit [CPython] in
theorem run_attended_sample :
    let _ : CPython := .unchecked
    ∃ process connection,
      Transition.run (Process.next {}) (serveOne.take 17) (createServer 1 [(3, 4)]) = some process ∧
      process.connection 0 = some connection ∧ connection.channel.requests ≠ [] ∧
      ((∃ threadNo ∈ process.pool.threads, process.serving threadNo = some (.calling 0)) ∨
        0 ∈ process.pool.queue ∧
          (process.pool.threads.Nonempty →
            ∃ threadNo ∈ process.pool.threads, process.pool.position threadNo ≠ .parked)) := by
  intro cpython
  have ends : (Transition.run (Process.next {}) (serveOne.take 17) (createServer 1 [(3, 4)])).map
      (fun process => (process.connection 0).map fun connection =>
        (connection.channel.output.connected, connection.channel.requests.isEmpty)) =
      some (some (true, false)) := by decide +kernel
  obtain ⟨process, ran, same⟩ := Option.map_eq_some_iff.mp ends
  obtain ⟨connection, found, same⟩ := Option.map_eq_some_iff.mp same
  obtain ⟨connected, requests⟩ := Prod.mk.inj same
  have waiting : connection.channel.requests ≠ [] := List.isEmpty_eq_false_iff.mp requests
  refine ⟨process, connection, ran, found, waiting, ?_⟩
  exact run_attended (by decide) (by decide +kernel) ran found connected waiting

end

end Waitress.Process
