import Waitress.Server.Refinement

/-!
# The books of the process

The queue of the dispatcher has a channel as often as the channel has asked for it,
and its calls of `service` are those that some handler thread is in.
-/

namespace Waitress

/-! ### What the dispatcher does to its threads -/

namespace ThreadedTaskDispatcher

variable {Task : Type}

/-- Threads may be added, and those that are outside of the lock stay there. -/
structure KeepsOutside (pool after : ThreadedTaskDispatcher Task) : Prop where
  threads : pool.threads ⊆ after.threads
  outside : ∀ threadNo ∈ pool.threads, pool.position threadNo = .outside →
    after.position threadNo = .outside

theorem KeepsOutside.refl (pool : ThreadedTaskDispatcher Task) : KeepsOutside pool pool :=
  ⟨fun _ mem => mem, fun _ _ outside => outside⟩

theorem addTask_keepsOutside {task : Task} {woken : Option Nat}
    {pool after : ThreadedTaskDispatcher Task} (added : pool.addTask task woken = some after) :
    KeepsOutside pool after ∧ after.queue = pool.queue ++ [task] := by
  unfold addTask at added
  cases woken with
  | some threadNo =>
      dsimp only at added
      split at added
      · rename_i parked
        cases added
        refine ⟨⟨fun _ mem => mem, fun other _ outside => ?_⟩, rfl⟩
        rw [move_position_of_ne]
        · exact outside
        · rintro rfl
          cases parked.2.symm.trans outside
      · cases added
  | none =>
      dsimp only at added
      split at added
      · cases added
        exact ⟨⟨fun _ mem => mem, fun _ _ outside => outside⟩, rfl⟩
      · cases added

theorem notifyAll_outside {pool : ThreadedTaskDispatcher Task} {threadNo : Nat}
    (outside : pool.position threadNo = .outside) :
    pool.notifyAll.position threadNo = .outside := by
  change (if pool.position threadNo = .parked then _ else _) = _
  rw [outside]
  rfl

theorem setThreadCount_keepsOutside (count : Nat) (pool : ThreadedTaskDispatcher Task) :
    KeepsOutside pool (pool.setThreadCount count) ∧
      (pool.setThreadCount count).queue = pool.queue := by
  have started := startThreads_started
    (count - ((pool.threads.card : Int) - pool.stopCount)).toNat 0 { pool with requested := count }
  unfold setThreadCount
  dsimp only
  generalize startThreads _ _ _ = after at started
  have kept : KeepsOutside pool after :=
    ⟨fun threadNo mem => (started.old threadNo mem).1,
      fun threadNo mem outside => (started.old threadNo mem).2.trans outside⟩
  split
  · exact ⟨⟨kept.threads, fun threadNo mem outside =>
      notifyAll_outside (kept.outside threadNo mem outside)⟩, started.frame.1⟩
  · exact ⟨kept, started.frame.1⟩

/-- What a handler thread has done under the lock: it has taken a task, or it does
not work now. -/
inductive Handles (threadNo : Nat) (pool : ThreadedTaskDispatcher Task) :
    ThreadedTaskDispatcher Task → Prop where
  | takes {task : Task} {after : ThreadedTaskDispatcher Task} : threadNo ∈ pool.threads →
      pool.queue = task :: after.queue → after.threads = pool.threads →
      after.position = Function.update pool.position threadNo .outside →
      Handles threadNo pool after
  | waits {after : ThreadedTaskDispatcher Task} : threadNo ∈ pool.threads →
      after.queue = pool.queue → after.threads ⊆ pool.threads →
      pool.threads.erase threadNo ⊆ after.threads →
      (∀ other, other ≠ threadNo → after.position other = pool.position other) →
      Handles threadNo pool after

theorem handlerLoop_handles {threadNo : Nat} {pool : ThreadedTaskDispatcher Task}
    (registered : threadNo ∈ pool.threads) (activeCount : Int) :
    Handles threadNo pool (handlerLoop threadNo { pool with activeCount }) := by
  unfold handlerLoop
  dsimp only
  split
  · exact .waits registered rfl (fun _ mem => mem) (Finset.erase_subset _ _)
      fun other different => move_position_of_ne different _ _
  · split
    · exact .waits registered rfl (Finset.erase_subset _ _) (fun _ mem => mem) fun _ _ => rfl
    · split
      · rename_i empty
        exact .waits registered rfl (fun _ mem => mem) (Finset.erase_subset _ _)
          fun other different => move_position_of_ne different _ _
      · rename_i task queue first
        exact .takes registered first rfl rfl

theorem handlerThread_handles {threadNo : Nat} {pool after : ThreadedTaskDispatcher Task}
    (handled : pool.handlerThread threadNo = some after) : Handles threadNo pool after := by
  unfold handlerThread at handled
  split at handled
  · rename_i registered
    split at handled
    · cases handled
      exact handlerLoop_handles registered pool.activeCount
    · cases handled
      exact handlerLoop_handles registered (pool.activeCount + 1)
    · cases handled
    · cases handled
  · cases handled

end ThreadedTaskDispatcher

namespace Process

/-! ### The books -/

/-- A number of the channel with an id, if there is one. -/
def number (view : HTTPChannel → Nat) (id : Nat) (process : Process) : Nat :=
  ((process.connection id).map fun connection => view connection.channel).getD 0

def threadsAt (serving : Serving) (process : Process) : Finset Nat :=
  process.pool.threads.filter fun threadNo => process.serving threadNo = some serving

structure Ledger (process : Process) : Prop where
  tasks : ∀ id, process.pool.queue.count id = process.number HTTPChannel.pendingTasks id
  calling : ∀ id, (process.threadsAt (.calling id)).card =
    process.number (fun channel => channel.running.length) id
  returning : ∀ id, (process.threadsAt (.returning id)).card = process.number HTTPChannel.leaving id
  outside : ∀ threadNo, process.serving threadNo ≠ none →
    threadNo ∈ process.pool.threads ∧ process.pool.position threadNo = .outside

/-- The threads at a place when one of them gets to another. -/
theorem card_filter_update {Place : Type} [DecidableEq Place] {threads : Finset Nat}
    {threadNo : Nat} (registered : threadNo ∈ threads) (places : Nat → Place) (place next : Place) :
    (threads.filter fun other => Function.update places threadNo next other = place).card +
        (if places threadNo = place then 1 else 0) =
      (threads.filter fun other => places other = place).card +
        (if next = place then 1 else 0) := by
  have others : ∑ other ∈ threads.erase threadNo,
      (if Function.update places threadNo next other = place then 1 else 0) =
      ∑ other ∈ threads.erase threadNo, if places other = place then 1 else 0 := by
    refine Finset.sum_congr rfl fun other mem => ?_
    rw [Function.update_of_ne (Finset.ne_of_mem_erase mem)]
  rw [Finset.card_filter, Finset.card_filter, ← Finset.add_sum_erase threads _ registered,
    ← Finset.add_sum_erase threads (fun other => if places other = place then 1 else 0) registered,
    others, Function.update_self]
  omega

theorem threadsAt_setServing {process : Process} {threadNo : Nat}
    (registered : threadNo ∈ process.pool.threads) (next : Option Serving) (serving : Serving) :
    ((process.setServing threadNo next).threadsAt serving).card +
        (if process.serving threadNo = some serving then 1 else 0) =
      (process.threadsAt serving).card + (if next = some serving then 1 else 0) :=
  card_filter_update registered process.serving (some serving) next

theorem Ledger.threadsAt {process after : Process} (ledger : process.Ledger)
    (keeps : process.pool.KeepsOutside after.pool) (same : after.serving = process.serving)
    (serving : Serving) : after.threadsAt serving = process.threadsAt serving := by
  unfold Process.threadsAt
  rw [same]
  ext threadNo
  rw [Finset.mem_filter, Finset.mem_filter]
  refine and_congr_left fun serves => ⟨fun _ => ?_, fun mem => keeps.threads mem⟩
  exact (ledger.outside threadNo (by rw [serves]; exact Option.some_ne_none _)).1

theorem Ledger.stillOutside {process after : Process} (ledger : process.Ledger)
    (keeps : process.pool.KeepsOutside after.pool) (same : after.serving = process.serving)
    (threadNo : Nat) (serves : after.serving threadNo ≠ none) :
    threadNo ∈ after.pool.threads ∧ after.pool.position threadNo = .outside := by
  rw [same] at serves
  obtain ⟨registered, outside⟩ := ledger.outside threadNo serves
  exact ⟨keeps.threads registered, keeps.outside threadNo registered outside⟩

/-! ### Steps of a channel -/

section

variable [CPython] {id : Nat} {action : HTTPChannel.Action} {now : Int} {woken : Option Nat}
  {process final : Process} {before after : Connection}

omit [CPython] in
theorem number_eq {connection : Connection} (found : process.connection id = some connection)
    (view : HTTPChannel → Nat) : process.number view id = view connection.channel := by
  rw [number, found]
  rfl

theorem Leaves.number_of_ne (leaves : Leaves id action now woken process before after final)
    {other : Nat} (different : other ≠ id) (view : HTTPChannel → Nat) :
    final.number view other = process.number view other := by
  rw [number, number, leaves.connection_of_ne different]

omit [CPython] in
theorem addTasks_count {channel next : HTTPChannel} {pool taken : ThreadedTaskDispatcher Nat}
    (added : addTasks id woken channel next pool = some taken)
    (most : next.pendingTasks ≤ channel.pendingTasks + 1) :
    pool.KeepsOutside taken ∧ ∀ other, taken.queue.count other =
      pool.queue.count other + if other = id then next.pendingTasks - channel.pendingTasks else 0 := by
  unfold addTasks at added
  split at added
  · rename_i more
    obtain ⟨keeps, queue⟩ := ThreadedTaskDispatcher.addTask_keepsOutside added
    refine ⟨keeps, fun other => ?_⟩
    rw [queue, List.count_append, List.count_singleton]
    by_cases same : other = id
    · rw [if_pos same, same, beq_self_eq_true, if_pos rfl]
      omega
    · rw [if_neg same, if_neg]
      exact fun equal => same (beq_iff_eq.mp equal).symm
  · rename_i notMore
    cases added
    refine ⟨.refl _, fun other => ?_⟩
    split
    · omega
    · rfl

/-- What a step says of the calls decides about the books. -/
theorem Ledger.tasks_act (ledger : process.Ledger)
    (leaves : Leaves id action now woken process before after final)
    (adds : HTTPChannel.AddsTask before.channel after.channel) (other : Nat) :
    final.pool.queue.count other = final.number HTTPChannel.pendingTasks other := by
  have most : after.channel.pendingTasks ≤ before.channel.pendingTasks + 1 := by
    rcases adds with same | more
    · omega
    · omega
  rw [(addTasks_count leaves.pool most).2 other, ledger.tasks other]
  by_cases same : other = id
  · rw [if_pos same, same, number_eq leaves.found, number_eq leaves.connection_self]
    rcases adds with same | more
    · omega
    · omega
  · rw [if_neg same, leaves.number_of_ne same, Nat.add_zero]

theorem Leaves.keepsOutside (leaves : Leaves id action now woken process before after final)
    (adds : HTTPChannel.AddsTask before.channel after.channel) :
    process.pool.KeepsOutside final.pool := by
  refine (addTasks_count leaves.pool ?_).1
  rcases adds with same | more
  · omega
  · omega

theorem Ledger.main (ledger : process.Ledger)
    (leaves : Leaves id action now woken process before after final) (isMain : action.IsMain) :
    final.Ledger := by
  obtain ⟨running, leaving, adds⟩ :=
    HTTPChannel.main_addsTask before.context isMain leaves.taken
  have keeps := leaves.keepsOutside adds
  have same : ∀ (view : HTTPChannel → Nat), view after.channel = view before.channel → ∀ other,
      final.number view other = process.number view other := by
    intro view equal other
    by_cases isSame : other = id
    · rw [isSame, number_eq leaves.found, number_eq leaves.connection_self, equal]
    · exact leaves.number_of_ne isSame view
  refine ⟨ledger.tasks_act leaves adds, fun other => ?_, fun other => ?_,
    ledger.stillOutside keeps leaves.serving⟩
  · rw [ledger.threadsAt keeps leaves.serving, ledger.calling other]
    exact (same (fun channel => channel.running.length) (congrArg List.length running) other).symm
  · rw [ledger.threadsAt keeps leaves.serving, ledger.returning other]
    exact (same HTTPChannel.leaving leaving other).symm

theorem Ledger.moved (ledger : process.Ledger)
    (leaves : Leaves id action now woken process before after final)
    (adds : HTTPChannel.AddsTask before.channel after.channel) {threadNo : Nat}
    {place next : Option Serving} (at_ : process.serving threadNo = place)
    (inCall : place ≠ none)
    (calling : after.channel.running.length + (if place = some (.calling id) then 1 else 0) =
      before.channel.running.length + if next = some (.calling id) then 1 else 0)
    (returning : after.channel.leaving + (if place = some (.returning id) then 1 else 0) =
      before.channel.leaving + if next = some (.returning id) then 1 else 0)
    (others : ∀ other, other ≠ id →
      (place ≠ some (.calling other) ∧ next ≠ some (.calling other)) ∧
        place ≠ some (.returning other) ∧ next ≠ some (.returning other)) :
    (final.setServing threadNo next).Ledger := by
  have keeps := leaves.keepsOutside adds
  have tasks := ledger.tasks_act leaves adds
  obtain ⟨registered, outside⟩ := ledger.stillOutside keeps leaves.serving threadNo
    (by rw [leaves.serving, at_]; exact inCall)
  have count := fun serving => threadsAt_setServing registered next serving
  rw [leaves.serving, at_] at count
  refine ⟨tasks, fun other => ?_, fun other => ?_, fun other serves => ?_⟩
  · have counted := count (.calling other)
    rw [ledger.threadsAt keeps leaves.serving, ledger.calling other] at counted
    change _ = final.number (fun channel => channel.running.length) other
    by_cases same : other = id
    · rw [same] at counted ⊢
      rw [number_eq leaves.found] at counted
      rw [number_eq leaves.connection_self]
      omega
    · rw [if_neg (others other same).1.1, if_neg (others other same).1.2] at counted
      rw [leaves.number_of_ne same]
      exact counted
  · have counted := count (.returning other)
    rw [ledger.threadsAt keeps leaves.serving, ledger.returning other] at counted
    change _ = final.number HTTPChannel.leaving other
    by_cases same : other = id
    · rw [same] at counted ⊢
      rw [number_eq leaves.found] at counted
      rw [number_eq leaves.connection_self]
      omega
    · rw [if_neg (others other same).2.1, if_neg (others other same).2.2] at counted
      rw [leaves.number_of_ne same]
      exact counted
  · by_cases same : other = threadNo
    · rw [same]
      exact ⟨registered, outside⟩
    · refine ledger.stillOutside keeps leaves.serving other fun none => serves ?_
      exact (Function.update_of_ne same _ _).trans none

omit [CPython] in
/-- Where the thread gets to says how the numbers have changed. -/
theorem Serving.go_spec {channel next : HTTPChannel}
    (goes : HTTPChannel.CallGoes channel.calls next.calls) :
    next.running.length + 1 = channel.running.length +
        (if Serving.go id channel next = some (.calling id) then 1 else 0) ∧
      next.leaving = channel.leaving +
        (if Serving.go id channel next = some (.returning id) then 1 else 0) ∧
      ∀ other, other ≠ id → Serving.go id channel next ≠ some (.calling other) ∧
        Serving.go id channel next ≠ some (.returning other) := by
  have numbers : HTTPChannel.CallGoes (channel.running.length, channel.leaving)
      (next.running.length, next.leaving) := goes
  unfold Serving.go
  generalize channel.running.length = running at numbers ⊢
  generalize channel.leaving = leaving at numbers ⊢
  generalize next.running.length = runningThen at numbers ⊢
  generalize next.leaving = leavingThen at numbers ⊢
  cases numbers with
  | on => simp +contextual [eq_comm]
  | escapes => simp
  | leaves => simp +contextual [eq_comm]

theorem Ledger.calls (ledger : process.Ledger) {threadNo : Nat}
    (calling : process.serving threadNo = some (.calling id)) (isService : action.isService = true)
    (leaves : Leaves id action now woken process before after final) :
    (final.setServing threadNo (Serving.go id before.channel after.channel)).Ledger := by
  obtain ⟨-, goes, adds, -⟩ :=
    HTTPChannel.service_serviceStep before.context isService leaves.taken
  obtain ⟨running, leaving, others⟩ := @Serving.go_spec id _ _ goes
  refine ledger.moved leaves adds calling (Option.some_ne_none _) ?_ ?_ fun other different => ?_
  · rw [if_pos rfl]
    exact running
  · rw [@if_neg (some (Serving.calling id) = some (.returning id)) _ nofun]
    exact leaving
  · obtain ⟨notCalling, notReturning⟩ := others other different
    exact ⟨⟨fun same => different (by cases same; rfl), notCalling⟩, nofun, notReturning⟩

theorem Ledger.returns (ledger : process.Ledger) {threadNo : Nat}
    (returning : process.serving threadNo = some (.returning id))
    (leaves : Leaves id .return_ now woken process before after final) :
    (final.setServing threadNo none).Ledger := by
  obtain ⟨left, returned⟩ := HTTPChannel.next_return_ before.context leaves.taken
  refine ledger.moved leaves (.inl (by rw [returned])) returning (Option.some_ne_none _) ?_ ?_
    fun other different => ?_
  · rw [returned]
    rfl
  · rw [returned, if_pos rfl]
    exact Nat.sub_add_cancel left
  · exact ⟨⟨nofun, nofun⟩, fun same => different (by cases same; rfl), nofun⟩

/-! ### Steps of the dispatcher -/

/-- The channel has fewer tasks, so that nothing is added. -/
theorem Leaves.pool_of_le (leaves : Leaves id action now woken process before after final)
    (fewer : after.channel.pendingTasks ≤ before.channel.pendingTasks) :
    final.pool = process.pool := by
  have added := leaves.pool
  rw [addTasks, if_neg (Nat.not_lt.mpr fewer)] at added
  exact (Option.some.inj added).symm

theorem Ledger.takes (ledger : process.Ledger) {threadNo : Nat}
    {pool : ThreadedTaskDispatcher Nat} (free : process.serving threadNo = none)
    (handles : ThreadedTaskDispatcher.Handles threadNo process.pool pool)
    (first : process.pool.queue = id :: pool.queue)
    (leaves : Leaves id .pop now woken process before after final) :
    (setServing threadNo (some (.calling id)) { final with pool }).Ledger := by
  obtain ⟨queued, popped⟩ := HTTPChannel.next_pop before.context leaves.taken
  cases handles with
  | waits registered same =>
      rw [same] at first
      exact absurd first (List.cons_ne_self _ _).symm
  | takes registered queue threads position =>
      have threadsAt : ∀ serving,
          ({ final with pool } : Process).threadsAt serving = process.threadsAt serving := by
        intro serving
        rw [Process.threadsAt, Process.threadsAt, leaves.serving, threads]
      have count : ∀ serving,
          ((setServing threadNo (some (.calling id)) { final with pool }).threadsAt serving).card =
            (process.threadsAt serving).card +
              if some (.calling id) = some serving then 1 else 0 := by
        intro serving
        have notThere : ¬ final.serving threadNo = some serving := by
          rw [leaves.serving, free]
          exact nofun
        have counted := @threadsAt_setServing { final with pool } threadNo
          (by rw [threads]; exact registered) (some (.calling id)) serving
        change _ + (if final.serving threadNo = some serving then 1 else 0) = _ at counted
        rw [if_neg notThere, threadsAt] at counted
        exact counted
      refine ⟨fun other => ?_, fun other => ?_, fun other => ?_, fun other serves => ?_⟩
      · have before_ := ledger.tasks other
        rw [first, List.count_cons] at before_
        change pool.queue.count other = final.number HTTPChannel.pendingTasks other
        by_cases same : other = id
        · rw [same, beq_self_eq_true, if_pos rfl, number_eq leaves.found] at before_
          rw [same, number_eq leaves.connection_self, popped]
          dsimp only
          omega
        · rw [if_neg fun equal => same (beq_iff_eq.mp equal).symm] at before_
          rw [leaves.number_of_ne same]
          exact before_
      · have counted := count (.calling other)
        rw [ledger.calling other] at counted
        change _ = final.number (fun channel => channel.running.length) other
        by_cases same : other = id
        · rw [same, number_eq leaves.found] at counted
          rw [same, number_eq leaves.connection_self, popped]
          simpa using counted
        · rw [leaves.number_of_ne same]
          simpa [Ne.symm same] using counted
      · have counted := count (.returning other)
        rw [ledger.returning other] at counted
        change _ = final.number HTTPChannel.leaving other
        by_cases same : other = id
        · rw [same, number_eq leaves.found] at counted
          rw [same, number_eq leaves.connection_self, popped]
          simpa using counted
        · rw [leaves.number_of_ne same]
          simpa using counted
      · change other ∈ pool.threads ∧ pool.position other = .outside
        rw [threads, position]
        by_cases same : other = threadNo
        · rw [same]
          exact ⟨registered, Function.update_self _ _ _⟩
        · rw [Function.update_of_ne same]
          refine ledger.outside other fun none => serves ?_
          exact (Function.update_of_ne same _ _).trans (leaves.serving ▸ none)

omit [CPython] in
/-- A handler thread that is in no call waits, or ends. -/
theorem Ledger.waits (ledger : process.Ledger) {threadNo : Nat}
    {pool : ThreadedTaskDispatcher Nat} (free : process.serving threadNo = none)
    (queue : pool.queue = process.pool.queue) (fewer : pool.threads ⊆ process.pool.threads)
    (others : process.pool.threads.erase threadNo ⊆ pool.threads)
    (position : ∀ other, other ≠ threadNo → pool.position other = process.pool.position other) :
    ({ process with pool } : Process).Ledger := by
  have staffed : ∀ other, process.serving other ≠ none → other ≠ threadNo :=
    fun other serves same => serves (same ▸ free)
  have threadsAt : ∀ serving,
      ({ process with pool } : Process).threadsAt serving = process.threadsAt serving := by
    intro serving
    unfold Process.threadsAt
    ext other
    rw [Finset.mem_filter, Finset.mem_filter]
    refine and_congr_left fun serves => ⟨fun mem => fewer mem, fun mem => others ?_⟩
    exact Finset.mem_erase.mpr ⟨staffed other (by rw [serves]; exact Option.some_ne_none _), mem⟩
  refine ⟨fun other => ?_, fun other => ?_, fun other => ?_, fun other serves => ?_⟩
  · exact (congrArg (List.count other) queue).trans (ledger.tasks other)
  · rw [threadsAt]
    exact ledger.calling other
  · rw [threadsAt]
    exact ledger.returning other
  · obtain ⟨registered, outside⟩ := ledger.outside other serves
    exact ⟨others (Finset.mem_erase.mpr ⟨staffed other serves, registered⟩),
      (position other (staffed other serves)).trans outside⟩

omit [CPython] in
theorem Ledger.setThreadCount (ledger : process.Ledger) (count : Nat) :
    ({ process with pool := process.pool.setThreadCount count } : Process).Ledger := by
  obtain ⟨keeps, queue⟩ :=
    ThreadedTaskDispatcher.setThreadCount_keepsOutside count process.pool
  have threadsAt := @Ledger.threadsAt process
    { process with pool := process.pool.setThreadCount count } ledger keeps rfl
  refine ⟨fun other => ?_, fun other => ?_, fun other => ?_, ledger.stillOutside keeps rfl⟩
  · exact (congrArg (List.count other) queue).trans (ledger.tasks other)
  · rw [threadsAt]
    exact ledger.calling other
  · rw [threadsAt]
    exact ledger.returning other

/-- What the channels of the queue have in common with it. -/
theorem cancelTasks_number {ids : List Nat} (done : cancelTasks now ids process = some final)
    (counts : ∀ other, process.number HTTPChannel.pendingTasks other = ids.count other) :
    final.pool = process.pool ∧ final.serving = process.serving ∧
      ∀ other, final.number HTTPChannel.pendingTasks other = 0 ∧
        final.number (fun channel => channel.running.length) other =
          process.number (fun channel => channel.running.length) other ∧
        final.number HTTPChannel.leaving other = process.number HTTPChannel.leaving other := by
  induction ids generalizing process with
  | nil =>
      cases done
      exact ⟨rfl, rfl, fun other => ⟨counts other, rfl, rfl⟩⟩
  | cons id ids inductionHypothesis =>
      obtain ⟨middle, acted, rest⟩ := Option.bind_eq_some_iff.mp done
      obtain ⟨before, after, leaves⟩ := act_leaves acted
      obtain ⟨queued, cancelled⟩ := HTTPChannel.next_cancel before.context leaves.taken
      have fewer : after.channel.pendingTasks = before.channel.pendingTasks - 1 := by
        rw [cancelled]
        rfl
      have left : ∀ other, middle.number HTTPChannel.pendingTasks other = ids.count other := by
        intro other
        have count := counts other
        rw [List.count_cons] at count
        by_cases same : other = id
        · rw [same, number_eq leaves.found, beq_self_eq_true, if_pos rfl] at count
          rw [same, number_eq leaves.connection_self]
          omega
        · rw [if_neg fun equal => same (beq_iff_eq.mp equal).symm] at count
          rw [leaves.number_of_ne same]
          exact count
      obtain ⟨pool, serving, numbers⟩ := inductionHypothesis rest left
      refine ⟨pool.trans (leaves.pool_of_le (by omega)), serving.trans leaves.serving,
        fun other => ⟨(numbers other).1, (numbers other).2.1.trans ?_,
          (numbers other).2.2.trans ?_⟩⟩
      · by_cases same : other = id
        · rw [same, number_eq leaves.found, number_eq leaves.connection_self, cancelled]
          rfl
        · exact leaves.number_of_ne same _
      · by_cases same : other = id
        · rw [same, number_eq leaves.found, number_eq leaves.connection_self, cancelled]
          rfl
        · exact leaves.number_of_ne same _

theorem Ledger.cancelPending (ledger : process.Ledger)
    (done : cancelTasks now process.pool.queue process = some final) :
    ({ final with pool := final.pool.cancelPending } : Process).Ledger := by
  obtain ⟨pool, serving, numbers⟩ :=
    cancelTasks_number done fun other => (ledger.tasks other).symm
  have keeps : process.pool.KeepsOutside final.pool.cancelPending := by
    rw [pool]
    exact ⟨fun _ mem => mem, fun _ _ outside =>
      ThreadedTaskDispatcher.notifyAll_outside outside⟩
  have threadsAt := @Ledger.threadsAt process
    { final with pool := final.pool.cancelPending } ledger keeps serving
  refine ⟨fun other => (numbers other).1.symm, fun other => ?_, fun other => ?_,
    ledger.stillOutside keeps serving⟩
  · rw [threadsAt, ledger.calling]
    exact (numbers other).2.1.symm
  · rw [threadsAt, ledger.returning]
    exact (numbers other).2.2.symm

/-! ### Every step -/

omit [CPython] in
theorem Ledger.of_same (ledger : process.Ledger) (pool : final.pool = process.pool)
    (serving : final.serving = process.serving)
    (number : ∀ (other : Nat),
      final.number HTTPChannel.pendingTasks other =
          process.number HTTPChannel.pendingTasks other ∧
        final.number (fun channel => channel.running.length) other =
          process.number (fun channel => channel.running.length) other ∧
        final.number HTTPChannel.leaving other = process.number HTTPChannel.leaving other) :
    final.Ledger := by
  have keeps : process.pool.KeepsOutside final.pool := by
    rw [pool]
    exact .refl _
  have threadsAt := ledger.threadsAt keeps serving
  refine ⟨fun other => ?_, fun other => ?_, fun other => ?_, ledger.stillOutside keeps serving⟩
  · rw [pool, (number other).1]
    exact ledger.tasks other
  · rw [threadsAt, (number other).2.1]
    exact ledger.calling other
  · rw [threadsAt, (number other).2.2]
    exact ledger.returning other

omit [CPython] in
theorem Ledger.of_connection (ledger : process.Ledger) (pool : final.pool = process.pool)
    (serving : final.serving = process.serving)
    (connection : final.connection = process.connection) : final.Ledger := by
  refine ledger.of_same pool serving fun other => ?_
  unfold number
  rw [connection]
  exact ⟨rfl, rfl, rfl⟩

variable {adj : ServerAdjustments}

omit [CPython] in
theorem cleanUp_pool (i : Nat) : (process.cleanUp adj i now).pool = process.pool ∧
    (process.cleanUp adj i now).serving = process.serving := by
  unfold Process.cleanUp
  dsimp only
  split
  · exact ⟨rfl, rfl⟩
  · exact ⟨rfl, rfl⟩

omit [CPython] in
theorem Ledger.cleanUp (ledger : process.Ledger) (i : Nat) :
    (process.cleanUp adj i now).Ledger := by
  obtain ⟨pool, serving⟩ := @cleanUp_pool now process adj i
  refine ledger.of_same pool serving fun other => ?_
  rcases @cleanUp_connection adj now i other process with same | ⟨before, was, -, -, cleaned⟩
  · unfold number
    rw [same]
    exact ⟨rfl, rfl, rfl⟩
  · simp only [number_eq was, number_eq cleaned]
    unfold HTTPChannel.maintain
    split
    · exact ⟨rfl, rfl, rfl⟩
    · exact ⟨rfl, rfl, rfl⟩

omit [CPython] in
theorem Ledger.testReadable (ledger : process.Ledger) {registered : Registered}
    {tested : Bool × Process}
    (done : process.testReadable adj now registered = some tested) : tested.2.Ledger := by
  cases testReadable_tests done with
  | other => exact ledger
  | @server i inConnectionOverflow cleaned same =>
      have cleanedUp := @Ledger.cleanUp now process adj ledger i
      rw [← same] at cleanedUp
      exact cleanedUp.of_connection rfl rfl rfl

omit [CPython] in
theorem Ledger.addChannel (ledger : process.Ledger) (registry : process.Registry) (i fileno : Nat)
    (context : ChannelContext) (socket : List SendResult) :
    (process.addChannel i fileno context socket now).Ledger := by
  refine ledger.of_same rfl rfl fun other => ?_
  have unknown := registry.fresh process.nextId (Nat.le_refl _)
  unfold number
  by_cases same : other = process.nextId
  · rw [same, addChannel_connection_self, unknown]
    exact ⟨rfl, rfl, rfl⟩
  · rw [addChannel_connection_of_ne _ same]
    exact ⟨rfl, rfl, rfl⟩

theorem Ledger.handle (ledger : process.Ledger) {r w e : List Nat}
    (done : process.handle id action now woken r w e = some final) (isMain : action.IsMain) :
    final.Ledger := by
  obtain ⟨middle, acted, done⟩ := Option.bind_eq_some_iff.mp done
  obtain ⟨connection, found, done⟩ := Option.bind_eq_some_iff.mp done
  cases done
  obtain ⟨before, after, leaves⟩ := act_leaves acted
  exact (ledger.main leaves isMain).of_connection rfl rfl rfl

theorem Ledger.handled (ledger : process.Ledger) (registry : process.Registry)
    {busy : Option Nat} {r' r w e : List Nat}
    (done : Handled adj now process busy r' r w e final) : final.Ledger := by
  cases done with
  | nothing => exact ledger.of_connection rfl rfl rfl
  | accepts => exact (ledger.addChannel registry _ _ _ _).of_connection rfl rfl rfl
  | closeServer => exact ledger.of_connection rfl rfl rfl
  | @readTrigger i =>
      obtain ⟨server, read⟩ := readTrigger_eq i process
      rw [read]
      exact ledger.of_connection rfl rfl rfl
  | channel alone done isMain => exact ledger.handle done isMain

theorem Ledger.perform (ledger : process.Ledger) (registry : process.Registry) {action : Action}
    (taken : process.perform adj now action = some final) : final.Ledger := by
  have turn : ∀ loop, ({ process with loop } : Process).Ledger :=
    fun loop => ledger.of_connection rfl rfl rfl
  cases perform_steps adj taken with
  | testReadable at_ tested => exact (ledger.testReadable tested).of_connection rfl rfl rfl
  | handled at_ suffix done => exact ledger.handled registry done
  | setThreadCount => exact ledger.setThreadCount _
  | cancelPending at_ done => exact ledger.cancelPending done
  | handlerThread done =>
      cases handlerThread_takes done with
      | task free handled first same acted leaves =>
          subst same
          exact ledger.takes free (ThreadedTaskDispatcher.handlerThread_handles handled) first leaves
      | other free handled notTaken =>
          cases ThreadedTaskDispatcher.handlerThread_handles handled with
          | takes registered queue => exact absurd rfl (notTaken _ _ queue)
          | waits registered queue fewer others position =>
              exact ledger.waits free queue fewer others position
  | service done =>
      cases service_serves done with
      | calls calling isService acted leaves => exact ledger.calls calling isService leaves
      | returns returning acted leaves => exact ledger.returns returning leaves
  | testWritable | select | selectFails | poll | interrupt => exact turn _

end

end Process

end Waitress
