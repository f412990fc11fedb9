import Waitress.Channel.Interleaving

/-!
# One flusher at a time

The main thread flushes without the lock when no request is queued.  The argument is
that no task is running then; the last section of `service` is where it fails.
-/

namespace Waitress.Interleaving

/-- What the main thread may rely on about the worker. -/
structure WorkerPosition.Alike (before after : WorkerPosition) : Prop where
  isBusy : after.isBusy = before.isBusy
  holdsRequests : after.holdsRequests = before.holdsRequests
  holdsOutbufs : after.holdsOutbufs = before.holdsOutbufs
  isContinuing : after.isContinuing = before.isContinuing
  flush : after.flush? = before.flush?

theorem WorkerPosition.Alike.refl (position : WorkerPosition) : Alike position position :=
  ⟨rfl, rfl, rfl, rfl, rfl⟩

theorem WorkerPosition.notify_alike (position : WorkerPosition) :
    Alike position position.notify := by
  cases position with
  | waiting waiter raised notified => exact ⟨rfl, rfl, rfl, rfl, rfl⟩
  | _ => exact .refl _

theorem WorkerPosition.holdsOutbufs_of_flush {position : WorkerPosition}
    (flushes : position.flush?.isSome = true) : position.holdsOutbufs = true := by
  cases position <;> first | rfl | cases flushes

theorem WorkerPosition.busy_or_continuing_of_flush {position : WorkerPosition}
    (flushes : position.flush?.isSome = true) :
    position.isBusy = true ∨ position.isContinuing = true := by
  cases position <;> first | exact .inl rfl | exact .inr rfl | cases flushes

theorem MainPosition.locked_of_flush {position : MainPosition}
    (flushes : position.flush?.isSome = true) :
    position.holdsOutbufs = true ∨ position.isUnlocked = true := by
  cases position <;> first | exact .inl rfl | exact .inr rfl | cases flushes

/-! ### Behind a step of a flush -/

theorem MainPosition.holdsRequests_of_afterFlush {outcome : FlushOutcome}
    {position : MainPosition} (holds : (position.afterFlush outcome).holdsRequests = true) :
    position.holdsRequests = true := by
  cases position <;> cases outcome <;> first | rfl | exact holds

theorem MainPosition.holdsOutbufs_of_afterFlush {outcome : FlushOutcome}
    {position : MainPosition} (holds : (position.afterFlush outcome).holdsOutbufs = true) :
    position.holdsOutbufs = true ∨ outcome = .at .closed := by
  cases position with
  | flushing flush =>
      cases outcome with
      | «at» next => exact .inr (congrArg FlushOutcome.at (of_decide_eq_true holds))
      | returned => cases holds
      | raised => cases holds
  | announceFlushing flush => exact .inl rfl
  | lockableFlushing flush => exact .inl rfl
  | _ => cases outcome <;> exact .inl holds

theorem MainPosition.isUnlocked_of_afterFlush {outcome : FlushOutcome}
    {position : MainPosition} (unlocked : (position.afterFlush outcome).isUnlocked = true) :
    position.isUnlocked = true := by
  cases position <;> cases outcome <;> first | rfl | exact unlocked

theorem WorkerPosition.afterFlush_isBusy (outcome : FlushOutcome) (position : WorkerPosition) :
    (position.afterFlush outcome).isBusy = position.isBusy := by
  cases position <;> cases outcome <;> rfl

theorem WorkerPosition.holdsRequests_of_afterFlush {outcome : FlushOutcome}
    {position : WorkerPosition} (holds : (position.afterFlush outcome).holdsRequests = true) :
    position.holdsRequests = true := by
  cases position <;> cases outcome <;> first | rfl | exact holds

theorem WorkerPosition.isContinuing_of_afterFlush {outcome : FlushOutcome}
    {position : WorkerPosition} (continuing : (position.afterFlush outcome).isContinuing = true) :
    position.isContinuing = true := by
  cases position <;> cases outcome <;> first | rfl | exact continuing

theorem MainPosition.flush_afterFlush {position : MainPosition}
    (flushes : position.flush?.isSome = true) (outcome : FlushOutcome) :
    (position.afterFlush outcome).flush? =
      match outcome with
      | .at next => some next
      | _ => none := by
  cases position <;> first | (cases outcome <;> rfl) | cases flushes

theorem WorkerPosition.flush_afterFlush {position : WorkerPosition}
    (flushes : position.flush?.isSome = true) (outcome : FlushOutcome) :
    (position.afterFlush outcome).flush? =
      match outcome with
      | .at next => some next
      | _ => none := by
  cases position <;> first | (cases outcome <;> rfl) | cases flushes

namespace State

/-- Both threads are between the `get` and the `skip` of a round. -/
def Overlap (state : State) : Prop :=
  state.main.flush?.any FlushPosition.isBetween = true ∧
    state.worker.flush?.any FlushPosition.isBetween = true

/-- Who may be where at the same time. -/
structure Exclusive (state : State) : Prop where
  queued : state.worker.isBusy = true → 0 < state.requests
  unique : state.worker.isBusy = true → state.pendingTasks = 0
  single : state.pendingTasks ≤ 1
  tasks : 0 < state.pendingTasks → 0 < state.requests
  requestsLock : state.main.holdsRequests = true → state.worker.holdsRequests = false
  outbufLock : state.main.holdsOutbufs = true → state.worker.holdsOutbufs = false
  alone : state.main.isUnlocked = true →
    state.requests = 0 ∧ state.worker.isContinuing = false

theorem Exclusive.not_overlap {state : State} (exclusive : state.Exclusive) : ¬ state.Overlap := by
  rintro ⟨mainBetween, workerBetween⟩
  have main := Option.isSome_of_any mainBetween
  have worker := Option.isSome_of_any workerBetween
  rcases MainPosition.locked_of_flush main with locked | unlocked
  · have holds := WorkerPosition.holdsOutbufs_of_flush worker
    exact Bool.false_ne_true ((exclusive.outbufLock locked).symm.trans holds)
  · obtain ⟨none, calm⟩ := exclusive.alone unlocked
    rcases WorkerPosition.busy_or_continuing_of_flush worker with busy | continuing
    · exact absurd none (Nat.ne_of_gt (exclusive.queued busy))
    · exact Bool.false_ne_true (calm.symm.trans continuing)

theorem Exclusive.mainMoves {before after : State} (exclusive : before.Exclusive)
    (requests : after.requests = before.requests)
    (pendingTasks : after.pendingTasks = before.pendingTasks)
    (worker : WorkerPosition.Alike before.worker after.worker)
    (requestsLock : after.main.holdsRequests = true →
      before.main.holdsRequests = true ∨ before.worker.holdsRequests = false)
    (outbufLock : after.main.holdsOutbufs = true →
      before.main.holdsOutbufs = true ∨ before.worker.holdsOutbufs = false)
    (alone : after.main.isUnlocked = true → before.main.isUnlocked = true ∨
      before.requests = 0 ∧ before.worker.isContinuing = false) : after.Exclusive where
  queued := by
    rw [worker.isBusy, requests]
    exact exclusive.queued
  unique := by
    rw [worker.isBusy, pendingTasks]
    exact exclusive.unique
  single := by
    rw [pendingTasks]
    exact exclusive.single
  tasks := by
    rw [pendingTasks, requests]
    exact exclusive.tasks
  requestsLock holds := by
    rw [worker.holdsRequests]
    exact (requestsLock holds).elim exclusive.requestsLock id
  outbufLock holds := by
    rw [worker.holdsOutbufs]
    exact (outbufLock holds).elim exclusive.outbufLock id
  alone unlocked := by
    rw [requests, worker.isContinuing]
    exact (alone unlocked).elim exclusive.alone id

theorem Exclusive.workerMoves {before after : State} (exclusive : before.Exclusive)
    (requests : after.requests = before.requests)
    (pendingTasks : after.pendingTasks = before.pendingTasks) (main : after.main = before.main)
    (busy : after.worker.isBusy = true → before.worker.isBusy = true)
    (requestsLock : after.worker.holdsRequests = true →
      before.worker.holdsRequests = true ∨ before.main.holdsRequests = false)
    (outbufLock : after.worker.holdsOutbufs = true →
      before.worker.holdsOutbufs = true ∨ before.main.holdsOutbufs = false)
    (continuing : after.worker.isContinuing = true →
      before.worker.isContinuing = true ∨ before.main.isUnlocked = false) : after.Exclusive where
  queued := by
    rw [requests]
    exact exclusive.queued ∘ busy
  unique := by
    rw [pendingTasks]
    exact exclusive.unique ∘ busy
  single := by
    rw [pendingTasks]
    exact exclusive.single
  tasks := by
    rw [pendingTasks, requests]
    exact exclusive.tasks
  requestsLock holds := by
    rw [main] at holds
    by_contra held
    rcases requestsLock (Bool.eq_true_of_not_eq_false held) with before | free
    · exact Bool.false_ne_true ((exclusive.requestsLock holds).symm.trans before)
    · exact Bool.false_ne_true (free.symm.trans holds)
  outbufLock holds := by
    rw [main] at holds
    by_contra held
    rcases outbufLock (Bool.eq_true_of_not_eq_false held) with before | free
    · exact Bool.false_ne_true ((exclusive.outbufLock holds).symm.trans before)
    · exact Bool.false_ne_true (free.symm.trans holds)
  alone unlocked := by
    rw [main] at unlocked
    obtain ⟨none, calm⟩ := exclusive.alone unlocked
    refine ⟨requests.trans none, ?_⟩
    by_contra now
    rcases continuing (Bool.eq_true_of_not_eq_false now) with before | free
    · exact Bool.false_ne_true (calm.symm.trans before)
    · exact Bool.false_ne_true (free.symm.trans unlocked)

/-! ### The steps -/

theorem flushStep_frame (context : ChannelContext) (doClose : Bool) (answer : SendResult)
    (position : FlushPosition) (state : State) :
    let after := (flushStep context doClose answer position state).2
    after.requests = state.requests ∧ after.pendingTasks = state.pendingTasks ∧
      after.main = state.main ∧ WorkerPosition.Alike state.worker after.worker ∧
      (after.output.connected = true → state.output.connected = true) := by
  have same : ∀ after : State, after.requests = state.requests →
      after.pendingTasks = state.pendingTasks → after.main = state.main →
      after.worker = state.worker → after.output.connected = state.output.connected →
      after.requests = state.requests ∧ after.pendingTasks = state.pendingTasks ∧
        after.main = state.main ∧ WorkerPosition.Alike state.worker after.worker ∧
        (after.output.connected = true → state.output.connected = true) := by
    intro after requests pendingTasks main worker connected
    refine ⟨requests, pendingTasks, main, ?_, ?_⟩
    · rw [worker]
      exact .refl _
    · rw [connected]
      exact id
  cases position with
  | top =>
      rw [flushStep]
      split
      · exact same _ rfl rfl rfl rfl rfl
      · exact same _ rfl rfl rfl rfl rfl
  | looping number outbuflen =>
      rw [flushStep]
      split
      · split
        · exact same _ rfl rfl rfl rfl rfl
        · exact same _ rfl rfl rfl rfl rfl
      · split
        · exact same _ rfl rfl rfl rfl rfl
        · exact same _ rfl rfl rfl rfl rfl
  | got number outbuflen chunk =>
      cases answer with
      | sent n =>
          rw [flushStep]
          split
          · exact same _ rfl rfl rfl rfl rfl
          · exact same _ rfl rfl rfl rfl rfl
      | wouldBlock => exact same _ rfl rfl rfl rfl rfl
      | disconnected => exact same _ rfl rfl rfl rfl rfl
      | raises exc => exact same _ rfl rfl rfl rfl rfl
  | sent number outbuflen numSent =>
      rw [flushStep]
      split
      · exact same _ rfl rfl rfl rfl rfl
      · split
        · exact same _ rfl rfl rfl rfl rfl
        · exact same _ rfl rfl rfl rfl rfl
  | closing => exact ⟨rfl, rfl, rfl, WorkerPosition.notify_alike _, Bool.noConfusion⟩
  | closed => exact same _ rfl rfl rfl rfl rfl

/-- The main thread gets to its last position under the lock only when the lock is free. -/
theorem flushStep_closed {context : ChannelContext} {doClose : Bool} {answer : SendResult}
    {position : FlushPosition} {state : State}
    (closed : (flushStep context doClose answer position state).1 = .at .closed) :
    position = .closing := by
  cases position with
  | closing => rfl
  | top =>
      rw [flushStep] at closed
      split at closed <;> cases closed
  | looping number outbuflen =>
      rw [flushStep] at closed
      split at closed <;> split at closed <;> cases closed
  | got number outbuflen chunk =>
      cases answer with
      | sent n =>
          rw [flushStep] at closed
          split at closed <;> cases closed
      | disconnected => cases doClose <;> cases closed
      | _ => cases closed
  | sent number outbuflen numSent =>
      rw [flushStep] at closed
      split at closed
      · cases closed
      · split at closed <;> cases closed
  | closed => cases closed

variable (context : ChannelContext)

theorem flushMain_exclusive {state : State} (exclusive : state.Exclusive) (answer : SendResult)
    (free : state.main.flush? = some .closing → state.worker.holdsOutbufs = false) :
    (flushMain context answer state).Exclusive := by
  rw [flushMain]
  cases flush : state.main.flush? with
  | none => exact exclusive
  | some position =>
      obtain ⟨requests, pendingTasks, main, worker, -⟩ :=
        flushStep_frame context true answer position state
      have closes := @flushStep_closed context true answer position state
      dsimp only
      generalize flushStep context true answer position state = result at *
      obtain ⟨outcome, after⟩ := result
      dsimp only at *
      have caught : (catchRaised outcome state.main.catches after).requests = state.requests ∧
          (catchRaised outcome state.main.catches after).pendingTasks = state.pendingTasks ∧
          (catchRaised outcome state.main.catches after).worker = after.worker := by
        rw [catchRaised]
        split
        · exact ⟨requests, pendingTasks, rfl⟩
        · exact ⟨requests, pendingTasks, rfl⟩
      obtain ⟨requests, pendingTasks, same⟩ := caught
      refine Exclusive.mainMoves exclusive ?_ ?_ ?_ ?_ ?_ ?_
      · exact requests
      · exact pendingTasks
      · change WorkerPosition.Alike state.worker (catchRaised outcome _ after).worker
        rw [same]
        exact worker
      · exact fun holds => .inl (MainPosition.holdsRequests_of_afterFlush holds)
      · intro holds
        refine (MainPosition.holdsOutbufs_of_afterFlush holds).imp_right fun closed => ?_
        exact free (flush.trans (congrArg some (closes closed)))
      · exact fun unlocked => .inl (MainPosition.isUnlocked_of_afterFlush unlocked)

theorem flushWorker_exclusive {state : State} (exclusive : state.Exclusive) (answer : SendResult)
    (flushes : state.worker.flush?.isSome = true) :
    (flushWorker context answer state).Exclusive := by
  rw [flushWorker]
  cases flush : state.worker.flush? with
  | none => exact exclusive
  | some position =>
      obtain ⟨requests, pendingTasks, main, worker, -⟩ :=
        flushStep_frame context state.worker.doClose answer position state
      dsimp only
      generalize flushStep context state.worker.doClose answer position state = result at *
      obtain ⟨outcome, after⟩ := result
      dsimp only at *
      have caught : (catchRaised outcome state.worker.catches after).requests = state.requests ∧
          (catchRaised outcome state.worker.catches after).pendingTasks = state.pendingTasks ∧
          (catchRaised outcome state.worker.catches after).main = state.main := by
        rw [catchRaised]
        split
        · exact ⟨requests, pendingTasks, main⟩
        · exact ⟨requests, pendingTasks, main⟩
      obtain ⟨requests, pendingTasks, main⟩ := caught
      refine Exclusive.workerMoves exclusive requests pendingTasks main ?_ ?_ ?_ ?_
      · exact fun busy => (WorkerPosition.afterFlush_isBusy outcome state.worker).symm.trans busy
      · exact fun holds => .inl (WorkerPosition.holdsRequests_of_afterFlush holds)
      · exact fun _ => .inl (WorkerPosition.holdsOutbufs_of_flush flushes)
      · exact fun continuing => .inl (WorkerPosition.isContinuing_of_afterFlush continuing)

/-- No section of `send_continue` at the end of `service` overlaps a flush of `handle_write`
without the lock. -/
def FlushesAlone (action : Action) (state : State) : Prop :=
  match action with
  | .testRequests => state.requests = 0 → state.worker.isContinuing = false
  | .lockContinue => state.main.isUnlocked = false
  | _ => True

instance (action : Action) (state : State) : Decidable (FlushesAlone action state) :=
  match action with
  | .testRequests =>
      inferInstanceAs (Decidable (state.requests = 0 → state.worker.isContinuing = false))
  | .lockContinue => inferInstanceAs (Decidable (state.main.isUnlocked = false))
  | .startReading | .lockReading | .parse _ | .announce | .lockAnnounce | .appendAnnounce
  | .unlockAnnounce _ | .complete | .blank | .endReading _ | .unlockReading _ | .maintain
  | .testTotal | .tryLock | .flushMain _ | .notifyIfBelow | .unlockLockable | .testFlushed
  | .handOver | .closeIfWillClose | .startClosing | .lockClosing | .unlockClosing | .cancel
  | .serve | .write _ | .lockWriting _ | .look _ | .lockBelow _ | .flushWorker _
  | .waitOrUnlock _ _ | .wake _ _ | .unlockBelow _ | .append _ | .unlockWriting | .endTask _
  | .lockSettling | .unlockSettling | .testBacklog | .lockPopping | .pop | .testContinue
  | .appendContinue | .unlockContinue | .leave => .isTrue trivial

theorem Exclusive.complete {state : State} (exclusive : state.Exclusive)
    (receiving : state.main = .receiving) : state.complete.Exclusive := by
  refine ⟨fun _ => Nat.succ_pos _, fun busy => ?_, ?_, fun _ => Nat.succ_pos _,
    exclusive.requestsLock, exclusive.outbufLock, fun unlocked => ?_⟩
  · change (if state.requests = 0 then _ else _) = 0
    rw [if_neg (Nat.ne_of_gt (exclusive.queued busy)), exclusive.unique busy]
  · change (if state.requests = 0 then _ else _) ≤ 1
    split
    · next none =>
        have tasks := exclusive.tasks
        omega
    · exact exclusive.single
  · change state.main.isUnlocked = true at unlocked
    rw [receiving] at unlocked
    exact Bool.noConfusion unlocked

/-- There was a task, so that no worker serves a request. -/
theorem Exclusive.cancel {state : State} (exclusive : state.Exclusive)
    (pending : 0 < state.pendingTasks) : state.cancel.Exclusive := by
  have single := exclusive.single
  have none : state.cancel.pendingTasks = 0 := by
    change state.pendingTasks - 1 = 0
    omega
  refine ⟨fun busy => ?_, fun _ => none, none.trans_le (Nat.zero_le 1),
    fun more => absurd none (Nat.ne_of_gt more), exclusive.requestsLock, exclusive.outbufLock,
    fun unlocked => ⟨rfl, (exclusive.alone unlocked).2⟩⟩
  exact absurd (exclusive.unique busy) (Nat.ne_of_gt pending)

theorem Exclusive.serve {state : State} (exclusive : state.Exclusive)
    (pending : 0 < state.pendingTasks) :
    { state with pendingTasks := state.pendingTasks - 1, worker := .serving }.Exclusive := by
  have single := exclusive.single
  have none : state.pendingTasks - 1 = 0 := by omega
  refine ⟨fun _ => exclusive.tasks pending, fun _ => none, none.trans_le (Nat.zero_le 1),
    fun more => absurd none (Nat.ne_of_gt more), fun _ => rfl, fun _ => rfl, fun unlocked => ?_⟩
  exact ⟨(exclusive.alone unlocked).1, rfl⟩

theorem Exclusive.settle {state : State} (exclusive : state.Exclusive)
    (worker : state.worker = .closing) (free : state.main.holdsRequests = false) :
    state.settle.Exclusive := by
  have none : state.pendingTasks = 0 := exclusive.unique (by rw [worker]; rfl)
  refine ⟨Bool.noConfusion, fun _ => none, exclusive.single,
    fun pending => absurd none (Nat.ne_of_gt pending), fun holds => ?_, fun _ => rfl,
    fun _ => ⟨rfl, rfl⟩⟩
  exact absurd (free.symm.trans holds) Bool.false_ne_true

theorem Exclusive.pop {state : State} (exclusive : state.Exclusive)
    (worker : state.worker = .popping) : state.pop.Exclusive := by
  have none : state.pendingTasks = 0 := exclusive.unique (by rw [worker]; rfl)
  have some : 0 < state.requests := exclusive.queued (by rw [worker]; rfl)
  have holds : state.main.holdsRequests = true → False := by
    intro held
    have free := exclusive.requestsLock held
    rw [worker] at free
    exact Bool.noConfusion free
  have locked : state.main.isUnlocked = true → False :=
    fun unlocked => Nat.ne_of_gt some (exclusive.alone unlocked).1
  rw [State.pop]
  split
  · next empty => exact absurd empty (Nat.ne_of_gt some)
  split
  · next more =>
      refine ⟨Bool.noConfusion, Bool.noConfusion, ?_, fun _ => ?_, fun held => (holds held).elim,
        fun _ => rfl, fun unlocked => (locked unlocked).elim⟩
      · change state.pendingTasks + 1 ≤ 1
        omega
      · change 0 < state.requests - 1
        omega
  · exact ⟨Bool.noConfusion, fun _ => none, exclusive.single,
      fun pending => absurd none (Nat.ne_of_gt pending), fun held => (holds held).elim,
      fun _ => rfl, fun unlocked => (locked unlocked).elim⟩

theorem Exclusive.mainRests {before after : State} (exclusive : before.Exclusive)
    (requests : after.requests = before.requests)
    (pendingTasks : after.pendingTasks = before.pendingTasks)
    (worker : WorkerPosition.Alike before.worker after.worker) {main : MainPosition}
    (there : after.main = main) (requestsFree : main.holdsRequests = false)
    (outbufsFree : main.holdsOutbufs = false) (locked : main.isUnlocked = false) :
    after.Exclusive := by
  apply exclusive.mainMoves requests pendingTasks worker
  · rw [there, requestsFree]
    exact Bool.noConfusion
  · rw [there, outbufsFree]
    exact Bool.noConfusion
  · rw [there, locked]
    exact Bool.noConfusion

theorem Exclusive.mainStays {before after : State} (exclusive : before.Exclusive)
    (requests : after.requests = before.requests)
    (pendingTasks : after.pendingTasks = before.pendingTasks)
    (worker : after.worker = before.worker) {start main : MainPosition}
    (here : before.main = start) (there : after.main = main)
    (requestsLock : main.holdsRequests = true → start.holdsRequests = true)
    (outbufLock : main.holdsOutbufs = true → start.holdsOutbufs = true)
    (locked : main.isUnlocked = false) : after.Exclusive := by
  apply exclusive.mainMoves requests pendingTasks
  · rw [worker]
    exact .refl _
  · rw [here, there]
    exact fun holds => .inl (requestsLock holds)
  · rw [here, there]
    exact fun holds => .inl (outbufLock holds)
  · rw [there, locked]
    exact Bool.noConfusion

theorem Exclusive.workerStays {before after : State} (exclusive : before.Exclusive)
    (requests : after.requests = before.requests)
    (pendingTasks : after.pendingTasks = before.pendingTasks) (main : after.main = before.main)
    {start worker : WorkerPosition} (here : before.worker = start) (there : after.worker = worker)
    (busy : worker.isBusy = true → start.isBusy = true)
    (requestsLock : worker.holdsRequests = true → start.holdsRequests = true)
    (outbufLock : worker.holdsOutbufs = true → start.holdsOutbufs = true)
    (continuing : worker.isContinuing = true → start.isContinuing = true) : after.Exclusive := by
  apply exclusive.workerMoves requests pendingTasks main
  · rw [here, there]
    exact busy
  · rw [here, there]
    exact fun holds => .inl (requestsLock holds)
  · rw [here, there]
    exact fun holds => .inl (outbufLock holds)
  · rw [here, there]
    exact fun now => .inl (continuing now)

theorem Exclusive.workerLocks {before after : State} (exclusive : before.Exclusive)
    (requests : after.requests = before.requests)
    (pendingTasks : after.pendingTasks = before.pendingTasks) (main : after.main = before.main)
    {start worker : WorkerPosition} (here : before.worker = start) (there : after.worker = worker)
    (busy : worker.isBusy = true → start.isBusy = true)
    (requestsLock : worker.holdsRequests = true → start.holdsRequests = true)
    (free : before.main.holdsOutbufs = false)
    (continuing : worker.isContinuing = true → before.main.isUnlocked = false) :
    after.Exclusive := by
  apply exclusive.workerMoves requests pendingTasks main
  · rw [here, there]
    exact busy
  · rw [here, there]
    exact fun holds => .inl (requestsLock holds)
  · exact fun _ => .inr free
  · rw [there]
    exact fun now => .inr (continuing now)

theorem next_exclusive {action : Action} {state after : State} (exclusive : state.Exclusive)
    (alone : FlushesAlone action state) (taken : next context action state = some after) :
    after.Exclusive := by
  obtain ⟨enabled, rfl⟩ := (next_eq_some context).mp taken
  have same : ∀ position, WorkerPosition.Alike position position := WorkerPosition.Alike.refl
  cases action with
  | startReading => exact exclusive.mainRests rfl rfl (same _) rfl rfl rfl rfl
  | lockReading =>
      refine exclusive.mainMoves rfl rfl (same _) ?_ ?_ ?_
      · exact fun _ => .inr enabled.2
      · change (if _ then _ else _ : MainPosition).holdsOutbufs = true → _
        split <;> exact Bool.noConfusion
      · change (if _ then _ else _ : MainPosition).isUnlocked = true → _
        split <;> exact Bool.noConfusion
  | parse expects => exact { exclusive with }
  | announce => exact exclusive.mainStays rfl rfl rfl enabled.1 rfl id id rfl
  | lockAnnounce =>
      refine exclusive.mainMoves rfl rfl (same _) ?_ ?_ ?_
      · exact fun _ => .inl (by rw [enabled.1]; rfl)
      · exact fun _ => .inr enabled.2
      · exact Bool.noConfusion
  | appendAnnounce =>
      change (appendAnnounce state).Exclusive
      rw [appendAnnounce]
      split
      · exact exclusive.mainStays rfl rfl rfl enabled rfl id id rfl
      · exact exclusive.mainStays rfl rfl rfl enabled rfl id id rfl
  | unlockAnnounce raised =>
      cases raised with
      | false => exact exclusive.mainStays rfl rfl rfl enabled rfl id Bool.noConfusion rfl
      | true => exact exclusive.mainStays rfl rfl rfl enabled rfl id Bool.noConfusion rfl
  | complete => exact exclusive.complete enabled
  | blank => exact { exclusive with }
  | endReading raised => exact exclusive.mainStays rfl rfl rfl enabled rfl id id rfl
  | unlockReading raised =>
      cases raised with
      | false => exact exclusive.mainRests rfl rfl (same _) rfl rfl rfl rfl
      | true => exact exclusive.mainRests rfl rfl (same _) rfl rfl rfl rfl
  | maintain => exact { exclusive with }
  | testRequests =>
      change (testRequests state).Exclusive
      rw [testRequests]
      split
      · next none =>
          refine exclusive.mainMoves rfl rfl (same _) ?_ ?_ ?_
          · exact Bool.noConfusion
          · exact Bool.noConfusion
          · exact fun _ => .inr ⟨none, alone none⟩
      · exact exclusive.mainRests rfl rfl (same _) rfl rfl rfl rfl
  | testTotal =>
      change (testTotal context state).Exclusive
      rw [testTotal]
      split
      · exact exclusive.mainRests rfl rfl (same _) rfl rfl rfl rfl
      · exact exclusive.mainRests rfl rfl (same _) rfl rfl rfl rfl
  | tryLock =>
      change (tryLock state).Exclusive
      rw [tryLock]
      split
      · exact exclusive.mainRests rfl rfl (same _) rfl rfl rfl rfl
      · next free =>
          refine exclusive.mainMoves rfl rfl (same _) ?_ ?_ ?_
          · exact Bool.noConfusion
          · exact fun _ => .inr (Bool.eq_false_iff.mpr free)
          · exact Bool.noConfusion
  | flushMain answer => exact flushMain_exclusive context exclusive answer enabled.2
  | notifyIfBelow =>
      change (notifyIfBelow context state).Exclusive
      rw [notifyIfBelow]
      refine exclusive.mainMoves rfl rfl ?_ ?_ ?_ ?_
      · dsimp only
        split
        · exact WorkerPosition.notify_alike _
        · exact same _
      · exact Bool.noConfusion
      · exact fun _ => .inl (by rw [show state.main = .notifying from enabled]; rfl)
      · exact Bool.noConfusion
  | unlockLockable | handOver | unlockClosing | startClosing =>
      exact exclusive.mainRests rfl rfl (same _) rfl rfl rfl rfl
  | testFlushed =>
      change (testFlushed state).Exclusive
      rw [testFlushed]
      split
      · exact exclusive.mainRests rfl rfl (same _) rfl rfl rfl rfl
      · exact exclusive.mainRests rfl rfl (same _) rfl rfl rfl rfl
  | closeIfWillClose =>
      change (closeIfWillClose state).Exclusive
      rw [closeIfWillClose]
      split
      · exact exclusive.mainRests rfl rfl (same _) rfl rfl rfl rfl
      · exact exclusive.mainRests rfl rfl (same _) rfl rfl rfl rfl
  | lockClosing =>
      refine exclusive.mainMoves rfl rfl (WorkerPosition.notify_alike _) ?_ ?_ ?_
      · exact Bool.noConfusion
      · exact fun _ => .inr enabled.2
      · exact Bool.noConfusion
  | cancel => exact exclusive.cancel enabled
  | serve => exact exclusive.serve enabled.1
  | write data => exact exclusive.workerStays rfl rfl rfl enabled.1 rfl id id id id
  | lockWriting data =>
      exact exclusive.workerLocks rfl rfl rfl enabled.1 rfl id id enabled.2 Bool.noConfusion
  | look waiter =>
      change (look context waiter state).Exclusive
      rw [look]
      cases waiter with
      | service =>
          split
          · exact exclusive.workerStays rfl rfl rfl enabled rfl id id id id
          · exact exclusive.workerStays rfl rfl rfl enabled rfl id id id id
      | writeSoon data =>
          split
          · exact exclusive.workerStays rfl rfl rfl enabled rfl id id id id
          · exact exclusive.workerStays rfl rfl rfl enabled rfl id id id id
  | lockBelow waiter =>
      exact exclusive.workerLocks rfl rfl rfl enabled.1 rfl id id enabled.2 Bool.noConfusion
  | flushWorker answer => exact flushWorker_exclusive context exclusive answer enabled
  | waitOrUnlock waiter raised =>
      change (waitOrUnlock context waiter raised state).Exclusive
      rw [waitOrUnlock]
      split
      · exact exclusive.workerStays rfl rfl rfl enabled rfl id id Bool.noConfusion id
      · exact exclusive.workerStays rfl rfl rfl enabled rfl id id id id
  | wake waiter raised =>
      cases raised with
      | true =>
          exact exclusive.workerLocks rfl rfl rfl enabled.1 rfl id id enabled.2 Bool.noConfusion
      | false =>
          exact exclusive.workerLocks rfl rfl rfl enabled.1 rfl id id enabled.2 Bool.noConfusion
  | unlockBelow waiter =>
      cases waiter with
      | service =>
          exact exclusive.workerStays rfl rfl rfl enabled rfl id id Bool.noConfusion id
      | writeSoon data => exact exclusive.workerStays rfl rfl rfl enabled rfl id id id id
  | append data =>
      change (append context data state).Exclusive
      rw [append]
      split
      · exact exclusive.workerStays rfl rfl rfl enabled rfl id id id id
      split
      · exact exclusive.workerStays rfl rfl rfl enabled rfl id id id id
      · split
        · exact exclusive.workerStays rfl rfl rfl enabled rfl id id id id
        · exact exclusive.workerStays rfl rfl rfl enabled rfl id id id id
  | unlockWriting => exact exclusive.workerStays rfl rfl rfl enabled rfl id id Bool.noConfusion id
  | endTask closeOnFinish =>
      cases closeOnFinish with
      | false => exact exclusive.workerStays rfl rfl rfl enabled rfl id id id id
      | true => exact exclusive.workerStays rfl rfl rfl enabled rfl id id id id
  | lockSettling => exact exclusive.settle enabled.1 enabled.2
  | unlockSettling =>
      exact exclusive.workerStays rfl rfl rfl enabled rfl id Bool.noConfusion id id
  | testBacklog =>
      change (testBacklog state).Exclusive
      rw [testBacklog]
      split
      · exact exclusive.workerStays rfl rfl rfl enabled rfl id id id id
      · exact exclusive.workerStays rfl rfl rfl enabled rfl id id id id
  | lockPopping =>
      refine exclusive.workerMoves rfl rfl rfl ?_ ?_ ?_ ?_
      · exact fun _ => by rw [enabled.1]; rfl
      · exact fun _ => .inr enabled.2
      · exact Bool.noConfusion
      · exact Bool.noConfusion
  | pop => exact exclusive.pop enabled
  | testContinue =>
      change (testContinue state).Exclusive
      rw [testContinue]
      split
      · exact exclusive.workerStays rfl rfl rfl enabled rfl id id id id
      · exact exclusive.workerStays rfl rfl rfl enabled rfl id id id id
  | lockContinue =>
      exact exclusive.workerLocks rfl rfl rfl enabled.1 rfl id id enabled.2 fun _ => alone
  | appendContinue =>
      change (appendContinuing state).Exclusive
      rw [appendContinuing]
      split
      · exact exclusive.workerStays rfl rfl rfl enabled rfl id id id id
      · exact exclusive.workerStays rfl rfl rfl enabled rfl id id id id
  | unlockContinue =>
      exact exclusive.workerStays rfl rfl rfl enabled rfl id id Bool.noConfusion Bool.noConfusion
  | leave => exact exclusive.workerStays rfl rfl rfl enabled rfl id Bool.noConfusion id id

theorem new_exclusive : (new context).Exclusive where
  queued := Bool.noConfusion
  unique := Bool.noConfusion
  single := Nat.zero_le _
  tasks pending := pending
  requestsLock := Bool.noConfusion
  outbufLock := Bool.noConfusion
  alone := Bool.noConfusion

theorem run_exclusive {actions : List Action} {state : State}
    (alone : Transition.Along (next context) FlushesAlone actions (new context))
    (ran : Transition.run (next context) actions (new context) = some state) : state.Exclusive :=
  Transition.run_invariant_along
    (fun _ _ _ kept alone taken => next_exclusive context kept alone taken)
    (new_exclusive context) alone ran

end State

end Waitress.Interleaving
