import Waitress.Channel.Flags
import Waitress.Channel.Sharing

/-!
# What a flush leaves

How much there is to send behind a flush, what a disconnection does, and which
of the two threads may work on the channel meanwhile.
-/

namespace Waitress

open Raising

namespace Output

/-- As long as the channel is connected, there is not more to send than before. -/
def Drains (before after : Output) : Prop :=
  after.connected = true →
    before.connected = true ∧ after.totalOutbufsLen ≤ before.totalOutbufsLen

instance : IsPreorder Output Drains where
  refl _ connected := ⟨connected, le_refl _⟩
  trans _ _ _ first second connected := by
    obtain ⟨middle, less⟩ := second connected
    obtain ⟨start, least⟩ := first middle
    exact ⟨start, less.trans least⟩

variable (context : ChannelContext)

theorem sendLoop_drains (doClose : Bool) (socket : List SendResult) (outbuflen : Int)
    (out : Output) : Drains out (sendLoop context doClose socket outbuflen out).2 := by
  fun_induction sendLoop context doClose socket outbuflen out with
  | case5 outbuflen out more outbuf rest outbufs answers =>
      cases doClose with
      | false => exact fun connected => ⟨connected, le_refl _⟩
      | true => exact Bool.noConfusion
  | case9 outbuflen out more outbuf rest outbufs n answers chunk numSent some skipped
      inductionHypothesis =>
      intro connected
      obtain ⟨start, less⟩ := inductionHypothesis connected
      refine ⟨start, less.trans ?_⟩
      change out.totalOutbufsLen - numSent ≤ out.totalOutbufsLen
      omega
  | _ => exact fun connected => ⟨connected, le_refl _⟩

theorem flushException_drains (doClose : Bool) :
    Within Drains (flushException context doClose) := by
  apply flushException_within
  · exact flushSome_within (fun _ out => sendLoop_drains context doClose out.socket _ out)
      fun _ connected => ⟨connected, le_refl _⟩
  · exact fun _ connected => ⟨connected, le_refl _⟩

theorem flushException_raised {doClose flushed : Bool} {out after : Output}
    (raised : exec (flushException context doClose) out = (.ok (flushed, true), after)) :
    after.willClose = true := by
  rw [flushException, exec_tryCatch, exec_bind] at raised
  generalize exec (flushSome context doClose) out = outcome at raised
  obtain ⟨exc | value, middle⟩ := outcome
  · cases raised
    rfl
  · cases raised

theorem exec_flushException_ok (doClose : Bool) (out : Output) :
    ∃ flushed raised, (exec (flushException context doClose) out).1 = .ok (flushed, raised) := by
  obtain ⟨⟨flushed, raised⟩, after, result⟩ := exec_flushException context doClose out
  exact ⟨flushed, raised, congrArg Prod.fst result⟩

/-! ### A client that is gone -/

/-- The answers that were used up; a disconnection among them has closed the channel. -/
def Answered (socket : List SendResult) (after : Output) : Prop :=
  ∃ used, socket = used ++ after.socket ∧
    (.disconnected ∈ used → after.connected = false ∧ after.totalOutbufsLen = 0)

theorem Answered.of_eq {socket : List SendResult} {after : Output} (same : after.socket = socket) :
    Answered socket after :=
  ⟨[], same.symm, fun mem => absurd mem List.not_mem_nil⟩

theorem sendLoop_answered (socket : List SendResult) (outbuflen : Int) (out : Output) :
    Answered socket (sendLoop context true socket outbuflen out).2 ∧
      ((sendLoop context true socket outbuflen out).1 = .emptied →
        ∃ used, socket = used ++ (sendLoop context true socket outbuflen out).2.socket ∧
          .disconnected ∉ used) := by
  fun_induction sendLoop context true socket outbuflen out with
  | case1 socket outbuflen out empty =>
      exact ⟨.of_eq rfl, fun _ => ⟨[], rfl, List.not_mem_nil⟩⟩
  | case2 socket outbuflen out more none => exact ⟨.of_eq rfl, Sending.noConfusion⟩
  | case3 outbuflen out more outbuf rest outbufs => exact ⟨.of_eq rfl, Sending.noConfusion⟩
  | case4 outbuflen out more outbuf rest outbufs answers =>
      exact ⟨⟨[.wouldBlock], rfl, by simp⟩, Sending.noConfusion⟩
  | case5 outbuflen out more outbuf rest outbufs answers =>
      exact ⟨⟨[.disconnected], rfl, fun _ => ⟨rfl, rfl⟩⟩, Sending.noConfusion⟩
  | case6 outbuflen out more outbuf rest outbufs exc answers =>
      exact ⟨⟨[.raises exc], rfl, by simp⟩, Sending.noConfusion⟩
  | case7 outbuflen out more outbuf rest outbufs n answers chunk numSent none =>
      exact ⟨⟨[.sent n], rfl, by simp⟩, Sending.noConfusion⟩
  | case8 outbuflen out more outbuf rest outbufs n answers chunk numSent some exc skipped =>
      exact ⟨⟨[.sent n], rfl, by simp⟩, Sending.noConfusion⟩
  | case9 outbuflen out more outbuf rest outbufs n answers chunk numSent some skipped
      inductionHypothesis =>
      obtain ⟨⟨used, suffix, closes⟩, empties⟩ := inductionHypothesis
      refine ⟨⟨.sent n :: used, congrArg _ suffix, ?_⟩, fun emptied => ?_⟩
      · exact fun mem => closes (List.mem_of_ne_of_mem SendResult.noConfusion mem)
      · obtain ⟨used, suffix, unmet⟩ := empties emptied
        refine ⟨.sent n :: used, congrArg _ suffix, ?_⟩
        exact fun mem => unmet (List.mem_of_ne_of_mem SendResult.noConfusion mem)

theorem flushLoop_answered (count : Nat) (out : Output) :
    Answered out.socket (exec (flushLoop context true count) out).2 := by
  induction count generalizing out with
  | zero => exact .of_eq rfl
  | succ count inductionHypothesis =>
      obtain ⟨answered, unmet⟩ := sendLoop_answered context out.socket
        ((out.outbufs.head?.map Outbuf.len).getD 0) out
      rw [exec_flushLoop_succ]
      generalize sendLoop context true out.socket
        ((out.outbufs.head?.map Outbuf.len).getD 0) out = outcome at answered unmet ⊢
      obtain ⟨sending, after⟩ := outcome
      dsimp only at answered unmet
      cases sending with
      | raised exc => exact answered
      | blocked => exact answered
      | emptied =>
          dsimp only
          split
          · exact answered
          · obtain ⟨first, suffix, unmet⟩ := unmet rfl
            obtain ⟨second, rest, closes⟩ :=
              inductionHypothesis { after with outbufs := after.outbufs.tail }
            refine ⟨first ++ second, ?_, fun mem => ?_⟩
            · rw [suffix, List.append_assoc, ← rest]
            · exact closes ((List.mem_append.mp mem).resolve_left unmet)

theorem flushSome_answered (out : Output) :
    Answered out.socket (exec (flushSome context true) out).2 := by
  have answered := flushLoop_answered context out.outbufs.length out
  rw [flushSome, exec_get_bind, exec_get_bind, exec_bind]
  generalize exec (flushLoop context true out.outbufs.length) out = outcome at answered ⊢
  obtain ⟨exc | ⟨⟩, after⟩ := outcome
  · exact answered
  · exact answered

theorem flushException_answered (out : Output) :
    Answered out.socket (exec (flushException context true) out).2 := by
  have answered := flushSome_answered context out
  rw [flushException, exec_tryCatch, exec_bind]
  generalize exec (flushSome context true) out = outcome at answered ⊢
  obtain ⟨exc | flushed, after⟩ := outcome
  · exact answered
  · exact answered

theorem sendContinueOutput_answered (out : Output) :
    Answered out.socket (exec (sendContinueOutput context) out).2 := by
  rw [sendContinueOutput, exec_get_bind, exec_bind, exec_ofExcept]
  cases appendLast continueLine out.outbufs with
  | error exc => exact .of_eq rfl
  | ok outbufs =>
      dsimp only
      rw [exec_modify_bind, exec_bind]
      have answered := flushSome_answered context
        { out with
          outbufs
          currentOutbufCount := out.currentOutbufCount + continueLine.length
          totalOutbufsLen := out.totalOutbufsLen + continueLine.length
          written := out.written ++ continueLine
          sentContinue := true }
      generalize exec (flushSome context true) _ = outcome at answered ⊢
      obtain ⟨exc | flushed, after⟩ := outcome
      · exact answered
      · exact answered

/-- The channel was closed where a send has met a disconnection. -/
theorem Answered.closed {out after : Output} (answered : Answered out.socket after)
    (met : Sharing.metDisconnection out after = true) :
    after.connected = false ∧ after.totalOutbufsLen = 0 := by
  obtain ⟨used, suffix, closes⟩ := answered
  rw [Sharing.metDisconnection, suffix, List.length_append, Nat.add_sub_cancel,
    List.take_left, List.contains_iff_mem] at met
  exact closes met

/-! ### The look at the outbufs -/

/-- What the worker knows behind its look at the outbufs. -/
def Looked (outcome : Except Exc Below × Output) : Prop :=
  match outcome with
  | (.ok .below, out) =>
      out.connected = true → out.totalOutbufsLen ≤ context.adj.outbufHighWatermark
  | (.ok (.waits _), out) =>
      out.willClose = true ∨ out.totalOutbufsLen > context.adj.outbufHighWatermark
  | (.error _, _) => False

theorem flushUnderLock_looked (out : Output) :
    Looked context (exec (flushUnderLock context) out) := by
  obtain ⟨flushed, raised, result⟩ := exec_flushException_ok context false out
  rw [flushUnderLock, exec_bind]
  generalize outcome : exec (flushException context false) out = after at result ⊢
  obtain ⟨value, after⟩ := after
  dsimp only at result
  subst result
  dsimp only
  rw [exec_get_bind]
  cases raised with
  | true => exact .inl (flushException_raised context outcome)
  | false =>
      rw [if_neg Bool.false_ne_true]
      split
      · next waits => exact .inr waits.2
      · next goesOn => exact fun connected => Int.not_lt.mp fun more => goesOn ⟨connected, more⟩

theorem flushBelow_looked (out : Output) : Looked context (exec (flushBelow context) out) := by
  rw [flushBelow, exec_get_bind]
  split
  · exact flushUnderLock_looked context out
  · next enough => exact fun _ => Int.not_lt.mp enough

/-- The two functions flush alike, and one tells more of what follows. -/
theorem exec_flushOutbufsBelowHighWatermark (out : Output) :
    exec (flushOutbufsBelowHighWatermark context) out =
      ((exec (flushBelow context) out).1.map fun result => decide (result ≠ .below),
        (exec (flushBelow context) out).2) := by
  rw [flushOutbufsBelowHighWatermark, flushBelow, exec_get_bind, exec_get_bind]
  split
  · rw [flushUnderLock, exec_bind, exec_bind]
    generalize exec (flushException context false) out = outcome
    obtain ⟨exc | ⟨flushed, raised⟩, after⟩ := outcome
    · rfl
    · dsimp only
      rw [exec_get_bind, exec_get_bind]
      cases raised with
      | true => rfl
      | false =>
          rw [if_neg Bool.false_ne_true]
          split
          · next waits => simp [waits, Except.map]
          · next goesOn => simpa [Except.map] using goesOn
  · rfl

end Output

/-! ### Who works on the channel -/

/-- What the two threads agree on about the worker. -/
inductive Stage where
  | outside
  /-- Its request is the first of `self.requests`. -/
  | busy
  /-- It holds `requests_lock`. -/
  | last
  deriving DecidableEq, Repr

def Worker.stage : Worker → Stage
  | .outside => .outside
  | .popped => .last
  | .continuing => .last
  | _ => .busy

@[simp]
theorem Worker.stage_notify (worker : Worker) : worker.notify.stage = worker.stage := by
  cases worker <;> rfl

theorem Worker.holdsRequests_iff {worker : Worker} :
    worker.holdsRequests = true ↔ worker.stage = .last := by
  cases worker <;> simp [holdsRequests, stage]

namespace Sharing

@[simp]
theorem answering_connected (state : Sharing) :
    state.answering.connected = state.output.connected := by
  rw [answering]
  split <;> rfl

@[simp]
theorem answering_totalOutbufsLen (state : Sharing) :
    state.answering.totalOutbufsLen = state.output.totalOutbufsLen := by
  rw [answering]
  split <;> rfl

/-- Who may work on the channel, and on what. -/
structure Orderly (state : Sharing) : Prop where
  queued : state.worker.stage = .busy → 0 < state.requests
  unique : state.worker.stage ≠ .outside → state.pendingTasks = 0
  single : state.pendingTasks ≤ 1
  tasks : 0 < state.pendingTasks → 0 < state.requests
  lock : state.main = .receiving → state.worker.stage ≠ .last
  alone : state.main = .flushing .flushSome → state.requests = 0

structure SameWork (before after : Sharing) : Prop where
  requests : after.requests = before.requests
  pendingTasks : after.pendingTasks = before.pendingTasks
  stage : after.worker.stage = before.worker.stage

theorem Orderly.of_sameWork {before after : Sharing} (orderly : before.Orderly)
    (same : SameWork before after) (receiving : after.main = .receiving → before.main = .receiving)
    (flushing : after.main = .flushing .flushSome → before.main = .flushing .flushSome) :
    after.Orderly := by
  obtain ⟨requests, pendingTasks, stage⟩ := same
  obtain ⟨queued, unique, single, tasks, lock, alone⟩ := orderly
  constructor
  · rwa [stage, requests]
  · rwa [stage, pendingTasks]
  · rwa [pendingTasks]
  · rwa [pendingTasks, requests]
  · rw [stage]
    exact lock ∘ receiving
  · rw [requests]
    exact alone ∘ flushing

theorem Orderly.moves {before after : Sharing} (orderly : before.Orderly)
    (same : SameWork before after) {main : MainThread} (moved : after.main = main)
    (receiving : main ≠ .receiving) (flushing : main ≠ .flushing .flushSome) : after.Orderly := by
  refine orderly.of_sameWork same ?_ ?_
  · exact fun there => absurd (moved.symm.trans there) receiving
  · exact fun there => absurd (moved.symm.trans there) flushing

theorem runClosing_sameWork {Value : Type} (action : OutputM Value) (state : Sharing) :
    SameWork state (runClosing action state) := by
  rw [runClosing]
  split
  · exact ⟨rfl, rfl, Worker.stage_notify _⟩
  · exact ⟨rfl, rfl, rfl⟩

theorem runClosing_main {Value : Type} (action : OutputM Value) (state : Sharing) :
    (runClosing action state).main = state.main := by
  rw [runClosing]
  split <;> rfl

variable (context : ChannelContext)

theorem flushSome_sameWork (state : Sharing) : SameWork state (flushSome context state) := by
  rw [flushSome]
  split
  · exact ⟨rfl, rfl, Worker.stage_notify _⟩
  · exact ⟨rfl, rfl, rfl⟩

theorem flushSomeIfLockable_sameWork (acquired : Bool) (state : Sharing) :
    SameWork state (flushSomeIfLockable context acquired state) := by
  obtain ⟨requests, pendingTasks, stage⟩ :=
    runClosing_sameWork (flushException context true) state
  rw [flushSomeIfLockable]
  dsimp only
  split
  · exact ⟨rfl, rfl, rfl⟩
  split
  · rw [notifyIfBelow]
    split
    · exact ⟨requests, pendingTasks, (Worker.stage_notify _).trans stage⟩
    · exact ⟨requests, pendingTasks, stage⟩
  · exact ⟨requests, pendingTasks, stage⟩

theorem flushSomeIfLockable_main (acquired : Bool) (state : Sharing) :
    (flushSomeIfLockable context acquired state).main = .flushed := by
  rw [flushSomeIfLockable]
  split
  · rfl
  split
  · rw [notifyIfBelow]
    split <;> rfl
  · rfl

structure StaysBusy (before after : Sharing) : Prop where
  requests : after.requests = before.requests
  pendingTasks : after.pendingTasks = before.pendingTasks
  main : after.main = before.main
  stage : after.worker.stage = .busy

theorem Orderly.of_staysBusy {before after : Sharing} (orderly : before.Orderly)
    (busy : before.worker.stage = .busy) (stays : StaysBusy before after) : after.Orderly := by
  refine orderly.of_sameWork ⟨stays.requests, stays.pendingTasks, stays.stage.trans busy.symm⟩ ?_ ?_
  · exact fun there => stays.main.symm.trans there
  · exact fun there => stays.main.symm.trans there

theorem goOn_staysBusy (waiter : Waiter) (state : Sharing) :
    StaysBusy state (goOn context waiter state) := by
  cases waiter with
  | writeSoon data => exact ⟨rfl, rfl, rfl, rfl⟩
  | service => exact ⟨rfl, rfl, rfl, rfl⟩

theorem waitOrGoOn_staysBusy (waiter : Waiter) (outcome : Except Exc Below × Output)
    (state : Sharing) : StaysBusy state (waitOrGoOn context waiter outcome state) := by
  obtain ⟨exc | raised | raised, output⟩ := outcome
  · exact { goOn_staysBusy context waiter { state with output } with }
  · exact { goOn_staysBusy context waiter { state with output } with }
  · exact ⟨rfl, rfl, rfl, rfl⟩

theorem wake_staysBusy (waiter : Waiter) (raised : Bool) (state : Sharing) :
    StaysBusy state (wake context waiter raised state) := by
  rw [wake]
  split
  · exact ⟨rfl, rfl, rfl, rfl⟩
  · exact goOn_staysBusy context waiter state

theorem checkBacklog_staysBusy (state : Sharing) :
    StaysBusy state (checkBacklog context state) := by
  refine ⟨rfl, rfl, rfl, ?_⟩
  change Worker.stage (if _ then _ else _) = .busy
  split <;> rfl

theorem sendContinue_cases (returned raised : Sharing → Sharing) (state : Sharing) :
    ∃ after, after = runClosing (sendContinueOutput context) { state with expects := false } ∧
      (sendContinue context returned raised state = returned after ∨
        sendContinue context returned raised state = raised after) := by
  refine ⟨_, rfl, ?_⟩
  rw [sendContinue]
  split
  · exact .inl rfl
  · exact .inr rfl

theorem Orderly.complete {state : Sharing} (orderly : state.Orderly)
    (receiving : state.main = .receiving) : state.complete.Orderly := by
  obtain ⟨queued, unique, single, tasks, lock, alone⟩ := orderly
  have more : ∀ {requests : Nat}, 0 < requests → requests ≠ 0 := Nat.ne_of_gt
  have last := lock receiving
  have added : (if state.requests = 0 then state.pendingTasks + 1 else state.pendingTasks) ≤ 1 := by
    split
    · next none => omega
    · exact single
  refine ⟨fun _ => Nat.succ_pos _, fun working => ?_, added, fun _ => Nat.succ_pos _,
    fun _ => last, fun flushing => ?_⟩
  · change (if state.requests = 0 then _ else _) = 0
    rw [if_neg, unique working]
    cases stage : state.worker.stage with
    | outside => exact absurd stage working
    | busy => exact more (queued stage)
    | last => exact absurd stage last
  · exact absurd (receiving.symm.trans flushing) (by simp)

theorem Orderly.pop {state : Sharing} (orderly : state.Orderly)
    (worker : state.worker = .drained) (unlocked : state.main ≠ .receiving) :
    (pop context state).Orderly := by
  obtain ⟨queued, unique, single, tasks, lock, alone⟩ := orderly
  have none : state.pendingTasks = 0 := unique (by rw [worker]; simp [Worker.stage])
  rw [Sharing.pop]
  split
  · next empty =>
      exact absurd empty (Nat.ne_of_gt (queued (by rw [worker]; rfl)))
  split
  · next more =>
      refine ⟨Stage.noConfusion, fun working => absurd rfl working, ?_, fun _ => ?_,
        fun _ => Stage.noConfusion, fun flushing => ?_⟩
      · change state.pendingTasks + 1 ≤ 1
        omega
      · change 0 < state.requests - 1
        omega
      · change state.requests - 1 = 0
        rw [alone flushing]
  · refine ⟨Stage.noConfusion, fun _ => none, single, fun pending => ?_,
      fun receiving => absurd receiving unlocked, fun flushing => ?_⟩
    · exact absurd none (Nat.ne_of_gt pending)
    · change state.requests - 1 = 0
      rw [alone flushing]

theorem Orderly.leaves {before after : Sharing} (orderly : before.Orderly)
    (requests : after.requests = before.requests)
    (pendingTasks : after.pendingTasks = before.pendingTasks) (main : after.main = before.main)
    (outside : after.worker = .outside) : after.Orderly := by
  obtain ⟨queued, unique, single, tasks, lock, alone⟩ := orderly
  constructor
  · rw [outside]
    exact Stage.noConfusion
  · rw [outside]
    exact fun working => absurd rfl working
  · rwa [pendingTasks]
  · rwa [pendingTasks, requests]
  · rw [outside]
    exact fun _ => Stage.noConfusion
  · rwa [requests, main]

theorem Orderly.handleClose {state : Sharing} (orderly : state.Orderly) :
    state.handleClose.Orderly :=
  orderly.moves ⟨rfl, rfl, Worker.stage_notify _⟩ rfl MainThread.noConfusion
    MainThread.noConfusion

/-- There was a task, so that no worker is with the channel. -/
theorem Orderly.cancel {state : Sharing} (orderly : state.Orderly)
    (pending : 0 < state.pendingTasks) : state.cancel.Orderly := by
  obtain ⟨queued, unique, single, tasks, lock, alone⟩ := orderly
  have outside : state.worker.stage = .outside := by
    by_contra working
    exact Nat.ne_of_gt pending (unique working)
  have none : state.pendingTasks - 1 = 0 := by omega
  refine ⟨fun busy => ?_, fun _ => none, ?_, fun more => ?_, lock, fun _ => rfl⟩
  · exact absurd (outside.symm.trans busy) (by simp)
  · exact none.trans_le (Nat.zero_le 1)
  · exact absurd none (Nat.ne_of_gt more)

theorem Orderly.serve {state : Sharing} (orderly : state.Orderly)
    (pending : 0 < state.pendingTasks) :
    { state with pendingTasks := state.pendingTasks - 1, worker := .serving }.Orderly := by
  obtain ⟨queued, unique, single, tasks, lock, alone⟩ := orderly
  have none : state.pendingTasks - 1 = 0 := by omega
  refine ⟨fun _ => tasks pending, fun _ => none, ?_, fun _ => tasks pending,
    fun _ => Stage.noConfusion, alone⟩
  exact none.trans_le (Nat.zero_le 1)

theorem Orderly.settle {state : Sharing} (orderly : state.Orderly)
    (working : state.worker.stage ≠ .outside) : state.settle.Orderly := by
  obtain ⟨queued, unique, single, tasks, lock, alone⟩ := orderly
  refine ⟨Stage.noConfusion, fun still => absurd rfl still, single, fun pending => ?_,
    fun _ => Stage.noConfusion, fun _ => rfl⟩
  exact absurd (unique working) (Nat.ne_of_gt pending)

theorem next_orderly {action : Action} {state after : Sharing} (orderly : state.Orderly)
    (taken : next context action state = some after) : after.Orderly := by
  obtain ⟨enabled, rfl⟩ := (next_eq_some context).mp taken
  cases action with
  | startReceiving =>
      obtain ⟨-, -, free, -⟩ := enabled
      refine { orderly with lock := fun _ last => ?_, alone := MainThread.noConfusion }
      exact Bool.false_ne_true (free.symm.trans (Worker.holdsRequests_iff.mpr last))
  | parse expects => exact { orderly with }
  | announce =>
      obtain ⟨after, rfl, outcome⟩ :=
        sendContinue_cases context id (fun state => { state with main := .failing }) state
      have same := runClosing_sameWork (sendContinueOutput context) { state with expects := false }
      have main := runClosing_main (sendContinueOutput context) { state with expects := false }
      rcases outcome with returned | raised
      · rw [show perform context .announce state = _ from returned]
        exact orderly.of_sameWork { same with } main.symm.trans main.symm.trans
      · rw [show perform context .announce state = _ from raised]
        exact orderly.moves { same with } rfl MainThread.noConfusion MainThread.noConfusion
  | complete => exact orderly.complete enabled
  | blank => exact { orderly with }
  | endReceiving | parseFails | handOver =>
      exact orderly.moves ⟨rfl, rfl, rfl⟩ rfl MainThread.noConfusion MainThread.noConfusion
  | maintain => exact { orderly with }
  | testRequests =>
      change (testRequests state).Orderly
      rw [testRequests]
      split
      · next none =>
          exact { orderly with lock := MainThread.noConfusion, alone := fun _ => none }
      · exact orderly.moves ⟨rfl, rfl, rfl⟩ rfl MainThread.noConfusion MainThread.noConfusion
  | testTotal =>
      have moved : testTotal context state = { state with main := .flushing .flushSomeIfLockable } ∨
          testTotal context state = { state with main := .flushed } := by
        rw [testTotal]
        split
        · exact .inl rfl
        · exact .inr rfl
      rcases moved with flushes | skips
      · rw [show perform context .testTotal state = _ from flushes]
        exact orderly.moves ⟨rfl, rfl, rfl⟩ rfl MainThread.noConfusion (by simp)
      · rw [show perform context .testTotal state = _ from skips]
        exact orderly.moves ⟨rfl, rfl, rfl⟩ rfl MainThread.noConfusion MainThread.noConfusion
  | flushSome =>
      have main : (flushSome context state).main = .closing true ∨
          (flushSome context state).main = .flushed := by
        rw [flushSome]
        split
        · exact .inl rfl
        · exact .inr rfl
      have same := flushSome_sameWork context state
      rcases main with closes | flushed
      · exact orderly.moves same closes MainThread.noConfusion MainThread.noConfusion
      · exact orderly.moves same flushed MainThread.noConfusion MainThread.noConfusion
  | flushSomeIfLockable acquired =>
      exact orderly.moves (flushSomeIfLockable_sameWork context acquired state)
        (flushSomeIfLockable_main context acquired state) MainThread.noConfusion
        MainThread.noConfusion
  | testFlushed =>
      change (testFlushed state).Orderly
      rw [testFlushed]
      split
      · exact orderly.moves ⟨rfl, rfl, rfl⟩ rfl MainThread.noConfusion MainThread.noConfusion
      · exact orderly.moves ⟨rfl, rfl, rfl⟩ rfl MainThread.noConfusion MainThread.noConfusion
  | closeIfWillClose =>
      change (closeIfWillClose state).Orderly
      rw [closeIfWillClose]
      split
      · exact orderly.handleClose
      · exact orderly.moves ⟨rfl, rfl, rfl⟩ rfl MainThread.noConfusion MainThread.noConfusion
  | handleClose => exact orderly.handleClose
  | closeSocket writes =>
      cases writes with
      | false => exact orderly.moves ⟨rfl, rfl, rfl⟩ rfl MainThread.noConfusion MainThread.noConfusion
      | true => exact orderly.moves ⟨rfl, rfl, rfl⟩ rfl MainThread.noConfusion MainThread.noConfusion
  | cancel => exact orderly.cancel enabled
  | serve => exact orderly.serve enabled.1
  | write data => exact orderly.of_staysBusy (by rw [enabled.1]; rfl) ⟨rfl, rfl, rfl, rfl⟩
  | enter data =>
      apply orderly.of_staysBusy
      · rw [show state.worker = .writing data from enabled]
        rfl
      · exact waitOrGoOn_staysBusy context _ _ state
  | wake waiter raised =>
      apply orderly.of_staysBusy
      · rw [show state.worker = .waiting waiter raised true from enabled]
        rfl
      · exact wake_staysBusy context waiter raised state
  | endTask closeOnFinish =>
      have busy : state.worker.stage = .busy := by
        rw [show state.worker = .serving from enabled]
        rfl
      cases closeOnFinish with
      | false => exact orderly.of_staysBusy busy ⟨rfl, rfl, rfl, rfl⟩
      | true => exact orderly.of_staysBusy busy ⟨rfl, rfl, rfl, rfl⟩
  | settle =>
      exact orderly.settle (by rw [enabled.1]; simp [Worker.stage])
  | checkBacklog =>
      apply orderly.of_staysBusy
      · rw [show state.worker = .keeping from enabled]
        rfl
      · exact checkBacklog_staysBusy context state
  | drain =>
      apply orderly.of_staysBusy
      · rw [show state.worker = .draining from enabled]
        rfl
      · exact waitOrGoOn_staysBusy context _ _ state
  | pop => exact orderly.pop context enabled.1 enabled.2
  | testContinue =>
      have last : state.worker.stage = .last := by
        rw [show state.worker = .popped from enabled]
        rfl
      change (testContinue state).Orderly
      rw [testContinue]
      split
      · exact orderly.of_sameWork ⟨rfl, rfl, last.symm⟩ id id
      · exact orderly.leaves rfl rfl rfl rfl
  | sendContinue =>
      obtain ⟨after, rfl, outcome⟩ :=
        sendContinue_cases context (fun state => { state with worker := .outside })
          (fun state => { state with worker := .outside }) state
      have same := runClosing_sameWork (sendContinueOutput context) { state with expects := false }
      have main := runClosing_main (sendContinueOutput context) { state with expects := false }
      rw [show perform context .sendContinue state = _ from (or_self_iff.mp outcome)]
      exact orderly.leaves same.requests same.pendingTasks main rfl

theorem new_orderly (socket : List SendResult) : (new context socket).Orderly where
  queued := Stage.noConfusion
  unique _ := rfl
  single := Nat.zero_le _
  tasks pending := pending
  lock := MainThread.noConfusion
  alone _ := rfl

end Sharing

end Waitress
