import Waitress.Channel.Draining

/-!
# The backpressure of the output

A worker that finds too much output waits for the main thread.  It appends only
when enough was sent, and it is not left alone with its wait.
-/

namespace Waitress

open Raising

namespace Sharing

variable (context : ChannelContext)

/-! ### What a step does to a worker that waits -/

inductive Effect (state : Sharing) : Sharing → Prop where
  | quiet {after : Sharing} (worker : after.worker = state.worker)
      (levels : after.levels = state.levels)
      (total : after.output.totalOutbufsLen = state.output.totalOutbufsLen)
      (connected : after.output.connected = state.output.connected)
      (willClose : state.output.willClose = true → after.output.willClose = true) :
      Effect state after
  | closes {after : Sharing} (levels : after.levels = state.levels)
      (gone : after.output.connected = false) : Effect state after
  | moves {after : Sharing} (levels : after.levels = state.levels)
      (awake : ∀ waiter raised notified, after.worker ≠ .waiting waiter raised notified) :
      Effect state after
  | flushes (acquired : Bool) : Effect state (flushSomeIfLockable context acquired state)
  | looks (waiter : Waiter) {outcome : Except Exc Below × Output}
      (looked : Output.Looked context outcome) :
      Effect state (waitOrGoOn context waiter outcome state)
  | wakes {waiter : Waiter} {raised : Bool}
      (notified : state.worker = .waiting waiter raised true) :
      Effect state (wake context waiter raised state)

theorem Orderly.awake {state : Sharing} (orderly : state.Orderly) (none : state.requests = 0)
    (waiter : Waiter) (raised notified : Bool) :
    state.worker ≠ .waiting waiter raised notified := by
  intro waits
  have queued := orderly.queued
  rw [waits, none] at queued
  exact absurd (queued rfl) (Nat.lt_irrefl 0)

theorem notify_awake {worker : Worker}
    (awake : ∀ waiter raised notified, worker ≠ .waiting waiter raised notified) (waiter : Waiter)
    (raised notified : Bool) : worker.notify ≠ .waiting waiter raised notified := by
  cases worker with
  | waiting waiter raised notified => exact absurd rfl (awake waiter raised notified)
  | _ => exact Worker.noConfusion

theorem runClosing_levels {Value : Type} (action : OutputM Value) (state : Sharing) :
    (runClosing action state).levels = state.levels := by
  rw [runClosing]
  split <;> rfl

theorem announce_effect {state : Sharing} (orderly : state.Orderly) (none : state.requests = 0) :
    Effect context state (perform context .announce state) := by
  have levels := runClosing_levels (sendContinueOutput context) { state with expects := false }
  have awake : ∀ waiter raised notified,
      (runClosing (sendContinueOutput context) { state with expects := false }).worker ≠
        .waiting waiter raised notified := by
    rw [runClosing]
    split
    · exact notify_awake (orderly.awake none)
    · exact orderly.awake none
  obtain ⟨after, rfl, returned | raised⟩ :=
    sendContinue_cases context id (fun state => { state with main := .failing }) state
  · rw [show perform context .announce state = _ from returned]
    exact .moves levels awake
  · rw [show perform context .announce state = _ from raised]
    exact .moves levels awake

theorem sendContinue_effect (state : Sharing) :
    Effect context state (perform context .sendContinue state) := by
  obtain ⟨after, rfl, outcome⟩ :=
    sendContinue_cases context (fun state => { state with worker := .outside })
      (fun state => { state with worker := .outside }) state
  rw [show perform context .sendContinue state = _ from or_self_iff.mp outcome]
  apply Effect.moves
  · exact runClosing_levels (sendContinueOutput context) { state with expects := false }
  · exact fun _ _ _ => Worker.noConfusion

theorem flushSome_effect {state : Sharing} (orderly : state.Orderly) (none : state.requests = 0) :
    Effect context state (flushSome context state) := by
  rw [flushSome]
  split
  · exact .moves rfl (notify_awake (orderly.awake none))
  · exact .moves rfl (orderly.awake none)

theorem pop_effect (state : Sharing) : Effect context state (pop context state) := by
  rw [pop]
  split
  · exact .moves rfl fun _ _ _ => Worker.noConfusion
  split
  · exact .moves rfl fun _ _ _ => Worker.noConfusion
  · exact .moves rfl fun _ _ _ => Worker.noConfusion

theorem testContinue_effect (state : Sharing) : Effect context state state.testContinue := by
  rw [testContinue]
  split
  · exact .moves rfl fun _ _ _ => Worker.noConfusion
  · exact .moves rfl fun _ _ _ => Worker.noConfusion

theorem checkBacklog_effect (state : Sharing) :
    Effect context state (checkBacklog context state) := by
  refine .moves rfl fun _ _ _ => ?_
  change (if _ then _ else _) ≠ _
  split
  · exact Worker.noConfusion
  · exact Worker.noConfusion

theorem testFlushed_effect (state : Sharing) : Effect context state state.testFlushed := by
  rw [testFlushed]
  split
  · exact .quiet rfl rfl rfl rfl id
  · exact .quiet rfl rfl rfl rfl id

theorem closeIfWillClose_effect (state : Sharing) :
    Effect context state state.closeIfWillClose := by
  rw [closeIfWillClose]
  split
  · exact .closes rfl rfl
  · exact .quiet rfl rfl rfl rfl id

theorem perform_effect {action : Action} {state : Sharing} (orderly : state.Orderly)
    (enabled : Enabled action state) : Effect context state (perform context action state) := by
  cases action with
  | announce => exact announce_effect context orderly enabled.2.1
  | flushSome => exact flushSome_effect context orderly (orderly.alone enabled)
  | flushSomeIfLockable acquired => exact .flushes acquired
  | testFlushed => exact testFlushed_effect context state
  | closeIfWillClose => exact closeIfWillClose_effect context state
  | handleClose => exact .closes rfl rfl
  | cancel => exact .closes rfl rfl
  | enter data => exact .looks (.writeSoon data) (Output.flushBelow_looked context _)
  | drain => exact .looks .service (Output.flushUnderLock_looked context _)
  | wake waiter raised => exact .wakes enabled
  | serve | write | settle => exact .moves rfl fun _ _ _ => Worker.noConfusion
  | endTask closeOnFinish =>
      cases closeOnFinish with
      | false => exact .moves rfl fun _ _ _ => Worker.noConfusion
      | true => exact .moves rfl fun _ _ _ => Worker.noConfusion
  | checkBacklog => exact checkBacklog_effect context state
  | pop => exact pop_effect context state
  | testContinue => exact testContinue_effect context state
  | sendContinue => exact sendContinue_effect context state
  | maintain | handOver => exact .quiet rfl rfl rfl rfl fun _ => rfl
  | _ => exact .quiet rfl rfl rfl rfl id

/-! ### What the worker waits for -/

/-- The worker appends below the watermark, and a notification promises that it may. -/
structure Bounded (state : Sharing) : Prop where
  levels : ∀ level ∈ state.levels, level ≤ context.adj.outbufHighWatermark
  notified : ∀ waiter, state.worker = .waiting waiter true true → state.output.connected = true →
    state.output.totalOutbufsLen ≤ context.adj.outbufHighWatermark

variable {context}

theorem Bounded.of_closed {before after : Sharing} (bounded : before.Bounded context)
    (levels : after.levels = before.levels) (gone : after.output.connected = false) :
    after.Bounded context where
  levels := by
    rw [levels]
    exact bounded.levels
  notified _ _ connected := absurd (gone.symm.trans connected) Bool.false_ne_true

theorem Bounded.runClosing {Value : Type} {state : Sharing} (bounded : state.Bounded context)
    {action : OutputM Value}
    (answered : Output.Answered state.answering.socket (exec action state.answering).2)
    (drains : Output.Drains state.answering (exec action state.answering).2) :
    (runClosing action state).Bounded context := by
  rw [Sharing.runClosing]
  split
  · next met => exact bounded.of_closed rfl (answered.closed met).1
  · refine { bounded with notified := fun waiter waits connected => ?_ }
    obtain ⟨start, less⟩ := drains connected
    rw [answering_connected] at start
    rw [answering_totalOutbufsLen] at less
    exact less.trans (bounded.notified waiter waits start)

theorem Bounded.flushSomeIfLockable {state : Sharing} (bounded : state.Bounded context)
    (acquired : Bool) : (flushSomeIfLockable context acquired state).Bounded context := by
  have flushed : (Sharing.runClosing (flushException context true) state).Bounded context :=
    bounded.runClosing (Output.flushException_answered context state.answering)
      (Output.flushException_drains context true state.answering)
  rw [Sharing.flushSomeIfLockable]
  split
  · exact { bounded with }
  split
  · rw [notifyIfBelow]
    split
    · next below =>
        exact { flushed with notified := fun _ _ _ => Int.le_of_lt below }
    · exact { flushed with }
  · exact { flushed with }

theorem Bounded.goOn {state : Sharing}
    (levels : ∀ level ∈ state.levels, level ≤ context.adj.outbufHighWatermark)
    (below : state.output.connected = true →
      state.output.totalOutbufsLen ≤ context.adj.outbufHighWatermark) (waiter : Waiter) :
    (goOn context waiter state).Bounded context := by
  cases waiter with
  | service => exact ⟨levels, fun _ waits => Worker.noConfusion waits⟩
  | writeSoon data =>
      refine ⟨fun level mem => ?_, fun _ waits => Worker.noConfusion waits⟩
      change level ∈ (if state.output.connected = true then _ else _) at mem
      split at mem
      · next connected =>
          rcases List.mem_append.mp mem with old | new
          · exact levels level old
          · rw [List.mem_singleton.mp new]
            exact below connected
      · exact levels level mem

theorem Bounded.waitOrGoOn {state : Sharing} (bounded : state.Bounded context)
    {outcome : Except Exc Below × Output} (looked : Output.Looked context outcome)
    (waiter : Waiter) : (waitOrGoOn context waiter outcome state).Bounded context := by
  obtain ⟨exc | raised | raised, output⟩ := outcome
  · exact looked.elim
  · refine Bounded.goOn ?_ ?_ waiter
    · exact bounded.levels
    · exact looked
  · exact { bounded with notified := fun _ waits => by simp [Sharing.waitOrGoOn] at waits }

theorem Bounded.wake {state : Sharing} (bounded : state.Bounded context) {waiter : Waiter}
    {raised : Bool} (notified : state.worker = .waiting waiter raised true) :
    (wake context waiter raised state).Bounded context := by
  rw [Sharing.wake]
  split
  · exact { bounded with notified := fun _ waits => by simp at waits }
  · next goesOn =>
      apply Bounded.goOn bounded.levels
      intro connected
      cases raised with
      | true => exact bounded.notified waiter notified connected
      | false => exact Int.not_lt.mp fun more => goesOn ⟨rfl, connected, more⟩

variable (context)

theorem Effect.bounded {state after : Sharing} (effect : Effect context state after)
    (bounded : state.Bounded context) : after.Bounded context := by
  cases effect with
  | quiet worker levels total connected willClose =>
      refine ⟨by rw [levels]; exact bounded.levels, fun waiter waits open_ => ?_⟩
      rw [total]
      exact bounded.notified waiter (worker.symm.trans waits) (connected.symm.trans open_)
  | closes levels gone => exact bounded.of_closed levels gone
  | moves levels awake =>
      refine ⟨by rw [levels]; exact bounded.levels, fun waiter waits => ?_⟩
      exact absurd waits (awake waiter true true)
  | flushes acquired => exact bounded.flushSomeIfLockable acquired
  | looks waiter looked => exact bounded.waitOrGoOn looked waiter
  | wakes notified => exact bounded.wake notified

theorem next_bounded {action : Action} {state after : Sharing} (orderly : state.Orderly)
    (bounded : state.Bounded context) (taken : next context action state = some after) :
    after.Bounded context := by
  obtain ⟨enabled, rfl⟩ := (next_eq_some context).mp taken
  exact (perform_effect context orderly enabled).bounded context bounded

theorem new_bounded (socket : List SendResult) : (new context socket).Bounded context where
  levels _ mem := absurd mem List.not_mem_nil
  notified _ waits := Worker.noConfusion waits

/-- At no time does `write_soon` append to outbufs above the watermark. -/
theorem run_bounded (socket : List SendResult) (actions : List Action) {state : Sharing}
    (ran : Transition.run (next context) actions (new context socket) = some state) :
    ∀ level ∈ state.levels, level ≤ context.adj.outbufHighWatermark := by
  have start := And.intro (new_orderly context socket) (new_bounded context socket)
  have kept := Transition.run_invariant
    (fun _ _ _ kept taken =>
      And.intro (next_orderly context kept.1 taken) (next_bounded context kept.1 kept.2 taken))
    start ran
  exact kept.2.levels

/-- A configuration in which one byte has to be sent before the next one is appended. -/
def lowWatermark : ChannelContext := { adj := { outbufHighWatermark := 0, sendBytes := 1 } }

/-- A task writes two bytes, and the second one waits for the first. -/
def waitingRun : List Action :=
  [.startReceiving, .complete, .endReceiving, .serve,
    .write (.bytes [0]), .enter (.bytes [0]), .write (.bytes [1]), .enter (.bytes [1])]

theorem run_bounded_sample :
    ∃ state, Transition.run (next lowWatermark) waitingRun
        (new lowWatermark [.wouldBlock, .wouldBlock]) = some state ∧
      ∀ level ∈ state.levels, level ≤ 0 :=
  ⟨_, rfl, run_bounded lowWatermark [.wouldBlock, .wouldBlock] waitingRun rfl⟩

/-! ### Who looks after a worker that waits -/

def SkipsFlush (state : Sharing) : Prop :=
  state.testRequests.main = .choosing ∧ (testTotal context state.testRequests).main = .flushed

/-- The worker waits, nobody has notified it, and the main thread has nothing to do for it. -/
def Stranded (state : Sharing) : Prop :=
  (∃ waiter raised, state.worker = .waiting waiter raised false) ∧
    state.output.connected = true ∧
    (state.writable = false ∨ state.SkipsFlush context ∧ state.output.willClose = false)

/-- While the worker waits, there is much to send, or the channel is going to be closed. -/
def Watched (state : Sharing) : Prop :=
  ∀ waiter raised, state.worker = .waiting waiter raised false → state.output.connected = true →
    state.output.willClose = true ∨
      context.adj.outbufHighWatermark ≤ state.output.totalOutbufsLen

theorem SkipsFlush.total {state : Sharing} (skips : state.SkipsFlush context) :
    state.output.totalOutbufsLen < context.adj.sendBytes := by
  obtain ⟨-, skipped⟩ := skips
  by_contra enough
  rw [testTotal] at skipped
  rw [show state.testRequests.output = state.output from rfl, if_pos (not_lt.mp enough)] at skipped
  exact MainThread.noConfusion skipped

theorem Watched.not_stranded {state : Sharing} (watched : state.Watched context)
    (positive : 1 ≤ context.adj.sendBytes)
    (order : context.adj.sendBytes ≤ context.adj.outbufHighWatermark) :
    ¬ state.Stranded context := by
  rintro ⟨⟨waiter, raised, waits⟩, connected, idle⟩
  rcases watched waiter raised waits connected with closes | full
  · rcases idle with unwritable | ⟨-, open_⟩
    · rw [writable, closes] at unwritable
      simp at unwritable
    · exact Bool.noConfusion (closes.symm.trans open_)
  · have some : state.output.totalOutbufsLen > 0 := by omega
    rcases idle with unwritable | ⟨skips, -⟩
    · rw [writable, decide_eq_true some] at unwritable
      simp at unwritable
    · have less := skips.total
      omega

variable {context}

theorem Watched.of_awake {state : Sharing}
    (awake : ∀ waiter raised, state.worker ≠ .waiting waiter raised false) :
    state.Watched context :=
  fun waiter raised waits => absurd waits (awake waiter raised)

theorem notify_notified (worker : Worker) (waiter : Waiter) (raised : Bool) :
    worker.notify ≠ .waiting waiter raised false := by
  cases worker with
  | waiting waiter raised notified => simp [Worker.notify]
  | _ => exact Worker.noConfusion

variable (context)

/-- The flush notifies the worker, leaves enough to send, or decides to close. -/
theorem flushSomeIfLockable_watched {state : Sharing} (watched : state.Watched context)
    (acquired : Bool) : (flushSomeIfLockable context acquired state).Watched context := by
  obtain ⟨flushed, raised, result⟩ :=
    Output.exec_flushException_ok context true state.answering
  have output : (Sharing.runClosing (flushException context true) state).output =
      (exec (flushException context true) state.answering).2 := by
    rw [Sharing.runClosing]
    split <;> rfl
  rw [Sharing.flushSomeIfLockable]
  split
  · exact watched
  rw [result]
  cases raised with
  | true =>
      refine fun waiter raised waits connected => .inl ?_
      dsimp only
      rw [output]
      exact Output.flushException_raised context (Prod.ext result rfl)
  | false =>
      dsimp only
      rw [notifyIfBelow]
      split
      · exact Watched.of_awake fun waiter raised => notify_notified _ waiter raised
      · next enough => exact fun _ _ _ _ => .inr (not_lt.mp enough)

theorem goOn_watched (waiter : Waiter) (state : Sharing) :
    (goOn context waiter state).Watched context := by
  cases waiter with
  | writeSoon data => exact Watched.of_awake fun _ _ => Worker.noConfusion
  | service => exact Watched.of_awake fun _ _ => Worker.noConfusion

theorem waitOrGoOn_watched {outcome : Except Exc Below × Output}
    (looked : Output.Looked context outcome) (waiter : Waiter) (state : Sharing) :
    (waitOrGoOn context waiter outcome state).Watched context := by
  obtain ⟨exc | raised | raised, output⟩ := outcome
  · exact looked.elim
  · exact goOn_watched context waiter { state with output }
  · exact fun _ _ _ _ => looked.imp_right Int.le_of_lt

theorem wake_watched (waiter : Waiter) (raised : Bool) (state : Sharing) :
    (wake context waiter raised state).Watched context := by
  rw [Sharing.wake]
  split
  · next more => exact fun _ _ _ _ => .inr (Int.le_of_lt more.2.2)
  · exact goOn_watched context waiter state

theorem Effect.watched {state after : Sharing} (effect : Effect context state after)
    (watched : state.Watched context) : after.Watched context := by
  cases effect with
  | quiet worker levels total connected willClose =>
      intro waiter raised waits open_
      rw [total]
      have before := watched waiter raised (worker.symm.trans waits) (connected.symm.trans open_)
      exact before.imp_left willClose
  | closes levels gone =>
      exact fun _ _ _ connected => absurd (gone.symm.trans connected) Bool.false_ne_true
  | moves levels awake => exact Watched.of_awake fun waiter raised => awake waiter raised false
  | flushes acquired => exact flushSomeIfLockable_watched context watched acquired
  | looks waiter looked => exact waitOrGoOn_watched context looked waiter state
  | wakes notified => exact wake_watched context _ _ state

theorem next_watched {action : Action} {state after : Sharing} (orderly : state.Orderly)
    (watched : state.Watched context) (taken : next context action state = some after) :
    after.Watched context := by
  obtain ⟨enabled, rfl⟩ := (next_eq_some context).mp taken
  exact (perform_effect context orderly enabled).watched context watched

theorem new_watched (socket : List SendResult) : (new context socket).Watched context :=
  Watched.of_awake fun _ _ => Worker.noConfusion

/-- If the main thread flushes at the watermark, no worker waits in vain. -/
theorem run_not_stranded (socket : List SendResult) (actions : List Action) {state : Sharing}
    (positive : 1 ≤ context.adj.sendBytes)
    (order : context.adj.sendBytes ≤ context.adj.outbufHighWatermark)
    (ran : Transition.run (next context) actions (new context socket) = some state) :
    ¬ state.Stranded context := by
  have start := And.intro (new_orderly context socket) (new_watched context socket)
  have kept := Transition.run_invariant
    (fun _ _ _ kept taken =>
      And.intro (next_orderly context kept.1 taken) (next_watched context kept.1 kept.2 taken))
    start ran
  exact kept.2.not_stranded context positive order

def narrowWatermark : ChannelContext := { adj := { sendBytes := 1, outbufHighWatermark := 1 } }

/-- Two bytes are above the watermark, so that the worker waits with the third one. -/
def waitingAbove : List Action :=
  [.startReceiving, .complete, .endReceiving, .serve,
    .write (.bytes [0, 1]), .enter (.bytes [0, 1]), .write (.bytes [2]), .enter (.bytes [2])]

theorem run_not_stranded_sample :
    ∃ state, Transition.run (next narrowWatermark) waitingAbove
        (new narrowWatermark [.wouldBlock, .wouldBlock]) = some state ∧
      state.worker = .waiting (.writeSoon (.bytes [2])) false false ∧
      ¬ state.Stranded narrowWatermark := by
  have ran : ∃ state, Transition.run (next narrowWatermark) waitingAbove
      (new narrowWatermark [.wouldBlock, .wouldBlock]) = some state ∧
      state.worker = .waiting (.writeSoon (.bytes [2])) false false := by
    refine ⟨_, rfl, ?_⟩
    decide +kernel
  obtain ⟨state, ran, waits⟩ := ran
  exact ⟨state, ran, waits, run_not_stranded narrowWatermark _ _ (by decide) (by decide) ran⟩

/-- The main thread sends the first byte and then has nothing to do, but the second one
still waits. -/
theorem stranded_at_zero :
    ¬ ∀ (context : ChannelContext) (socket : List SendResult) (actions : List Action)
      (state : Sharing), 0 ≤ context.adj.outbufHighWatermark → 1 ≤ context.adj.sendBytes →
      Transition.run (next context) actions (new context socket) = some state →
      ¬ state.Stranded context := by
  intro never
  have ran : ∃ state, Transition.run (next lowWatermark)
      (waitingRun ++ [.testRequests, .testTotal, .flushSomeIfLockable true, .testFlushed,
        .closeIfWillClose])
      (new lowWatermark [.wouldBlock, .wouldBlock, .sent 1]) = some state ∧
      state.worker = .waiting (.writeSoon (.bytes [1])) false false ∧
      state.output.connected = true ∧ state.writable = false := by
    refine ⟨_, rfl, ?_⟩
    decide +kernel
  obtain ⟨state, ran, waits, connected, unwritable⟩ := ran
  apply never lowWatermark _ _ state (by decide) (by decide) ran
  exact ⟨⟨_, _, waits⟩, connected, .inl unwritable⟩

end Sharing

end Waitress
