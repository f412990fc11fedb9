import Waitress.Channel.Draining

/-!
# A channel that is closed

Once `handle_close` has emptied the outbufs, nothing is appended to them, unless
`send_continue` finds its test of `self.connected` out of date.
-/

namespace Waitress

open Raising

namespace Output

/-- There is nothing to send, and there is no socket. -/
def Silent (out : Output) : Prop :=
  (∀ answer ∈ out.socket, answer = .raises .attributeError) ∧ out.totalOutbufsLen = 0

variable (context : ChannelContext)

theorem sendLoop_silent (doClose : Bool) {socket : List SendResult} {out : Output}
    (closed : ∀ answer ∈ socket, answer = .raises .attributeError)
    (empty : out.totalOutbufsLen = 0) (outbuflen : Int) :
    Silent (sendLoop context doClose socket outbuflen out).2 := by
  have left : ∀ {answer answers}, (∀ other ∈ answer :: answers, other = .raises .attributeError) →
      ∀ other ∈ answers, other = SendResult.raises .attributeError :=
    fun closed other mem => closed other (List.mem_cons_of_mem _ mem)
  fun_cases sendLoop context doClose socket outbuflen out with
  | case1 => exact ⟨closed, empty⟩
  | case2 => exact ⟨closed, empty⟩
  | case3 => exact ⟨closed, empty⟩
  | case5 => exact SendResult.noConfusion (closed _ (List.mem_cons_self ..))
  | case9 => exact SendResult.noConfusion (closed _ (List.mem_cons_self ..))
  | _ => exact ⟨left closed, empty⟩

/-- A flush appends nothing, and where nothing is to be sent it leaves it so. -/
structure Rests (before after : Output) : Prop where
  written : after.written = before.written
  connected : after.connected = true → before.connected = true
  silent : Silent before → Silent after

instance : IsPreorder Output Rests where
  refl _ := ⟨rfl, id, id⟩
  trans _ _ _ first second :=
    { written := second.written.trans first.written
      connected := first.connected ∘ second.connected
      silent := second.silent ∘ first.silent }

theorem flushException_rests (doClose : Bool) :
    Within Rests (flushException context doClose) := by
  apply flushException_within
  · apply flushSome_within
    · intro outbuflen out
      have flushes := sendLoop_flushes context doClose out.socket outbuflen out
      refine ⟨flushes.written, flushes.connected, fun silent => ?_⟩
      exact sendLoop_silent context doClose silent.1 silent.2 outbuflen
    · exact fun _ => ⟨rfl, id, id⟩
  · exact fun _ => ⟨rfl, id, id⟩

theorem flushUnderLock_rests : Within Rests (flushUnderLock context) := by
  refine within_bind (flushException_rests context false) fun _ => ?_
  refine within_bind within_get fun out => ?_
  split
  · exact within_pure _
  split
  · exact within_pure _
  · exact within_pure _

theorem flushBelow_rests : Within Rests (flushBelow context) := by
  refine within_get_bind fun out => ?_
  split
  · exact flushUnderLock_rests context out
  · exact within_pure _ out

theorem exec_flushBelow_of_le {out : Output}
    (enough : out.totalOutbufsLen ≤ context.adj.outbufHighWatermark) :
    exec (flushBelow context) out = (.ok .below, out) := by
  rw [flushBelow, exec_get_bind, if_neg (not_lt.mpr enough), exec_pure]

/-- `write_soon` does not append to a channel that is closed. -/
theorem exec_appendSoon_of_not_connected {out : Output} (gone : out.connected = false)
    (data : Payload) :
    exec (appendSoon context data) out = (.error .clientDisconnected, out) := by
  rw [appendSoon, exec_get_bind, if_pos gone, exec_throw]

end Output

namespace Sharing

variable (context : ChannelContext)

def SocketGone (state : Sharing) : Prop :=
  state.socketClosed = true ∨ ∃ writes, state.main = .closing writes

theorem SocketGone.closed {state : Sharing} (gone : state.SocketGone) {main : MainThread}
    (there : state.main = main) (other : ∀ writes, main ≠ .closing writes) :
    state.socketClosed = true := by
  rcases gone with closed | ⟨writes, closing⟩
  · exact closed
  · exact absurd (there.symm.trans closing) (other writes)

/-- The channel was closed, and nothing has happened to its output since. -/
structure Shut (state : Sharing) (seen : Bytes × List Int) : Prop where
  connected : state.output.connected = false
  empty : state.output.totalOutbufsLen = 0
  same : (state.output.written, state.levels) = seen
  socket : state.SocketGone

/-- Since `handle_close` has first run, nothing has happened to the output. -/
def StaysShut (state : Sharing) : Prop := ∀ seen, state.closed = some seen → state.Shut seen

theorem StaysShut.of_eq {before after : Sharing} (shut : before.StaysShut)
    (closed : after.closed = before.closed)
    (connected : after.output.connected = true → before.output.connected = true)
    (empty : after.output.totalOutbufsLen = before.output.totalOutbufsLen)
    (same : (after.output.written, after.levels) = (before.output.written, before.levels))
    (socket : before.SocketGone → after.SocketGone) : after.StaysShut := by
  intro seen isClosed
  have start := shut seen (closed.symm.trans isClosed)
  refine ⟨?_, empty.trans start.empty, same.trans start.same, socket start.socket⟩
  exact Bool.eq_false_iff.mpr fun open_ =>
    Bool.false_ne_true (start.connected.symm.trans (connected open_))

theorem answering_written (state : Sharing) :
    state.answering.written = state.output.written := by
  rw [answering]
  split <;> rfl

/-- A flush behind the closing of the socket. -/
theorem Shut.of_rests {state : Sharing} {seen : Bytes × List Int} (shut : state.Shut seen)
    (socketClosed : state.socketClosed = true) {output : Output}
    (rests : Output.Rests state.answering output) : { state with output }.Shut seen where
  connected := by
    have connected := rests.connected
    rw [answering_connected, shut.connected] at connected
    exact Bool.eq_false_iff.mpr fun open_ => Bool.false_ne_true (connected open_)
  empty := by
    apply (rests.silent _).2
    rw [answering, if_pos socketClosed]
    exact ⟨fun answer mem => List.mem_singleton.mp mem, shut.empty⟩
  same := by
    rw [rests.written, answering_written]
    exact shut.same
  socket := .inl socketClosed

theorem StaysShut.noteClosed {state : Sharing} (connected : state.output.connected = false)
    (empty : state.output.totalOutbufsLen = 0) (socket : state.SocketGone)
    (same : ∀ seen, state.closed = some seen → (state.output.written, state.levels) = seen) :
    state.noteClosed.StaysShut := by
  intro seen isClosed
  refine ⟨connected, empty, ?_, socket⟩
  change state.closed.or (some (state.output.written, state.levels)) = some seen at isClosed
  cases closed : state.closed with
  | none =>
      rw [closed] at isClosed
      exact Option.some.inj isClosed
  | some first =>
      rw [closed] at isClosed
      cases isClosed
      exact same seen closed

theorem StaysShut.handleClose {state : Sharing} (shut : state.StaysShut) :
    state.handleClose.StaysShut :=
  StaysShut.noteClosed rfl rfl (.inr ⟨false, rfl⟩) fun seen closed => (shut seen closed).same

theorem StaysShut.runClosing {Value : Type} {state : Sharing} (shut : state.StaysShut)
    {action : OutputM Value}
    (answered : Output.Answered state.answering.socket (exec action state.answering).2)
    (rests : state.closed.isSome = true → state.socketClosed = true ∧
      Output.Rests state.answering (exec action state.answering).2) :
    (runClosing action state).StaysShut := by
  have kept : ∀ seen, state.closed = some seen →
      Sharing.Shut { state with output := (exec action state.answering).2 } seen := by
    intro seen closed
    obtain ⟨socketClosed, rests⟩ := rests (by rw [closed]; rfl)
    exact (shut seen closed).of_rests socketClosed rests
  rw [Sharing.runClosing]
  split
  · next met =>
      obtain ⟨connected, empty⟩ := answered.closed met
      exact StaysShut.noteClosed connected empty (.inl rfl) fun seen closed =>
        (kept seen closed).same
  · exact kept

theorem StaysShut.goOn {state : Sharing} (shut : state.StaysShut) (waiter : Waiter) :
    (goOn context waiter state).StaysShut := by
  cases waiter with
  | service => exact shut.of_eq rfl id rfl rfl id
  | writeSoon data =>
      intro seen closed
      have start := shut seen closed
      have gone : state.answering.connected = false := by
        rw [answering_connected, start.connected]
      have raised : exec (appendSoon context data) state.answering =
        (.error .clientDisconnected, state.answering) :=
          Output.exec_appendSoon_of_not_connected context gone data
      change Sharing.Shut (append context data state) seen
      rw [append, raised, start.connected, if_neg Bool.false_ne_true]
      refine ⟨gone, ?_, ?_, start.socket⟩
      · exact (answering_totalOutbufsLen state).trans start.empty
      · exact (congrArg (·, state.levels) (answering_written state)).trans start.same

theorem StaysShut.waitOrGoOn {state : Sharing} {outcome : Except Exc Below × Output}
    (shut : StaysShut { state with output := outcome.2 }) (waiter : Waiter) :
    (waitOrGoOn context waiter outcome state).StaysShut := by
  obtain ⟨exc | raised | raised, output⟩ := outcome
  · exact shut.goOn context waiter
  · exact shut.goOn context waiter
  · exact shut.of_eq rfl id rfl rfl id

theorem StaysShut.wake {state : Sharing} (shut : state.StaysShut) (waiter : Waiter)
    (raised : Bool) : (wake context waiter raised state).StaysShut := by
  rw [Sharing.wake]
  split
  · exact shut.of_eq rfl id rfl rfl id
  · exact shut.goOn context waiter

/-- No section of `send_continue` is entered on a channel that is not connected, and no
worker flushes between the section of `handle_close` and the closing of the socket. -/
def EntersInTime (action : Action) (state : Sharing) : Prop :=
  match action with
  | .announce => state.output.connected = true
  | .sendContinue => state.output.connected = true
  | .enter _ => (∃ writes, state.main = .closing writes) →
      state.output.totalOutbufsLen ≤ context.adj.outbufHighWatermark
  | .drain => ¬ ∃ writes, state.main = .closing writes
  | _ => True

/-- A section that is entered on a connected channel finds that it was not closed. -/
theorem StaysShut.sendContinue {state : Sharing} (shut : state.StaysShut)
    (connected : state.output.connected = true) :
    (Sharing.runClosing (sendContinueOutput context) { state with expects := false }).StaysShut := by
  have start : StaysShut { state with expects := false } := shut.of_eq rfl id rfl rfl id
  apply start.runClosing (Output.sendContinueOutput_answered context _)
  intro closed
  obtain ⟨seen, closed⟩ := Option.isSome_iff_exists.mp closed
  exact absurd ((shut seen closed).connected.symm.trans connected) Bool.false_ne_true

instance (action : Action) (state : Sharing) : Decidable (EntersInTime context action state) :=
  match action with
  | .announce => inferInstanceAs (Decidable (state.output.connected = true))
  | .sendContinue => inferInstanceAs (Decidable (state.output.connected = true))
  | .enter _ =>
      inferInstanceAs (Decidable ((∃ writes, state.main = .closing writes) →
        state.output.totalOutbufsLen ≤ context.adj.outbufHighWatermark))
  | .drain => inferInstanceAs (Decidable (¬ ∃ writes, state.main = .closing writes))
  | .startReceiving | .parse _ | .complete | .blank | .endReceiving | .parseFails | .maintain
  | .testRequests | .testTotal | .flushSome | .flushSomeIfLockable _ | .testFlushed | .handOver
  | .closeIfWillClose | .handleClose | .closeSocket _ | .cancel | .serve | .write _ | .wake _ _
  | .endTask _ | .settle | .checkBacklog | .pop | .testContinue => .isTrue trivial

variable {context}

theorem StaysShut.flushException {state : Sharing} (shut : state.StaysShut) {main : MainThread}
    (there : state.main = main) (other : ∀ writes, main ≠ .closing writes) :
    (Sharing.runClosing (flushException context true) state).StaysShut := by
  apply shut.runClosing (Output.flushException_answered context state.answering)
  intro closed
  obtain ⟨seen, closed⟩ := Option.isSome_iff_exists.mp closed
  exact ⟨(shut seen closed).socket.closed there other,
    Output.flushException_rests context true state.answering⟩

theorem StaysShut.flushSome {state : Sharing} (shut : state.StaysShut)
    (there : state.main = .flushing .flushSome) : (flushSome context state).StaysShut := by
  have kept : ∀ seen, state.closed = some seen → Shut
      { state with output := (exec (Waitress.flushException context true) state.answering).2 }
        seen := by
    intro seen closed
    have start := shut seen closed
    exact start.of_rests (start.socket.closed there fun _ => MainThread.noConfusion)
      (Output.flushException_rests context true state.answering)
  rw [Sharing.flushSome]
  split
  · next met =>
      obtain ⟨connected, empty⟩ :=
        (Output.flushException_answered context state.answering).closed met
      exact StaysShut.noteClosed connected empty (.inr ⟨true, rfl⟩) fun seen closed =>
        (kept seen closed).same
  · intro seen closed
    have start := kept seen closed
    exact ⟨start.connected, start.empty, start.same,
      .inl (start.socket.closed there fun _ => MainThread.noConfusion)⟩

theorem StaysShut.flushSomeIfLockable {state : Sharing} (shut : state.StaysShut)
    (there : state.main = .flushing .flushSomeIfLockable) (acquired : Bool) :
    (flushSomeIfLockable context acquired state).StaysShut := by
  have main := Sharing.runClosing_main (Waitress.flushException context true) state
  have flushed : StaysShut (Sharing.runClosing (Waitress.flushException context true) state) :=
    shut.flushException there fun _ => MainThread.noConfusion
  have moved : StaysShut { Sharing.runClosing (Waitress.flushException context true) state with
      main := .flushed } :=
    flushed.of_eq rfl id rfl rfl fun gone =>
      .inl (gone.closed (main.trans there) fun _ => MainThread.noConfusion)
  rw [Sharing.flushSomeIfLockable]
  split
  · exact shut.of_eq rfl id rfl rfl fun gone =>
      .inl (gone.closed there fun _ => MainThread.noConfusion)
  split
  · rw [notifyIfBelow]
    split
    · exact moved.of_eq rfl id rfl rfl id
    · exact moved
  · exact moved

/-- The worker flushes while the socket is closed, or not at all. -/
theorem StaysShut.looks {state : Sharing} (shut : state.StaysShut) {output : Output}
    (rests : Output.Rests state.answering output)
    (window : state.socketClosed = false → (∃ writes, state.main = .closing writes) →
      output = state.output) : StaysShut { state with output } := by
  intro seen closed
  have start := shut seen closed
  by_cases socketClosed : state.socketClosed = true
  · exact start.of_rests socketClosed rests
  · rw [window (Bool.eq_false_iff.mpr socketClosed) (start.socket.resolve_left socketClosed)]
    exact start

variable (context)

theorem StaysShut.enter {state : Sharing} (shut : state.StaysShut) (data : Payload)
    (below : (∃ writes, state.main = .closing writes) →
      state.output.totalOutbufsLen ≤ context.adj.outbufHighWatermark) :
    (enter context data state).StaysShut := by
  apply StaysShut.waitOrGoOn
  apply shut.looks (Output.flushBelow_rests context state.answering)
  intro socketOpen closing
  have unchanged : state.answering = state.output := by
    rw [answering, socketOpen, if_neg Bool.false_ne_true]
  rw [unchanged, Output.exec_flushBelow_of_le context (below closing)]

theorem StaysShut.drain {state : Sharing} (shut : state.StaysShut)
    (other : ¬ ∃ writes, state.main = .closing writes) : (drain context state).StaysShut := by
  apply StaysShut.waitOrGoOn
  apply shut.looks (Output.flushUnderLock_rests context state.answering)
  exact fun _ closing => absurd closing other

theorem StaysShut.pop {state : Sharing} (shut : state.StaysShut) :
    (pop context state).StaysShut := by
  rw [Sharing.pop]
  split
  · exact shut.of_eq rfl id rfl rfl id
  split
  · exact shut.of_eq rfl id rfl rfl id
  · exact shut.of_eq rfl id rfl rfl id

/-- What the main thread does behind `handle_close` comes behind the closing of the socket. -/
theorem StaysShut.moves {before after : Sharing} (shut : before.StaysShut)
    {main : MainThread} (there : before.main = main) (other : ∀ writes, main ≠ .closing writes)
    (closed : after.closed = before.closed)
    (connected : after.output.connected = true → before.output.connected = true)
    (empty : after.output.totalOutbufsLen = before.output.totalOutbufsLen)
    (same : (after.output.written, after.levels) = (before.output.written, before.levels))
    (socketClosed : after.socketClosed = before.socketClosed) : after.StaysShut :=
  shut.of_eq closed connected empty same fun gone =>
    .inl (socketClosed.trans (gone.closed there other))

theorem next_staysShut {action : Action} {state after : Sharing} (shut : state.StaysShut)
    (inTime : EntersInTime context action state)
    (taken : next context action state = some after) : after.StaysShut := by
  obtain ⟨enabled, rfl⟩ := (next_eq_some context).mp taken
  cases action with
  | startReceiving =>
      exact shut.moves enabled.1 (fun _ => MainThread.noConfusion) rfl id rfl rfl rfl
  | announce =>
      have sent := shut.sendContinue context inTime
      have main := runClosing_main (sendContinueOutput context) { state with expects := false }
      obtain ⟨after, rfl, returned | raised⟩ :=
        sendContinue_cases context id (fun state => { state with main := .failing }) state
      · rw [show perform context .announce state = _ from returned]
        exact sent
      · rw [show perform context .announce state = _ from raised]
        exact sent.moves (main.trans enabled.1) (fun _ => MainThread.noConfusion) rfl id rfl rfl rfl
  | endReceiving | parseFails | testTotal | handOver =>
      exact shut.moves enabled (fun _ => MainThread.noConfusion) rfl id rfl rfl rfl
  | testRequests =>
      exact shut.moves enabled (fun _ => MainThread.noConfusion) rfl id rfl rfl rfl
  | flushSome => exact shut.flushSome enabled
  | flushSomeIfLockable acquired => exact shut.flushSomeIfLockable enabled acquired
  | testFlushed =>
      change (testFlushed state).StaysShut
      rw [testFlushed]
      split
      · exact shut.moves enabled (fun _ => MainThread.noConfusion) rfl id rfl rfl rfl
      · exact shut.moves enabled (fun _ => MainThread.noConfusion) rfl id rfl rfl rfl
  | closeIfWillClose =>
      change (closeIfWillClose state).StaysShut
      rw [closeIfWillClose]
      split
      · exact shut.handleClose
      · exact shut.moves enabled (fun _ => MainThread.noConfusion) rfl id rfl rfl rfl
  | handleClose => exact shut.handleClose
  | closeSocket writes => exact shut.of_eq rfl id rfl rfl fun _ => .inl rfl
  | cancel => exact shut.of_eq rfl Bool.noConfusion rfl rfl id
  | enter data => exact shut.enter context data inTime
  | wake waiter raised => exact shut.wake context waiter raised
  | endTask closeOnFinish =>
      cases closeOnFinish with
      | false => exact shut.of_eq rfl id rfl rfl id
      | true => exact shut.of_eq rfl id rfl rfl id
  | drain => exact shut.drain context inTime
  | pop => exact shut.pop context
  | testContinue =>
      change (testContinue state).StaysShut
      rw [testContinue]
      split
      · exact shut.of_eq rfl id rfl rfl id
      · exact shut.of_eq rfl id rfl rfl id
  | sendContinue =>
      have sent := shut.sendContinue context inTime
      obtain ⟨after, rfl, outcome⟩ :=
        sendContinue_cases context (fun state => { state with worker := .outside })
          (fun state => { state with worker := .outside }) state
      rw [show perform context .sendContinue state = _ from or_self_iff.mp outcome]
      exact sent.of_eq rfl id rfl rfl id
  | _ => exact shut.of_eq rfl id rfl rfl id

/-- As long as every section is entered in time, a closed channel stays empty. -/
theorem run_staysShut (socket : List SendResult) (actions : List Action) {state : Sharing}
    (inTime : Transition.Along (next context) (EntersInTime context) actions (new context socket))
    (ran : Transition.run (next context) actions (new context socket) = some state)
    {seen : Bytes × List Int} (closed : state.closed = some seen) :
    (state.output.written, state.levels) = seen ∧ state.output.totalOutbufsLen = 0 := by
  have start : (new context socket).StaysShut := by
    intro seen isClosed
    cases isClosed
  have shut : state.StaysShut := Transition.run_invariant_along
    (fun _ _ _ kept inTime taken => next_staysShut context kept inTime taken) start inTime ran
  exact ⟨(shut seen closed).same, (shut seen closed).empty⟩

/-- The channel is closed while the worker is in front of the lock. -/
def closingRun : List Action :=
  [.startReceiving, .complete, .endReceiving, .serve, .write (.bytes [0]), .handleClose,
    .closeSocket false, .enter (.bytes [0])]

theorem run_staysShut_sample :
    ∃ state, Transition.run (next {}) closingRun (new {} []) = some state ∧
      (state.output.written, state.levels) = ([], []) ∧ state.output.totalOutbufsLen = 0 :=
  ⟨_, rfl, run_staysShut {} [] closingRun (by decide +kernel) rfl rfl⟩

/-- The worker has seen that the channel is connected, and then it is closed. -/
def lateRun : List Action :=
  [.startReceiving, .complete, .endReceiving, .serve, .endTask false, .startReceiving,
    .parse true, .endReceiving, .checkBacklog, .pop, .testContinue, .handleClose, .sendContinue]

theorem not_staysShut :
    ¬ ∀ (context : ChannelContext) (socket : List SendResult) (actions : List Action)
      (state : Sharing),
      Transition.run (next context) actions (new context socket) = some state →
      ∀ seen, state.closed = some seen →
        (state.output.written, state.levels) = seen ∧ state.output.totalOutbufsLen = 0 := by
  intro stays
  have ran : ∃ state, Transition.run (next {}) lateRun (new {} []) = some state ∧
      state.closed = some ([], []) ∧ state.output.totalOutbufsLen = 25 := by
    refine ⟨_, rfl, ?_⟩
    decide +kernel
  obtain ⟨state, ran, closed, total⟩ := ran
  have empty := (stays {} [] lateRun state ran _ closed).2
  rw [total] at empty
  exact absurd empty (by decide)

end Sharing

end Waitress
