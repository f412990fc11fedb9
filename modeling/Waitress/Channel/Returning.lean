import Waitress.Channel.Settling
import Waitress.Library.Endless

/-!
# Calls of `service` return

What a call needs of the threads and of the client so that it gets to its end: each of
its positions is left, and a wait ends since the outbufs are taken below the watermark or
the channel is closed.
-/

namespace Waitress

open Raising

namespace HTTPChannel

def Ready (channel : HTTPChannel) : Prop :=
  ∃ position ∈ channel.running,
    match position with
    | .working _ => False
    | .waiting .. => channel.output.notified = true
    | _ => True

variable (context : ChannelContext)

/-- A call waits, and `handle_write` is going to send something or to close the channel. -/
structure Offers (channel : HTTPChannel) : Prop where
  waits : ∃ request raised, channel.running = [.waiting request raised]
  present : channel.main ≠ .gone
  offers : channel.output.willClose = true ∨
    0 < channel.output.totalOutbufsLen ∧ context.adj.sendBytes ≤ channel.output.totalOutbufsLen

/-- The client has taken something, or the connection has failed. -/
def Takes (before after : Output) : Prop :=
  before.accepted.length < after.accepted.length ∨ after.connected = false ∨ after.willClose = true

/-- What a call needs of its surroundings. -/
structure Fair [CPython] (run : Transition.Endless (next context)) : Prop where
  /-- The thread of a call gets its turn. -/
  calls : ∀ t, (∀ later ≥ t, (run.state later).Ready) →
    ∃ later ≥ t, ∃ action, run.action later = some action ∧ action.IsCall
  /-- No task works for ever. -/
  tasks : ∀ t, ¬ ∀ later ≥ t, ∃ request, (run.state later).running = [.working request]
  /-- Every handler of the main thread ends. -/
  handlers : ∀ t, ∃ later ≥ t, (run.state later).main = .idle ∨ (run.state later).main = .gone
  /-- What the main thread offers to the client at all times is taken at some time. -/
  client : ∀ t, (∀ later ≥ t, Offers context (run.state later)) →
    ∃ later ≥ t, run.action later = some (.flush true) ∧
      Takes (run.state later).output (run.state (later + 1)).output

theorem flush_main [CPython] {lockable : Bool} {before after : HTTPChannel}
    (taken : next context (.flush lockable) before = some after) :
    after.main = .handingOver ∨ after.main = .flushed := by
  cases next_steps context taken with
  | flush idle =>
      unfold flushBeforeClose
      dsimp only
      split
      · exact .inl rfl
      · exact .inr rfl

theorem attended_of_stays [CPython] {action : Action} {before after : HTTPChannel}
    {request : Numbered} {raised : Bool} (watched : Watched context before)
    (call : before.running = [.waiting request raised])
    (stays : after.running = [.waiting request raised])
    (taken : next context action before = some after) :
    ¬ action.IsCall ∧ Attended context before after := by
  obtain ⟨stage, -, awaits⟩ := watched
  rcases next_proceeds context stage call taken with ⟨outside, -⟩ | ⟨-, proceeds⟩
  · exact ⟨outside, next_attended context stage call taken outside⟩
  cases proceeds with
  | ends ended => cases ended.symm.trans stays
  | moves moved running less other =>
      exact absurd (List.head_eq_of_cons_eq (running.symm.trans stays)) (other request raised)
  | waits at_ => cases at_
  | again at_ notified connected above =>
      exact absurd (awaits.woken request raised call notified connected) (Int.not_lt.mpr (le_of_lt above))

theorem Proceeds.lower {action : Action} {before after : HTTPChannel} {position : ServicePosition}
    (proceeds : Proceeds context before position action after)
    (call : before.running = [position]) :
    after.running = [] ∨ (∃ moved, after.running = [moved] ∧ moved.rank < position.rank) ∨
      (∃ request, position = .waiting request false) ∧ after.running = [position] := by
  cases proceeds with
  | ends ended => exact .inl ended
  | moves moved running less => exact .inr (.inl ⟨moved, running, less⟩)
  | waits at_ =>
      refine .inr (.inl ⟨_, set_first call _, ?_⟩)
      rw [at_]
      exact Nat.lt_succ_self 2
  | again at_ =>
      refine .inr (.inr ⟨⟨_, at_⟩, ?_⟩)
      rw [at_]
      exact set_first call _

section Endless

variable {context} [CPython] {run : Transition.Endless (next context)}
  {socket : List SendResult} {t : Nat} {request : Numbered} {raised : Bool}

theorem watched_along (start : run.state 0 = HTTPChannel.new context socket) (t : Nat) :
    Watched context (run.state t) := by
  refine @Transition.Endless.invariant_along _ _ _ run _ (fun _ _ => True)
    (fun _ _ _ watched _ taken => watched.next context taken) ?_ (fun _ _ _ => trivial) t
  rw [start]
  exact Watched.new context socket

theorem not_hangs_along (start : run.state 0 = HTTPChannel.new context socket)
    (meets : ∀ t action, run.action t = some action → ReturnsFrom context action (run.state t))
    (t : Nat) : ¬ (run.state t).Hangs := by
  refine And.right (@Transition.Endless.invariant_along _ _ _ run
    (fun channel => Watched context channel ∧ ¬ channel.Hangs) _
    (fun action before after good returns taken => ?_) ?_ meets t)
  · obtain ⟨watched, free⟩ := good
    exact ⟨watched.next context taken, free ∘ (hangs_iff context watched taken).mpr returns.2⟩
  · rw [start]
    exact ⟨Watched.new context socket, fun hangs => by cases hangs.1⟩

/-- While a call stays in its wait, the main thread attends to it. -/
theorem attended_along (watched : ∀ t, Watched context (run.state t))
    (stays : ∀ later ≥ t, (run.state later).running = [.waiting request raised]) {later : Nat}
    (more : later ≥ t) {action : Action} (taken : run.action later = some action) :
    ¬ action.IsCall ∧ Attended context (run.state later) (run.state (later + 1)) :=
  attended_of_stays context (watched later) (stays later more)
    (stays (later + 1) (Nat.le_succ_of_le more)) (run.steps later action taken)

theorem kept_along (holds : HTTPChannel → Prop) (watched : ∀ t, Watched context (run.state t))
    (stays : ∀ later ≥ t, (run.state later).running = [.waiting request raised])
    (keeps : ∀ later ≥ t, Attended context (run.state later) (run.state (later + 1)) →
      holds (run.state later) → holds (run.state (later + 1)))
    (now : holds (run.state t)) : ∀ later ≥ t, holds (run.state later) := by
  refine Transition.forall_later now fun later more held => ?_
  cases taken : run.action later with
  | none => rwa [run.pauses later taken]
  | some action => exact keeps later more (attended_along watched stays more taken).2 held

theorem not_notified_along (watched : ∀ t, Watched context (run.state t)) (fair : Fair context run)
    (stays : ∀ later ≥ t, (run.state later).running = [.waiting request raised]) :
    (run.state t).output.notified = false := by
  refine Bool.eq_false_iff.mpr fun notified => ?_
  have always := kept_along (fun channel => channel.output.notified = true) watched stays
    (fun _ _ attended => attended.output.notified) notified
  have ready : ∀ later ≥ t, (run.state later).Ready := by
    intro later more
    refine ⟨.waiting request raised, ?_, always later more⟩
    rw [stays later more]
    exact List.mem_singleton_self _
  obtain ⟨later, more, action, taken, isCall⟩ := fair.calls t ready
  exact (attended_along watched stays more taken).1 isCall

theorem not_willClose_along (watched : ∀ t, Watched context (run.state t))
    (fair : Fair context run)
    (present : ∀ later ≥ t, (run.state later).main ≠ .gone)
    (stays : ∀ later ≥ t, (run.state later).running = [.waiting request raised]) :
    (run.state t).output.willClose = false := by
  refine Bool.eq_false_iff.mpr fun closes => ?_
  have closing := kept_along (fun channel => channel.output.willClose = true) watched stays
    (fun _ _ attended => attended.output.willClose) closes
  have offers : ∀ later ≥ t, Offers context (run.state later) :=
    fun later more => ⟨⟨_, _, stays later more⟩, present later more, .inl (closing later more)⟩
  obtain ⟨flushed, more, taken, -⟩ := fair.client t offers
  have behind : ∀ later ≥ flushed + 1, (run.state later).running = [.waiting request raised] :=
    fun later ge => stays later (by omega)
  have unnoticed : ∀ later ≥ t, (run.state later).output.notified = false :=
    fun later ge => not_notified_along watched fair fun further after => stays further (by omega)
  have handling := kept_along (fun channel => channel.main = .handingOver ∨ channel.main = .flushed)
    watched behind (fun later ge attended main => by
      refine (attended.closes main (closing later (by omega))).resolve_left fun notified => ?_
      exact Bool.noConfusion ((unnoticed (later + 1) (by omega)).symm.trans notified))
    (flush_main context (run.steps flushed _ taken))
  obtain ⟨later, ge, idle | gone⟩ := fair.handlers (flushed + 1)
  · rcases handling later ge with handing | flushed
    · cases idle.symm.trans handing
    · cases idle.symm.trans flushed
  · exact present later (by omega) gone

theorem not_full_along (watched : ∀ t, Watched context (run.state t)) (fair : Fair context run)
    (some_ : 1 ≤ context.adj.sendBytes)
    (reaches : context.adj.sendBytes ≤ context.adj.outbufHighWatermark)
    (free : ∀ t, ¬ (run.state t).Hangs)
    (stays : ∀ later ≥ t, (run.state later).running = [.waiting request raised]) : False := by
  have unnoticed : ∀ later ≥ t, (run.state later).output.notified = false :=
    fun later ge => not_notified_along watched fair fun further after => stays further (by omega)
  have present : ∀ later ≥ t, (run.state later).main ≠ .gone :=
    fun later ge gone => free later ⟨gone, unnoticed later ge, request, raised, stays later ge⟩
  have open_ : ∀ later ≥ t, (run.state later).output.willClose = false :=
    fun later ge => not_willClose_along watched fair (fun further after => present further (by omega))
      fun further after => stays further (by omega)
  have connected : ∀ later ≥ t, (run.state later).output.connected = true ∧
      context.adj.outbufHighWatermark ≤ (run.state later).output.totalOutbufsLen := by
    intro later ge
    have call := stays later ge
    cases raised with
    | true =>
        have closes := (watched later).awaits.raised request call (unnoticed later ge)
        cases (open_ later ge).symm.trans closes
    | false =>
        obtain ⟨here, full | closes⟩ := (watched later).awaits.full request call (unnoticed later ge)
        · exact ⟨here, full⟩
        · cases (open_ later ge).symm.trans closes
  have offers : ∀ later ≥ t, Offers context (run.state later) := by
    intro later ge
    have full := (connected later ge).2
    exact ⟨⟨_, _, stays later ge⟩, present later ge, .inr ⟨by omega, by omega⟩⟩
  have empties : ∀ (n : Nat), ∀ start ≥ t, ¬ (run.state start).output.totalOutbufsLen ≤ n := by
    intro n
    induction n with
    | zero =>
        intro start ge none
        have full := (connected start ge).2
        omega
    | succ n inductionHypothesis =>
        intro start ge small
        obtain ⟨later, more, taken, takes⟩ := fair.client start fun later after =>
          offers later (by omega)
        have less := kept_along
          (fun channel => channel.output.totalOutbufsLen ≤ (run.state start).output.totalOutbufsLen)
          watched (fun further after => stays further (by omega))
          (fun further after attended least => by
            exact (attended.output.drains (connected (further + 1) (by omega)).1).2.trans least)
          (le_refl _) later more
        have attended := (attended_along watched stays (le_trans ge more) taken).2
        have here := (connected (later + 1) (by omega)).1
        have exchanged := attended.output.exchanges (open_ (later + 1) (by omega)) here
        rcases takes with grows | lost | closes
        · refine inductionHypothesis (later + 1) (by omega) ?_
          omega
        · cases here.symm.trans lost
        · cases (open_ (later + 1) (by omega)).symm.trans closes
  exact empties (run.state t).output.totalOutbufsLen.toNat t (le_refl t) (Int.self_le_toNat _)

theorem not_stays_along (watched : ∀ t, Watched context (run.state t)) (fair : Fair context run)
    (some_ : 1 ≤ context.adj.sendBytes)
    (reaches : context.adj.sendBytes ≤ context.adj.outbufHighWatermark)
    (free : ∀ t, ¬ (run.state t).Hangs) (position : ServicePosition) :
    ¬ ∀ later ≥ t, (run.state later).running = [position] := by
  intro stays
  have ready : (∀ request, position ≠ .working request) →
      (∀ request raised, position ≠ .waiting request raised) → False := by
    intro working waiting
    have ready : ∀ later ≥ t, (run.state later).Ready := by
      intro later ge
      refine ⟨position, ?_, ?_⟩
      · rw [stays later ge]
        exact List.mem_singleton_self _
      · cases position with
        | working request => exact working request rfl
        | waiting request raised => exact absurd rfl (waiting request raised)
        | _ => trivial
    obtain ⟨later, ge, action, taken, isCall⟩ := fair.calls t ready
    have same := stays (later + 1) (by omega)
    rcases next_proceeds context (watched later).stage (stays later ge)
      (run.steps later action taken) with ⟨outside, -⟩ | ⟨-, proceeds⟩
    · exact outside isCall
    rcases proceeds.lower context (stays later ge) with ended | ⟨moved, running, less⟩ | ⟨waits, -⟩
    · cases ended.symm.trans same
    · obtain rfl := List.head_eq_of_cons_eq (running.symm.trans same)
      exact lt_irrefl _ less
    · obtain ⟨request, at_⟩ := waits
      exact waiting request false at_
  cases position with
  | working request => exact fair.tasks t fun later ge => ⟨request, stays later ge⟩
  | waiting request raised => exact not_full_along watched fair some_ reaches free stays
  | _ => exact ready (fun _ => ServicePosition.noConfusion) fun _ _ => ServicePosition.noConfusion

/-- A call ends; the induction is on how far it is from its end. -/
theorem ends_along (watched : ∀ t, Watched context (run.state t)) (fair : Fair context run)
    (some_ : 1 ≤ context.adj.sendBytes)
    (reaches : context.adj.sendBytes ≤ context.adj.outbufHighWatermark)
    (free : ∀ t, ¬ (run.state t).Hangs) (rank : Nat) :
    ∀ t position, position.rank = rank → (run.state t).running = [position] →
      ∃ later ≥ t, EndsCall (run.state later) (run.state (later + 1)) := by
  induction rank using Nat.strong_induction_on with
  | _ rank inductionHypothesis =>
      rintro t position rfl call
      obtain ⟨last, ge, here, left⟩ := Transition.exists_last call
        (not_stays_along watched fair some_ reaches free position)
      cases taken : run.action last with
      | none => exact absurd (by rwa [run.pauses last taken]) left
      | some action =>
          rcases next_proceeds context (watched last).stage here (run.steps last action taken) with
            ⟨-, same⟩ | ⟨-, proceeds⟩
          · exact absurd same left
          rcases proceeds.lower context here with ended | ⟨moved, running, less⟩ | ⟨-, same⟩
          · refine ⟨last, ge, ?_⟩
            rw [EndsCall, ended, here]
            exact Nat.zero_lt_one
          · obtain ⟨later, more, ends⟩ := inductionHypothesis _ less (last + 1) moved rfl running
            exact ⟨later, by omega, ends⟩
          · exact absurd same left

end Endless

/-- A run that pauses for ever when its calls have ended. -/
theorem fair_ofRun [CPython] {actions : List Action} {start final : HTTPChannel}
    (ran : Transition.run (next context) actions start = some final) (idle : final.main = .idle)
    (nobody : final.running = []) : Fair context (Transition.Endless.ofRun ran) := by
  have last : ∀ t, (Transition.Endless.ofRun ran).state (max t actions.length) = final :=
    fun t => Transition.Endless.ofRun_final ran (le_max_right _ _)
  refine ⟨fun t ready => ?_, fun t works => ?_, fun t => ?_, fun t offers => ?_⟩
  · obtain ⟨position, mem, -⟩ := ready _ (le_max_left _ _)
    rw [last t, nobody] at mem
    cases mem
  · obtain ⟨request, call⟩ := works _ (le_max_left _ _)
    rw [last t, nobody] at call
    cases call
  · refine ⟨max t actions.length, le_max_left _ _, .inl ?_⟩
    rw [last t]
    exact idle
  · obtain ⟨⟨request, raised, call⟩, -, -⟩ := offers _ (le_max_left _ _)
    rw [last t, nobody] at call
    cases call

def narrowContext : ChannelContext := { adj := { sendBytes := 1, outbufHighWatermark := 1 } }

/-- Two requests arrive; behind the first one the call waits until the client takes the response. -/
def serveSlowly : List Action :=
  [.read (ascii "GET / HTTP/1.1\r\n\r\nGET / HTTP/1.1\r\n\r\n"), .pop, .startTask 0,
    .testConnected 0, .write 0 (.bytes (ascii "abcd")),
    .endTask 0 (Task.sampleApplication (ascii "abcd")) Task.sampleContext, .drain 0, .flushBelow 0,
    .flush true, .close, .wake 0, .resume 0]

def slowSocket : List SendResult := [.wouldBlock, .wouldBlock, .sent 3, .sent 1]

/-- A bad request, whose client goes away while it is answered. -/
def answerGone : List Action :=
  [.read (ascii "GET / HTTP/1.1\r\nbad\r\n\r\n"), .pop, .startTask 0, .testConnected 0, .readNothing]

def goneContext : TaskContext := { date := [], transport := fun _ => some .clientDisconnected }

/-- The client goes away between the test of the call and its look at the outbufs. -/
def leaveInBetween : List Action :=
  [.read (ascii "GET / HTTP/1.1\r\n\r\nGET / HTTP/1.1\r\n\r\n"), .pop, .startTask 0,
    .testConnected 0, .write 0 (.bytes (ascii "abcd")),
    .endTask 0 (Task.sampleApplication (ascii "abcd")) Task.sampleContext, .drain 0, .readNothing,
    .flushBelow 0]

end HTTPChannel

end Waitress
