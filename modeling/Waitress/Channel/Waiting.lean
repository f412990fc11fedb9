import Waitress.Channel.Notifying
import Waitress.Channel.Stages

/-!
# Calls of `service` that wait

Between its task and its last section a call may wait for a notification.  What the
main thread does meanwhile, what the call relies on while nobody has notified it, and
which step leaves it without anyone who could.
-/

namespace Waitress

open Raising

/-- How far a call is from its end. -/
def ServicePosition.rank : ServicePosition → Nat
  | .popped => 7
  | .started _ => 6
  | .working _ => 5
  | .keeping _ => 4
  | .draining _ => 3
  | .waiting .. => 2
  | .drained _ => 1
  | .closing _ => 1

namespace HTTPChannel

variable (context : ChannelContext)

/-! ### The connection -/

/-- What is known of a connection that is lost. -/
structure Severed (channel : HTTPChannel) : Prop where
  closed : channel.output.closed = true → channel.output.connected = false
  lost : channel.output.connected = false →
    channel.output.closed = true ∨ channel.output.willClose = true
  gone : channel.main = .gone → channel.output.closed = true

theorem Severed.of_severs {before after : HTTPChannel} (severed : before.Severed)
    (severs : Output.Severs before.output after.output)
    (willClose : before.output.willClose = true → after.output.willClose = true)
    (gone : after.main = .gone → after.output.closed = true) : after.Severed := by
  rcases severs with ⟨connected, closed⟩ | ⟨lost, closed⟩
  · refine ⟨?_, ?_, gone⟩
    · rw [closed, connected]
      exact severed.closed
    · rw [closed, connected]
      exact fun lost => (severed.lost lost).imp_right willClose
  · exact ⟨fun _ => lost, fun _ => .inl closed, fun _ => closed⟩

theorem Severed.of_same_main {before after : HTTPChannel} (severed : before.Severed)
    (severs : Output.Severs before.output after.output)
    (willClose : before.output.willClose = true → after.output.willClose = true)
    (main : after.main = before.main) : after.Severed := by
  refine severed.of_severs severs willClose fun gone => ?_
  have closed := severed.gone (main.symm.trans gone)
  rcases severs with ⟨-, same⟩ | ⟨-, closed⟩
  · exact same.trans closed
  · exact closed

structure Quiet (before after : HTTPChannel) : Prop where
  announces : Output.Announces before.output after.output
  willClose : after.output.willClose = before.output.willClose
  main : after.main = before.main

instance : IsPreorder HTTPChannel Quiet where
  refl channel := ⟨refl channel.output, rfl, rfl⟩
  trans _ _ _ first second :=
    ⟨IsTrans.trans _ _ _ first.announces second.announces, second.willClose.trans first.willClose,
      second.main.trans first.main⟩

theorem Severed.of_quiet {before after : HTTPChannel} (severed : before.Severed)
    (quiet : Quiet before after) : after.Severed :=
  severed.of_same_main quiet.announces.severs quiet.willClose.trans quiet.main

theorem sendContinue_quiet : Within Quiet (sendContinue context) := by
  intro channel
  cases current : channel.request with
  | none =>
      rw [sendContinue, exec_get_bind, current]
      exact refl channel
  | some request =>
      have announces := Output.sendContinueOutput_announces context channel.output.answering
      have outcome := Output.exec_sendContinueOutput context channel.output.answering
      rw [sendContinue, exec_get_bind, current]
      dsimp only
      rw [exec_modify_bind, exec_get_bind]
      dsimp only
      generalize exec (sendContinueOutput context) channel.output.answering = sent
        at announces outcome ⊢
      obtain ⟨result, output⟩ := sent
      have willClose : output.willClose = channel.output.willClose := by
        rcases outcome with ⟨exc, same⟩ | sent
        · rw [(Prod.mk.inj same).2]
          rfl
        · exact sent.willClose
      dsimp only
      rw [exec_modify_bind, exec_bind, exec_ofExcept]
      cases result with
      | error exc => exact ⟨announces, willClose, rfl⟩
      | ok => exact ⟨announces, willClose, rfl⟩

theorem received_quiet [CPython] (data : Bytes) : Within Quiet (received context data) := by
  refine received_within (fun data => ?_) (continueIfAlone_within (sendContinue_quiet context))
    (fun channel => ?_) data
  · refine within_bind within_get fun channel => ?_
    exact within_bind (within_modify fun channel => ⟨refl channel.output, rfl, rfl⟩) fun _ =>
      within_ofExcept _
  · unfold takeRequest
    repeat' split
    · exact refl channel
    · exact refl channel
    · exact ⟨.inl ⟨rfl, rfl, rfl⟩, rfl, rfl⟩
    · exact ⟨.inl ⟨rfl, rfl, rfl⟩, rfl, rfl⟩

/-- A handler that returns without a socket has closed the channel. -/
theorem Severed.settled {channel : HTTPChannel} (severed : channel.Severed) :
    settledMain channel.output = .gone → channel.output.closed = true := by
  unfold settledMain
  split
  · rename_i gone
    exact fun _ => (severed.lost gone.1).resolve_right (Bool.eq_false_iff.mp gone.2)
  · exact MainPosition.noConfusion

theorem Severed.of_same_output {channel other : HTTPChannel} (severed : channel.Severed)
    (output : other.output = channel.output) (main : other.main = channel.main) :
    other.Severed := by
  refine severed.of_same_main ?_ ?_ main
  · rw [output]
    exact refl channel.output
  · rw [output]
    exact id

theorem Severed.of_closed {channel other : HTTPChannel}
    (output : other.output = channel.output.handleClose) : other.Severed := by
  refine ⟨?_, ?_, ?_⟩
  · rw [output]
    exact fun _ => rfl
  · rw [output]
    exact fun _ => .inl rfl
  · rw [output]
    exact fun _ => rfl

theorem Severed.resume {channel : HTTPChannel} (severed : channel.Severed) (i : Nat) :
    (resume context i channel).Severed := by
  unfold HTTPChannel.resume
  split
  · exact severed.of_same_output rfl rfl
  rename_i first rest queue
  have quiet := sendContinue_quiet context { channel with requests := rest }
  have popped : Severed { channel with requests := rest } := severed.of_same_output rfl rfl
  dsimp only
  repeat' split
  · exact severed.of_same_output rfl rfl
  · rename_i done
    rw [done] at quiet
    obtain ⟨closed, lost, gone⟩ := popped.of_quiet quiet
    exact ⟨closed, lost, gone⟩
  · rename_i done
    rw [done] at quiet
    obtain ⟨closed, lost, gone⟩ := popped.of_quiet quiet
    exact ⟨closed, lost, gone⟩
  · exact severed.of_same_output rfl rfl

theorem Severed.next [CPython] {action : Action} {channel after : HTTPChannel}
    (severed : channel.Severed) (taken : HTTPChannel.next context action channel = some after) :
    after.Severed := by
  cases next_steps context taken with
  | read main =>
      rename_i data
      have reads := severed.of_quiet (received_quiet context data channel)
      rw [handleRead]
      generalize exec (received context data) channel = outcome at reads
      obtain ⟨exc | ⟨⟩, middle⟩ := outcome
      · exact reads.of_severs (refl middle.output) id MainPosition.noConfusion
      · exact reads.of_severs (refl middle.output) id reads.settled
  | readNothing main => exact .of_closed rfl
  | readFails main => exact severed.of_severs (refl channel.output) id MainPosition.noConfusion
  | flush main =>
      rename_i lockable
      have severs := Output.flushWrite_severs context channel.requests.isEmpty lockable
        channel.output.answering
      have flags := Output.flushWrite_keepsFlags context channel.requests.isEmpty lockable
        channel.output.answering
      unfold flushBeforeClose
      dsimp only
      split
      · exact severed.of_severs severs flags.willClose MainPosition.noConfusion
      · exact severed.of_severs severs flags.willClose MainPosition.noConfusion
  | handOver main =>
      exact severed.of_severs (.inl ⟨rfl, rfl⟩) (fun _ => rfl) MainPosition.noConfusion
  | close main =>
      unfold closeIfWillClose
      split
      · exact .of_closed rfl
      · exact severed.of_severs (refl channel.output) id severed.settled
  | closeFailing main => exact .of_closed rfl
  | maintain main =>
      unfold maintain
      split
      · exact severed.of_same_main (.inl ⟨rfl, rfl⟩) (fun _ => rfl) rfl
      · exact severed
  | cancel queued => exact ⟨fun _ => rfl, fun _ => .inr rfl, severed.gone⟩
  | startTask found =>
      unfold HTTPChannel.startTask
      split
      · exact severed.of_same_output rfl rfl
      · exact severed.of_same_output rfl rfl
  | write found =>
      exact severed.of_same_main
        (Output.writeSoonOutput_announces context _ channel.output.answering).severs
        (Output.writeSoonOutput_keepsFlags context _ channel.output.answering).willClose rfl
  | endTask found =>
      unfold HTTPChannel.endTask
      split
      · exact severed.of_same_output rfl rfl
      · exact severed.of_same_output rfl rfl
      · exact severed.of_same_output rfl rfl
  | settle found => exact severed.of_same_main (.inl ⟨rfl, rfl⟩) id rfl
  | drain found =>
      unfold drain
      split
      · exact severed.of_same_output rfl rfl
      · exact severed.of_same_main (.inl ⟨rfl, rfl⟩) id rfl
  | flushBelow found =>
      have severs := (Output.flushUnderLock_announces context channel.output.answering).severs
      have flags := Output.flushUnderLock_relieves context channel.output.answering
      unfold flushBelow
      split
      · rename_i done
        rw [done] at severs flags
        exact severed.of_same_main severs flags.willClose rfl
      · rename_i done
        rw [done] at severs flags
        exact severed.of_same_main severs flags.willClose rfl
  | wake found notified =>
      unfold wake
      split
      · exact severed.of_same_main (.inl ⟨rfl, rfl⟩) id rfl
      · exact severed.of_same_main (.inl ⟨rfl, rfl⟩) id rfl
  | resume found => exact severed.resume context _
  | _ => exact severed.of_same_output rfl rfl

/-! ### The steps of a call -/

/-- A step of a call of `service` between its start and its last section. -/
def Action.IsCall : Action → Prop
  | .startTask _ | .testConnected _ | .endTask .. | .settle _ | .drain _ | .flushBelow _ | .wake _
  | .resume _ => True
  | _ => False

def Action.isLook : Action → Bool
  | .flushBelow _ => true
  | _ => false

/-- What a step of the only call leads to. -/
inductive Proceeds (before : HTTPChannel) (position : ServicePosition) :
    Action → HTTPChannel → Prop where
  | ends {action : Action} {after : HTTPChannel} : after.running = [] →
      Proceeds before position action after
  | moves {action : Action} {after : HTTPChannel} (moved : ServicePosition) :
      after.running = [moved] → moved.rank < position.rank →
      (∀ request raised, moved ≠ .waiting request raised) → Proceeds before position action after
  | waits {request : Numbered} {raised : Bool} {output : Output} :
      position = .draining request →
      exec (flushUnderLock context) before.output.answering = (.ok (.waits raised), output) →
      Proceeds before position (.flushBelow 0)
        (move 0 (.waiting request raised)
          { before with output := { output with notified := false } })
  | again {request : Numbered} : position = .waiting request false →
      before.output.notified = true → before.output.connected = true →
      before.output.totalOutbufsLen > context.adj.outbufHighWatermark →
      Proceeds before position (.wake 0)
        (move 0 (.waiting request false) { before with output.notified := false })

section

variable {channel : HTTPChannel} {position : ServicePosition}

/-- The only call is the first one. -/
theorem at_first {i : Nat} {other : ServicePosition} (call : channel.running = [position])
    (found : channel.running[i]? = some other) : i = 0 ∧ position = other := by
  rw [call] at found
  exact eq_of_getElem?_singleton found

theorem set_first (call : channel.running = [position]) (moved : ServicePosition) :
    channel.running.set 0 moved = [moved] := by
  rw [call]
  rfl

theorem erase_first (call : channel.running = [position]) : channel.running.eraseIdx 0 = [] := by
  rw [call]
  rfl

end

theorem Stage.unpended {channel : HTTPChannel} {position : ServicePosition} (stage : channel.Stage)
    (call : channel.running = [position]) : channel.pendingTasks = 0 := by
  have found : channel.running[0]? = some position := by
    rw [call]
    rfl
  cases named : position.request with
  | some request => exact (stage.at_request found named).2.2.1
  | none =>
      cases position with
      | popped => exact (stage.at_popped found).2.2.1
      | _ => cases named

theorem Stage.calls {channel : HTTPChannel} (stage : channel.Stage) :
    channel.running = [] ∨ ∃ position, channel.running = [position] := by
  cases stage with
  | idle _ _ nobody _ => exact .inl nobody
  | waiting _ task _ => exact task.imp And.right fun popped => ⟨.popped, popped.2⟩
  | serving _ _ position _ _ call _ _ => exact .inr ⟨position, call⟩
  | halted _ _ nobody _ => exact .inl nobody
  | ended _ _ nobody _ _ => exact .inl nobody

theorem next_started [CPython] {action : Action} {before after : HTTPChannel}
    (nobody : before.running = []) (taken : next context action before = some after) :
    after.running = [] ∨ after.running = [.popped] := by
  cases next_steps context taken with
  | read main =>
      rcases handleRead_receives context _ main with same | ⟨-, receives⟩
      · rw [same]
        exact .inl nobody
      · exact .inl (receives.running.trans nobody)
  | flush main => exact .inl ((flushBeforeClose_keepsQueue context _ main).running.trans nobody)
  | close main => exact .inl ((closeIfWillClose_keepsQueue main).running.trans nobody)
  | maintain main => exact .inl ((maintain_keepsQueue before).running.trans nobody)
  | pop queued => exact .inr (congrArg (· ++ [ServicePosition.popped]) nobody)
  | startTask found | testConnected found | write found | endTask found | settle found
  | drain found | flushBelow found | wake found | resume found => simp [nobody] at found
  | _ => exact .inl nobody

theorem drain_proceeds {channel : HTTPChannel} {request : Numbered} {action : Action}
    (call : channel.running = [.keeping request]) :
    Proceeds context channel (.keeping request) action (drain context 0 request channel) := by
  unfold drain
  split
  · exact .moves _ (set_first call _) (by simp [ServicePosition.rank]) fun _ _ =>
      ServicePosition.noConfusion
  · exact .moves _ (set_first call _) (by simp [ServicePosition.rank]) fun _ _ =>
      ServicePosition.noConfusion

theorem next_proceeds [CPython] {action : Action} {before after : HTTPChannel}
    {position : ServicePosition} (stage : before.Stage) (call : before.running = [position])
    (taken : next context action before = some after) :
    ¬ action.IsCall ∧ after.running = [position] ∨
      action.IsCall ∧ Proceeds context before position action after := by
  have stays : ∀ {other : HTTPChannel}, ¬ action.IsCall → other.running = before.running →
      ¬ action.IsCall ∧ other.running = [position] ∨
        action.IsCall ∧ Proceeds context before position action other :=
    fun outside running => .inl ⟨outside, running.trans call⟩
  cases next_steps context taken with
  | read main =>
      rcases handleRead_receives context _ main with same | ⟨-, receives⟩
      · rw [same]
        exact stays not_false rfl
      · exact stays not_false receives.running
  | flush main => exact stays not_false (flushBeforeClose_keepsQueue context _ main).running
  | close main => exact stays not_false (closeIfWillClose_keepsQueue main).running
  | maintain main => exact stays not_false (maintain_keepsQueue before).running
  | pop queued => exact absurd (stage.unpended call) (Nat.ne_of_gt queued)
  | cancel queued => exact absurd (stage.unpended call) (Nat.ne_of_gt queued)
  | startTask found =>
      obtain ⟨rfl, rfl⟩ := at_first call found
      refine .inr ⟨trivial, ?_⟩
      unfold HTTPChannel.startTask
      split
      · exact .ends (erase_first call)
      · exact .moves _ (set_first call _) (by simp [ServicePosition.rank]) fun _ _ =>
          ServicePosition.noConfusion
  | testConnected found =>
      obtain ⟨rfl, rfl⟩ := at_first call found
      refine .inr ⟨trivial, ?_⟩
      split
      · exact .moves _ (set_first call _) (by simp [ServicePosition.rank]) fun _ _ =>
          ServicePosition.noConfusion
      · exact .moves _ (set_first call _) (by simp [ServicePosition.rank]) fun _ _ =>
          ServicePosition.noConfusion
  | endTask found =>
      obtain ⟨rfl, rfl⟩ := at_first call found
      refine .inr ⟨trivial, ?_⟩
      unfold HTTPChannel.endTask
      split
      · exact .moves _ (set_first call _) (by simp [ServicePosition.rank]) fun _ _ =>
          ServicePosition.noConfusion
      · exact .moves _ (set_first call _) (by simp [ServicePosition.rank]) fun _ _ =>
          ServicePosition.noConfusion
      · exact .ends (erase_first call)
  | settle found =>
      obtain ⟨rfl, rfl⟩ := at_first call found
      exact .inr ⟨trivial, .ends (erase_first call)⟩
  | drain found =>
      obtain ⟨rfl, rfl⟩ := at_first call found
      exact .inr ⟨trivial, drain_proceeds context call⟩
  | flushBelow found =>
      obtain ⟨rfl, rfl⟩ := at_first call found
      refine .inr ⟨trivial, ?_⟩
      unfold flushBelow
      split
      · rename_i done
        exact .waits rfl done
      · exact .moves _ (set_first call _) (by simp [ServicePosition.rank]) fun _ _ =>
          ServicePosition.noConfusion
  | wake found notified =>
      obtain ⟨rfl, rfl⟩ := at_first call found
      refine .inr ⟨trivial, ?_⟩
      unfold wake
      split
      · rename_i more
        obtain ⟨rfl, connected, above⟩ := more
        exact .again rfl notified connected above
      · exact .moves _ (set_first call _) (by simp [ServicePosition.rank]) fun _ _ =>
          ServicePosition.noConfusion
  | resume found =>
      obtain ⟨rfl, -, -, rest, queue, -⟩ := stage.at_request found rfl
      obtain ⟨-, rfl⟩ := at_first call found
      refine .inr ⟨trivial, .ends ?_⟩
      have running := (sendContinue_continues context { before with requests := rest }).running
      have resumes := resume_resumes context 0 queue
      generalize HTTPChannel.resume context 0 before = after at resumes ⊢
      cases resumes with
      | next => exact erase_first call
      | continued last done =>
          rw [done] at running
          exact (congrArg (List.eraseIdx · 0) running).trans (erase_first call)
      | failed last done =>
          rw [done] at running
          exact (congrArg (List.eraseIdx · 0) running).trans (erase_first call)
      | quiet => exact erase_first call
  | _ => exact stays not_false rfl

/-! ### What happens while a call waits -/

/-- Behind a request that is served nothing is sent. -/
def ReadsBehind (before after : HTTPChannel) : Prop :=
  before.requests ≠ [] →
    after.requests ≠ [] ∧ ∃ sentContinue, after.output = { before.output with sentContinue }

instance : IsPreorder HTTPChannel ReadsBehind where
  refl _ nonempty := ⟨nonempty, _, rfl⟩
  trans _ _ _ first second nonempty := by
    obtain ⟨middle, _, sent⟩ := first nonempty
    obtain ⟨last, latch, sentThen⟩ := second middle
    exact ⟨last, latch, by rw [sentThen, sent]⟩

theorem received_readsBehind [CPython] (data : Bytes) :
    Within ReadsBehind (received context data) := by
  refine received_within (fun data => ?_) (fun channel => ?_) (fun channel nonempty => ?_) data
  · refine within_bind within_get fun channel => ?_
    exact within_bind (within_modify fun _ nonempty => ⟨nonempty, _, rfl⟩) fun _ => within_ofExcept _
  · intro nonempty
    rw [continueIfAlone, exec_get_bind, if_neg (fun alone => nonempty alone.1)]
    exact ⟨nonempty, _, rfl⟩
  · unfold takeRequest
    repeat' split
    · exact ⟨nonempty, _, rfl⟩
    · exact ⟨nonempty, _, rfl⟩
    · exact ⟨nonempty, _, rfl⟩
    · exact ⟨List.append_ne_nil_of_left_ne_nil nonempty _, _, rfl⟩

structure Attended (before after : HTTPChannel) : Prop where
  output : Output.Attends context before.output after.output
  gone : after.main = .gone →
    before.main = .gone ∨ after.output.notified = true ∨ after.output.willClose = false
  closes : before.main = .handingOver ∨ before.main = .flushed → before.output.willClose = true →
    after.output.notified = true ∨ after.main = .handingOver ∨ after.main = .flushed

theorem settledMain_gone {output : Output} (gone : settledMain output = .gone) :
    output.willClose = false := by
  unfold settledMain at gone
  split at gone
  · rename_i lost
    exact lost.2
  · cases gone

theorem Attended.of_output {before after : HTTPChannel}
    (attends : Output.Attends context before.output after.output) (main : before.main = .idle)
    (gone : after.main = .gone → after.output.notified = true ∨ after.output.willClose = false) :
    Attended context before after where
  output := attends
  gone := .inr ∘ gone
  closes := by
    rw [main]
    rintro (handing | flushed)
    · cases handing
    · cases flushed

theorem flushBeforeClose_attended (lockable : Bool) {channel : HTTPChannel}
    (main : channel.main = .idle) (nonempty : channel.requests ≠ []) :
    Attended context channel (flushBeforeClose context lockable channel) := by
  have attends := (Output.flushWrite_attends context lockable channel.output.answering).of_answering
  unfold flushBeforeClose
  rw [List.isEmpty_eq_false_iff.mpr nonempty]
  dsimp only
  split
  · exact .of_output context { attends with } main MainPosition.noConfusion
  · exact .of_output context attends main MainPosition.noConfusion

theorem closeIfWillClose_attended (channel : HTTPChannel) :
    Attended context channel channel.closeIfWillClose := by
  unfold closeIfWillClose
  split
  · exact ⟨Output.handleClose_attends context _, fun _ => .inr (.inl rfl), fun _ _ => .inl rfl⟩
  · rename_i open_
    exact ⟨Output.attends_refl context _, fun gone => .inr (.inr (settledMain_gone gone)),
      fun _ closes => absurd closes open_⟩

theorem next_attended [CPython] {action : Action} {before after : HTTPChannel} {request : Numbered}
    {raised : Bool} (stage : before.Stage) (call : before.running = [.waiting request raised])
    (taken : next context action before = some after) (outside : ¬ action.IsCall) :
    Attended context before after := by
  have found : before.running[0]? = some (.waiting request raised) := by
    rw [call]
    rfl
  obtain ⟨-, -, pending, rest, queue, -⟩ := stage.at_request found rfl
  have nonempty : before.requests ≠ [] := by
    rw [queue]
    exact List.cons_ne_nil _ _
  cases next_steps context taken with
  | read main =>
      rename_i data
      have reads := received_readsBehind context data before nonempty
      rw [handleRead]
      generalize exec (received context data) before = outcome at reads
      obtain ⟨result, middle⟩ := outcome
      obtain ⟨-, sent, output⟩ := reads
      dsimp only at output
      have attends : Output.Attends context before.output middle.output := by
        rw [output]
        exact { Output.attends_refl context before.output with }
      cases result with
      | error exc => exact .of_output context attends main MainPosition.noConfusion
      | ok => exact .of_output context attends main fun gone => .inr (settledMain_gone gone)
  | readNothing main =>
      exact .of_output context (Output.handleClose_attends context _) main fun _ => .inl rfl
  | readFails main =>
      exact .of_output context (Output.attends_refl context _) main MainPosition.noConfusion
  | flush main => exact flushBeforeClose_attended context _ main nonempty
  | handOver main =>
      refine ⟨?_, MainPosition.noConfusion, fun _ _ => .inr (.inr rfl)⟩
      exact ⟨id, fun _ => rfl, .inl, fun connected => ⟨connected, le_refl _⟩, fun _ => rfl,
        fun _ _ => .inr rfl, Bool.noConfusion⟩
  | close main => exact closeIfWillClose_attended context before
  | closeFailing main =>
      exact ⟨Output.handleClose_attends context _, fun _ => .inr (.inl rfl), fun _ _ => .inl rfl⟩
  | maintain main =>
      unfold maintain
      rw [if_neg nonempty]
      exact ⟨Output.attends_refl context _, .inl, fun still _ => .inr still⟩
  | cancel queued => exact absurd pending (Nat.ne_of_gt queued)
  | pop queued => exact absurd pending (Nat.ne_of_gt queued)
  | write working => cases (at_first call working).2
  | return_ left => exact ⟨Output.attends_refl context _, .inl, fun still _ => .inr still⟩
  | _ => exact absurd trivial outside

/-- What a call that waits relies on. -/
structure Awaits (channel : HTTPChannel) : Prop where
  woken : ∀ request raised, channel.running = [.waiting request raised] →
    channel.output.notified = true → channel.output.connected = true →
      channel.output.totalOutbufsLen < context.adj.outbufHighWatermark
  raised : ∀ request, channel.running = [.waiting request true] →
    channel.output.notified = false → channel.output.willClose = true
  full : ∀ request, channel.running = [.waiting request false] →
    channel.output.notified = false → channel.output.connected = true ∧
      (context.adj.outbufHighWatermark ≤ channel.output.totalOutbufsLen ∨
        channel.output.willClose = true)

theorem Awaits.of_none {channel : HTTPChannel}
    (none : ∀ request raised, channel.running ≠ [.waiting request raised]) :
    Awaits context channel where
  woken request raised call := absurd call (none request raised)
  raised request call := absurd call (none request true)
  full request call := absurd call (none request false)

theorem Awaits.of_attended {before after : HTTPChannel} {request : Numbered} {raised : Bool}
    (awaits : Awaits context before) (call : before.running = [.waiting request raised])
    (same : after.running = [.waiting request raised]) (attended : Attended context before after) :
    Awaits context after := by
  obtain ⟨attends, -, -⟩ := attended
  have silent : after.output.notified = false → before.output.notified = false :=
    fun unnoticed => Bool.eq_false_iff.mpr fun notified =>
      Bool.noConfusion (unnoticed.symm.trans (attends.notified notified))
  have waits : ∀ {other flag}, after.running = [.waiting other flag] →
      other = request ∧ flag = raised := by
    intro other flag running
    cases running.symm.trans same
    exact ⟨rfl, rfl⟩
  refine ⟨fun other flag running notified connected => ?_, fun other running unnoticed => ?_,
    fun other running unnoticed => ?_⟩
  · rcases attends.woken notified with earlier | below
    · obtain ⟨start, less⟩ := attends.drains connected
      exact lt_of_le_of_lt less (awaits.woken request raised call earlier start)
    · exact below connected
  · obtain ⟨rfl, rfl⟩ := waits running
    exact attends.willClose (awaits.raised _ call (silent unnoticed))
  · obtain ⟨rfl, rfl⟩ := waits running
    obtain ⟨connected, full | closes⟩ := awaits.full _ call (silent unnoticed)
    · exact ⟨(attends.silent unnoticed).trans connected, attends.total unnoticed full⟩
    · exact ⟨(attends.silent unnoticed).trans connected, .inr (attends.willClose closes)⟩

theorem Awaits.next [CPython] {action : Action} {before after : HTTPChannel} (stage : before.Stage)
    (awaits : Awaits context before) (taken : HTTPChannel.next context action before = some after) :
    Awaits context after := by
  rcases stage.calls with nobody | ⟨position, call⟩
  · apply Awaits.of_none
    intro request raised waits
    rcases next_started context nobody taken with none | popped
    · cases none.symm.trans waits
    · cases popped.symm.trans waits
  rcases next_proceeds context stage call taken with ⟨outside, same⟩ | ⟨-, proceeds⟩
  · cases position with
    | waiting request raised =>
        exact awaits.of_attended context call same (next_attended context stage call taken outside)
    | _ =>
        apply Awaits.of_none
        intro request raised waits
        cases same.symm.trans waits
  cases proceeds with
  | ends ended =>
      apply Awaits.of_none
      intro request raised waits
      cases ended.symm.trans waits
  | moves moved running less other =>
      apply Awaits.of_none
      intro request raised waits
      exact other request raised (List.head_eq_of_cons_eq (running.symm.trans waits))
  | waits at_ done =>
      have found := Output.flushUnderLock_waits context done
      refine ⟨fun _ _ _ => Bool.noConfusion, fun other waits _ => ?_, fun other waits _ => ?_⟩
      · rw [move, set_first call] at waits
        cases waits
        exact found
      · rw [move, set_first call] at waits
        cases waits
        exact ⟨found.1, .inl (le_of_lt found.2)⟩
  | again at_ notified connected above =>
      refine ⟨fun _ _ _ => Bool.noConfusion, fun other waits _ => ?_, fun other waits _ => ?_⟩
      · rw [move, set_first call] at waits
        cases waits
      · exact ⟨connected, .inl (le_of_lt above)⟩

/-! ### Calls that hang -/

/-- Nobody is left to notify a call that waits. -/
def Hangs (channel : HTTPChannel) : Prop :=
  channel.main = .gone ∧ channel.output.notified = false ∧
    ∃ request raised, channel.running = [.waiting request raised]

/-- What the states of a run have in common, as far as waiting goes. -/
structure Watched (channel : HTTPChannel) : Prop where
  stage : channel.Stage
  severed : channel.Severed
  awaits : Awaits context channel

theorem Watched.new (socket : List SendResult) :
    Watched context (HTTPChannel.new context socket) where
  stage := (Orderly.new context socket).stage
  severed := ⟨Bool.noConfusion, Bool.noConfusion, MainPosition.noConfusion⟩
  awaits := .of_none context fun _ _ waits => by cases waits

theorem Watched.next [CPython] {action : Action} {before after : HTTPChannel}
    (watched : Watched context before)
    (taken : HTTPChannel.next context action before = some after) : Watched context after where
  stage := watched.stage.next context taken
  severed := watched.severed.next context taken
  awaits := watched.awaits.next context watched.stage taken

/-- The channel was closed between the test of a call and its look at the outbufs, where a
byte is left. -/
def LeavesBytes (channel : HTTPChannel) : Prop :=
  channel.main = .gone ∧ ¬ channel.output.IsEmptied

theorem Severed.not_connected {channel : HTTPChannel} (severed : channel.Severed)
    (gone : channel.main = .gone) : channel.output.connected = false :=
  severed.closed (severed.gone gone)

theorem flushBelow_hangs {channel : HTTPChannel} {request : Numbered} (severed : channel.Severed)
    (call : channel.running = [.draining request]) (bytes : channel.LeavesBytes) :
    (flushBelow context 0 request channel).Hangs := by
  obtain ⟨gone, left⟩ := bytes
  obtain ⟨raised, output, done⟩ := (Output.flushUnderLock_closed context (severed.gone gone)
    (severed.not_connected gone)).mpr left
  rw [flushBelow, done]
  exact ⟨gone, rfl, request, raised, set_first call _⟩

/-- A step leads to a hang exactly if it is a look at a closed channel that still has bytes. -/
theorem hangs_iff [CPython] {action : Action} {before after : HTTPChannel}
    (watched : Watched context before) (taken : next context action before = some after) :
    (after.Hangs → before.Hangs) ↔ ¬ (action.isLook = true ∧ before.LeavesBytes) := by
  have later := watched.next context taken
  obtain ⟨stage, severed, -⟩ := watched
  constructor
  · rintro earlier ⟨look, bytes⟩
    cases next_steps context taken with
    | flushBelow found =>
        obtain ⟨rfl, call, -⟩ := stage.at_request found rfl
        obtain ⟨-, -, request, raised, waits⟩ := earlier (flushBelow_hangs context severed call bytes)
        cases call.symm.trans waits
    | _ => cases look
  · rintro free ⟨gone, unnoticed, request, raised, waits⟩
    have lost := later.severed.not_connected gone
    rcases stage.calls with nobody | ⟨position, call⟩
    · rcases next_started context nobody taken with none | popped
      · cases none.symm.trans waits
      · cases popped.symm.trans waits
    rcases next_proceeds context stage call taken with ⟨outside, same⟩ | ⟨-, proceeds⟩
    · obtain rfl := List.head_eq_of_cons_eq (same.symm.trans waits)
      have attended := next_attended context stage call taken outside
      have silent : before.output.notified = false := Bool.eq_false_iff.mpr fun notified =>
        Bool.noConfusion (unnoticed.symm.trans (attended.output.notified notified))
      rcases attended.gone gone with earlier | notified | open_
      · exact ⟨earlier, silent, request, raised, call⟩
      · cases unnoticed.symm.trans notified
      cases raised with
      | true => cases open_.symm.trans (later.awaits.raised request same unnoticed)
      | false => cases lost.symm.trans (later.awaits.full request same unnoticed).1
    cases proceeds with
    | ends ended => cases ended.symm.trans waits
    | moves moved running less other =>
        exact absurd (List.head_eq_of_cons_eq (running.symm.trans waits)) (other request raised)
    | waits at_ done =>
        have left := (Output.flushUnderLock_closed context (severed.gone gone)
          (severed.not_connected gone)).mp ⟨_, _, done⟩
        exact absurd ⟨rfl, gone, left⟩ free
    | again at_ notified connected above => cases lost.symm.trans connected

end HTTPChannel

end Waitress
