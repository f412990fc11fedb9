import Waitress.Channel.Stages
import Waitress.Parser.Advancing

/-!
# The loop of `received` advances

Every round of the loop consumes something, whatever the channel has been
through.  A parser that is finished is never asked again: the request is taken,
or `send_continue` has reset it while nothing of its body had been read.
-/

namespace Waitress

open Raising

namespace HTTPChannel

/-- What the loop finds at the beginning of each round. -/
structure Attentive (channel : HTTPChannel) : Prop where
  running : ∀ request, channel.request = some request → request.parser.completed = false
  expecting : ∀ request, channel.request = some request → request.parser.Expecting
  attended : channel.waitsForContinue = true → channel.requests ≠ []

variable (context : ChannelContext)

/-! ### One round -/

theorem exec_receiveRequest [CPython] {channel middle : HTTPChannel}
    (attentive : channel.Attentive) {data : Bytes} (nonempty : data ≠ []) {n : Nat}
    (received : exec (receiveRequest context data) channel = (.ok n, middle)) :
    (0 < n ∧ n ≤ data.length) ∧ middle.requests = channel.requests ∧
      ∃ request, middle.request = some request ∧
        (request.parser.Expecting ∨
          request.parser.completed = true ∧ middle.waitsForContinue = channel.waitsForContinue) := by
  rw [receiveRequest, exec_get_bind] at received
  dsimp only at received
  rw [exec_modify_bind, exec_ofExcept] at received
  obtain ⟨returned, rfl⟩ := Prod.mk.inj received
  cases current : channel.request with
  | none =>
      rw [current, Option.getD_none] at returned
      obtain ⟨still, advances⟩ :=
        HTTPRequestParser.expecting_new.received_inHead context.adj nonempty rfl rfl
      refine ⟨advances n returned, rfl, _, rfl, .inl ?_⟩
      exact still
  | some request =>
      have running := attentive.running request current
      have expecting := attentive.expecting request current
      rw [current, Option.getD_some] at returned
      cases body : request.parser.bodyRcv with
      | none =>
          obtain ⟨still, advances⟩ :=
            expecting.received_inHead context.adj nonempty running body
          exact ⟨advances n returned, rfl, _, rfl, .inl still⟩
      | some rcv =>
          obtain ⟨still, continues, headers, advances⟩ :=
            expecting.received_inBody context.adj nonempty running body
          refine ⟨advances n returned, rfl, _, rfl, ?_⟩
          dsimp only [Option.getD_some]
          by_cases completed : (request.parser.received context.adj data).1.completed = true
          · refine .inr ⟨completed, ?_⟩
            simp only [waitsForContinue, current, Option.any_some, continues, headers]
          · exact .inl (still (by simpa using completed))

theorem sendContinue_ok {channel after : HTTPChannel}
    (sent : exec (sendContinue context) channel = (.ok ⟨⟩, after)) :
    ∃ request, channel.request = some request ∧ after.requests = channel.requests ∧
      after.request = some
        { request with parser.expectContinue := false, parser.completed := false } := by
  rw [sendContinue, exec_get_bind] at sent
  cases current : channel.request with
  | none =>
      rw [current] at sent
      cases sent
  | some request =>
      rw [current] at sent
      dsimp only at sent
      rw [exec_modify_bind, exec_get_bind] at sent
      dsimp only at sent
      rw [exec_modify_bind] at sent
      obtain ⟨_, middle, raised, sent⟩ := exec_bind_ok sent
      rw [exec_ofExcept] at raised
      rw [exec_modify] at sent
      obtain rfl := (Prod.mk.inj raised).2
      obtain rfl := (Prod.mk.inj sent).2
      exact ⟨request, rfl, rfl, rfl⟩

theorem takeRequest_of_running {channel : HTTPChannel} {request : Numbered}
    (current : channel.request = some request) (running : request.parser.completed = false) :
    channel.takeRequest = channel := by
  rw [takeRequest, current]
  dsimp only
  rw [if_pos running]

theorem takeRequest_of_completed {channel : HTTPChannel} {request : Numbered}
    (current : channel.request = some request) (completed : request.parser.completed = true) :
    channel.takeRequest.request = none := by
  rw [takeRequest, current]
  dsimp only
  rw [if_neg (by simp [completed])]
  split
  · rfl
  · rfl

theorem receiveRound_advances [CPython] {channel after : HTTPChannel}
    (attentive : channel.Attentive) {data : Bytes} (nonempty : data ≠ []) {n : Nat}
    (round : exec (receiveRound context data) channel = (.ok n, after)) :
    (0 < n ∧ n ≤ data.length) ∧ after.Attentive := by
  unfold receiveRound at round
  obtain ⟨m, middle, received, round⟩ := exec_bind_ok round
  obtain ⟨_, answered, continued, round⟩ := exec_bind_ok round
  obtain ⟨_, taken, modified, round⟩ := exec_bind_ok round
  rw [exec_modify] at modified
  obtain rfl := (Prod.mk.inj modified).2
  obtain ⟨equal, rfl⟩ := Prod.mk.inj round
  obtain rfl := Except.ok.inj equal
  obtain ⟨advances, queue, request, current, outcome⟩ :=
    exec_receiveRequest context attentive nonempty received
  refine ⟨advances, ?_⟩
  rw [continueIfAlone, exec_get_bind] at continued
  split at continued
  · rename_i alone
    obtain ⟨same, named, stays, reset⟩ := sendContinue_ok context continued
    obtain rfl := Option.some.inj (current.symm.trans named)
    rw [takeRequest_of_running reset rfl]
    have expecting : request.parser.Expecting := by
      rcases outcome with expecting | ⟨-, waits⟩
      · exact expecting
      · exact absurd (queue.symm.trans alone.1) (attentive.attended (waits.symm.trans alone.2))
    refine ⟨?_, ?_, ?_⟩
    · rw [reset]
      rintro _ ⟨rfl⟩
      rfl
    · rw [reset]
      rintro _ ⟨rfl⟩
      exact expecting.of_same rfl rfl
    · rw [waitsForContinue, reset]
      exact fun waits => Bool.noConfusion waits
  · rename_i notAlone
    obtain rfl := (Prod.mk.inj continued).2
    cases completed : request.parser.completed with
    | true =>
        have none := takeRequest_of_completed current completed
        exact ⟨by simp [none], by simp [none], by simp [waitsForContinue, none]⟩
    | false =>
        rw [takeRequest_of_running current completed]
        have expecting : request.parser.Expecting := by
          rcases outcome with expecting | ⟨done, -⟩
          · exact expecting
          · exact Bool.noConfusion (completed.symm.trans done)
        refine ⟨?_, ?_, fun waits empty => notAlone ⟨empty, waits⟩⟩
        · rw [current]
          rintro _ ⟨rfl⟩
          exact completed
        · rw [current]
          rintro _ ⟨rfl⟩
          exact expecting

/-! ### The loop -/

/-- The rounds that end without an exception and leave something, from the channel and the
data at the beginning of the loop; the pieces are what each of them has consumed. -/
inductive Rounds [CPython] (channel : HTTPChannel) (data : Bytes) :
    List Bytes → HTTPChannel → Bytes → Prop where
  | start : Rounds channel data [] channel data
  | next {pieces : List Bytes} {before after : HTTPChannel} {rest : Bytes} {n : Nat} :
      Rounds channel data pieces before rest →
      exec (receiveRound context rest) before = (.ok n, after) → n < rest.length →
      Rounds channel data (pieces ++ [rest.take n]) after (rest.drop n)

structure Remaining (data : Bytes) (pieces : List Bytes) (before : HTTPChannel) (rest : Bytes) :
    Prop where
  attentive : before.Attentive
  nonempty : rest ≠ []
  order : pieces.flatten ++ rest = data
  count : pieces.length + rest.length ≤ data.length

theorem Rounds.remaining [CPython] {channel before : HTTPChannel} {data rest : Bytes}
    {pieces : List Bytes} (rounds : Rounds context channel data pieces before rest)
    (attentive : channel.Attentive) (nonempty : data ≠ []) :
    Remaining data pieces before rest := by
  induction rounds with
  | start => exact ⟨attentive, nonempty, rfl, by simp⟩
  | next _ round more inductionHypothesis =>
      obtain ⟨still, left, order, count⟩ := inductionHypothesis
      obtain ⟨⟨positive, bound⟩, after⟩ := receiveRound_advances context still left round
      refine ⟨after, List.ne_nil_of_length_pos ?_, ?_, ?_⟩
      · rw [List.length_drop]
        omega
      · rw [List.flatten_concat, List.append_assoc, List.take_append_drop, order]
      · rw [List.length_append, List.length_singleton, List.length_drop]
        omega

theorem receiveLoop_attentive [CPython] (fuel : Nat) {data : Bytes} {channel after : HTTPChannel}
    (attentive : channel.Attentive) (nonempty : data ≠ [])
    (ran : exec (receiveLoop context fuel data) channel = (.ok ⟨⟩, after)) : after.Attentive := by
  induction fuel generalizing data channel with
  | zero =>
      obtain rfl := (Prod.mk.inj ran).2
      exact attentive
  | succ fuel inductionHypothesis =>
      unfold receiveLoop at ran
      obtain ⟨n, middle, round, ran⟩ := exec_bind_ok ran
      obtain ⟨⟨positive, bound⟩, still⟩ :=
        receiveRound_advances context attentive nonempty round
      split at ran
      · obtain rfl := (Prod.mk.inj ran).2
        exact still
      · apply inductionHypothesis still (List.ne_nil_of_length_pos ?_) ran
        rw [List.length_drop]
        omega

/-- A bound of one round for each byte is no bound. -/
theorem receiveLoop_fuel [CPython] {fuel more : Nat} {data : Bytes} {channel : HTTPChannel}
    (attentive : channel.Attentive) (nonempty : data ≠ []) (enough : data.length ≤ fuel)
    (enoughToo : data.length ≤ more) :
    exec (receiveLoop context fuel data) channel = exec (receiveLoop context more data) channel := by
  have positive := List.length_pos_iff.mpr nonempty
  induction fuel generalizing more data channel with
  | zero => omega
  | succ fuel inductionHypothesis =>
      obtain ⟨more, rfl⟩ : ∃ fewer, more = fewer + 1 := ⟨more - 1, by omega⟩
      rw [receiveLoop, receiveLoop, exec_bind, exec_bind]
      rcases round : exec (receiveRound context data) channel with ⟨exc | n, middle⟩
      · rfl
      · obtain ⟨⟨advance, bound⟩, still⟩ := receiveRound_advances context attentive nonempty round
        dsimp only
        split
        · rfl
        · have left : 0 < (data.drop n).length := by
            rw [List.length_drop]
            omega
          have length : (data.drop n).length = data.length - n := List.length_drop
          exact inductionHypothesis still (List.ne_nil_of_length_pos left) (by omega) (by omega) left

/-! ### Every run -/

/-- Another call of `received` may get to its loop. -/
def MayReceive (channel : HTTPChannel) : Prop :=
  (channel.main = .idle ∨ channel.main = .flushed ∧ channel.output.connected = true) ∧
    channel.isEnding = false

/-- The loop finds the channel attentive, and a request that waits for the line gets it. -/
def Advancing (channel : HTTPChannel) : Prop :=
  channel.MayReceive → channel.Attentive ∧
    (channel.waitsForContinue = true → channel.output.connected = true)

theorem Advancing.of_same {before after : HTTPChannel} (advancing : before.Advancing)
    (may : after.MayReceive → before.MayReceive) (request : after.request = before.request)
    (requests : after.requests = before.requests)
    (sent : after.output.sentContinue = before.output.sentContinue)
    (connected : after.MayReceive →
      before.output.connected = true → after.output.connected = true) : after.Advancing := by
  intro receives
  obtain ⟨⟨running, expecting, attended⟩, reachable⟩ := advancing (may receives)
  have waits : after.waitsForContinue = before.waitsForContinue := by
    rw [waitsForContinue, waitsForContinue, request, sent]
  exact ⟨⟨by rwa [request], by rwa [request], by rwa [waits, requests]⟩,
    fun waiting => connected receives (reachable (waits.symm.trans waiting))⟩

/-- A channel that goes on and is not to be closed is connected. -/
theorem connected_of_mayReceive {channel : HTTPChannel}
    (receives : { channel with main := settledMain channel.output }.MayReceive) :
    channel.output.connected = true := by
  obtain ⟨main, open_⟩ := receives
  have goesOn : channel.output.willClose = false := (Bool.or_eq_false_iff.mp open_).1
  rcases main with idle | ⟨-, connected⟩
  · by_contra gone
    have closed : settledMain channel.output = .gone :=
      if_pos ⟨by simpa using gone, goesOn⟩
    exact MainPosition.noConfusion (closed.symm.trans idle)
  · exact connected

theorem Advancing.read [CPython] {channel : HTTPChannel} (advancing : channel.Advancing)
    (main : channel.main = .idle) (data : Bytes) : (handleRead context data channel).Advancing := by
  intro receives
  by_cases ending : channel.isEnding = true
  · rw [handleRead, received_ending context data ending] at receives
    exact Bool.noConfusion (receives.2.symm.trans ending)
  have attentive := (advancing ⟨.inl main, by simpa using ending⟩).1
  rw [handleRead, received, exec_get_bind, if_neg ending] at receives ⊢
  rcases ran : exec (receiveLoop context data.length data) channel with ⟨exc | ⟨⟩, after⟩
  · rw [ran] at receives
    rcases receives.1 with idle | ⟨flushed, -⟩
    · cases idle
    · cases flushed
  · rw [ran] at receives
    have still : after.Attentive := by
      by_cases nonempty : data = []
      · subst nonempty
        obtain rfl := (Prod.mk.inj ran).2
        exact attentive
      · exact receiveLoop_attentive context _ attentive nonempty ran
    obtain ⟨running, expecting, attended⟩ := still
    exact ⟨⟨running, expecting, attended⟩, fun _ => connected_of_mayReceive receives⟩

theorem isEnding_of_keepsFlags {before after : HTTPChannel}
    (flags : Output.KeepsFlags before.output after.output) (open_ : after.isEnding = false) :
    before.isEnding = false := by
  by_contra ending
  rw [Bool.not_eq_false, isEnding, Bool.or_eq_true] at ending
  have closes : after.isEnding = true :=
    Bool.or_eq_true_iff.mpr (ending.imp flags.willClose flags.closeWhenFlushed.trans)
  exact Bool.noConfusion (open_.symm.trans closes)

theorem Advancing.of_output {before after : HTTPChannel} (advancing : before.Advancing)
    (flags : Output.KeepsFlags before.output after.output)
    (connected : before.output.connected = after.output.connected)
    (main : after.main = before.main) (request : after.request = before.request)
    (requests : after.requests = before.requests) : after.Advancing := by
  refine advancing.of_same ?_ request requests flags.sentContinue fun _ => connected.symm.trans
  rintro ⟨receives, open_⟩
  rw [main, ← connected] at receives
  exact ⟨receives, isEnding_of_keepsFlags flags open_⟩

theorem Advancing.prepares {channel after : HTTPChannel} (advancing : channel.Advancing) {i : Nat}
    {request : Numbered} (prepares : Prepares i request channel after) : after.Advancing := by
  obtain ⟨-, relieves, -, -⟩ := prepares
  exact advancing.of_output relieves.toKeepsFlags relieves.stays.symm rfl rfl rfl

/-- Whatever is queued then, the line is not waited for any more. -/
theorem Advancing.sendContinue {channel : HTTPChannel} (advancing : channel.Advancing)
    {request : Numbered} (current : channel.request = some request) (requests : List Numbered) :
    (exec (HTTPChannel.sendContinue context) { channel with requests }).2.Advancing := by
  obtain ⟨result, output, completed, sent, reset, done⟩ :=
    @exec_sendContinue context { channel with requests } request current
  rw [done]
  rintro ⟨receives, open_⟩
  have before : channel.MayReceive := by
    rcases sent with rfl | sent
    · exact ⟨receives, open_⟩
    · refine ⟨receives.imp_right (And.imp_right sent.connected), ?_⟩
      change (output.willClose || output.closeWhenFlushed) = false at open_
      rwa [sent.willClose, sent.closeWhenFlushed] at open_
  obtain ⟨⟨running, expecting, -⟩, -⟩ := advancing before
  refine ⟨⟨?_, ?_, fun waits => Bool.noConfusion waits⟩, fun waits => Bool.noConfusion waits⟩
  · rintro _ ⟨rfl⟩
    rcases reset with same | reset
    · exact same.trans (running request current)
    · exact reset
  · rintro _ ⟨rfl⟩
    exact (expecting request current).of_same rfl rfl

theorem Advancing.resume {channel : HTTPChannel} (advancing : channel.Advancing) (i : Nat) :
    (resume context i channel).Advancing := by
  unfold HTTPChannel.resume
  split
  · exact advancing.of_output (refl _) rfl rfl rfl rfl
  rename_i first requests queue
  dsimp only
  split
  · rename_i queued
    intro receives
    obtain ⟨⟨running, expecting, -⟩, reachable⟩ := advancing receives
    exact ⟨⟨running, expecting, fun _ => queued.2⟩, reachable⟩
  split
  · rename_i waiting
    obtain ⟨request, current, -⟩ := (Option.any_eq_true _ _).mp waiting.2
    have sent := advancing.sendContinue context current requests
    generalize exec (HTTPChannel.sendContinue context) { channel with requests } = outcome at sent ⊢
    obtain ⟨exc | ⟨⟩, after⟩ := outcome
    · exact sent.of_output (refl _) rfl rfl rfl rfl
    · exact sent.of_output (refl _) rfl rfl rfl rfl
  · rename_i notQueued notWaiting
    intro receives
    obtain ⟨⟨running, expecting, -⟩, reachable⟩ := advancing receives
    refine ⟨⟨running, expecting, fun waits => ?_⟩, reachable⟩
    exact absurd ⟨reachable waits, waits⟩ notWaiting

theorem Advancing.next [CPython] {action : Action} {channel after : HTTPChannel}
    (advancing : channel.Advancing)
    (taken : HTTPChannel.next context action channel = some after) : after.Advancing := by
  have mainOnly : ∀ {other : HTTPChannel}, ¬ other.MayReceive → other.Advancing :=
    fun never receives => absurd receives never
  have ends : ∀ {other : HTTPChannel}, other.isEnding = true → other.Advancing :=
    fun ending receives => Bool.noConfusion (receives.2.symm.trans ending)
  have same : ∀ {other : HTTPChannel}, other.main = channel.main → other.output = channel.output →
      other.request = channel.request → other.requests = channel.requests → other.Advancing := by
    intro other main output request requests
    refine advancing.of_output ?_ (by rw [output]) main request requests
    rw [output]
    exact refl _
  cases next_steps context taken with
  | read main => exact advancing.read context main _
  | readNothing main => exact mainOnly (by rintro ⟨idle | ⟨flushed, -⟩, -⟩ <;> contradiction)
  | readFails main => exact mainOnly (by rintro ⟨idle | ⟨flushed, -⟩, -⟩ <;> contradiction)
  | flush main =>
      rename_i lockable
      have flags := (Output.flushWrite_keepsFlags context channel.requests.isEmpty lockable
        channel.output.answering).of_answering
      unfold flushBeforeClose
      dsimp only
      split
      · exact mainOnly (by rintro ⟨idle | ⟨flushed, -⟩, -⟩ <;> contradiction)
      · refine advancing.of_same (fun receives => ?_) rfl rfl flags.sentContinue fun receives _ => ?_
        · exact ⟨.inl main, isEnding_of_keepsFlags flags receives.2⟩
        · rcases receives.1 with idle | ⟨-, connected⟩
          · contradiction
          · exact connected
  | handOver main => exact ends rfl
  | close main =>
      unfold closeIfWillClose
      split
      · exact mainOnly (by rintro ⟨idle | ⟨flushed, -⟩, -⟩ <;> contradiction)
      · refine advancing.of_same (fun receives => ?_) rfl rfl rfl fun _ => id
        exact ⟨.inr ⟨main, connected_of_mayReceive receives⟩, receives.2⟩
  | closeFailing main => exact mainOnly (by rintro ⟨idle | ⟨flushed, -⟩, -⟩ <;> contradiction)
  | maintain main =>
      unfold maintain
      split
      · exact ends rfl
      · exact advancing
  | cancel queued => exact ends rfl
  | startTask found =>
      unfold HTTPChannel.startTask
      split
      · exact same rfl rfl rfl rfl
      · exact same rfl rfl rfl rfl
  | write found =>
      exact advancing.of_output
        (Output.writeSoonOutput_keepsFlags context _ channel.output.answering).of_answering
        (Output.writeSoonOutput_connected context _ channel.output.answering) rfl rfl rfl
  | endTask found =>
      unfold HTTPChannel.endTask
      split
      · exact same rfl rfl rfl rfl
      · exact same rfl rfl rfl rfl
      · exact same rfl rfl rfl rfl
  | settle found => exact ends (Bool.or_true _)
  | drain found => exact advancing.prepares (drain_prepares context _ _ channel)
  | flushBelow found => exact advancing.prepares (flushBelow_prepares context _ _ channel)
  | wake found => exact advancing.prepares (wake_prepares context _ channel)
  | resume found => exact advancing.resume context _
  | _ => exact same rfl rfl rfl rfl

theorem run_advancing [CPython] {socket : List SendResult} {actions : List Action}
    {channel : HTTPChannel}
    (ran : Transition.run (HTTPChannel.next context) actions (HTTPChannel.new context socket) =
      some channel) : channel.Advancing := by
  have start : (HTTPChannel.new context socket).Advancing := by
    refine fun _ => ⟨⟨?_, ?_, fun waits => Bool.noConfusion waits⟩,
      fun waits => Bool.noConfusion waits⟩
    · rintro _ ⟨⟩
    · rintro _ ⟨⟩
  apply Transition.run_invariant ?_ start ran
  exact fun _ _ _ advancing taken => advancing.next context taken

structure LoopAdvances [CPython] (channel : HTTPChannel) (data : Bytes) : Prop where
  /-- What the parser returns is at least one and at most what is left. -/
  consumes : ∀ pieces before rest n, Rounds context channel data pieces before rest →
    (exec (receiveRequest context rest) before).1 = .ok n → 1 ≤ n ∧ n ≤ rest.length
  inOrder : ∀ pieces before rest, Rounds context channel data pieces before rest →
    pieces.flatten ++ rest = data
  bounded : ∀ pieces before rest, Rounds context channel data pieces before rest →
    pieces.length < data.length
  ends : ∀ fuel, data.length ≤ fuel →
    exec (receiveLoop context fuel data) channel = exec (received context data) channel

/-- Whatever the channel has been through, the loop goes through the data. -/
theorem run_loopAdvances [CPython] {socket : List SendResult} {actions : List Action}
    {channel : HTTPChannel}
    (ran : Transition.run (HTTPChannel.next context) actions (HTTPChannel.new context socket) =
      some channel)
    (main : channel.main = .idle) (open_ : channel.isEnding = false) {data : Bytes}
    (nonempty : data ≠ []) : LoopAdvances context channel data := by
  have attentive := (run_advancing context ran ⟨.inl main, open_⟩).1
  refine ⟨?_, ?_, ?_, ?_⟩
  · intro pieces before rest n rounds returned
    obtain ⟨still, left, -, -⟩ := rounds.remaining context attentive nonempty
    rcases received : exec (receiveRequest context rest) before with ⟨result, middle⟩
    rw [received] at returned
    subst returned
    exact (exec_receiveRequest context still left received).1
  · intro pieces before rest rounds
    exact (rounds.remaining context attentive nonempty).order
  · intro pieces before rest rounds
    have remaining := rounds.remaining context attentive nonempty
    have left := List.length_pos_iff.mpr remaining.nonempty
    have count := remaining.count
    omega
  · intro fuel enough
    rw [received, exec_get_bind, if_neg (by simp [open_])]
    exact receiveLoop_fuel context attentive nonempty enough (Nat.le_refl _)

/-- A body behind a head that has got its line, with the next request behind it. -/
theorem run_loopAdvances_sample :
    let _ : CPython := .unchecked
    ∃ channel,
      Transition.run (HTTPChannel.next {})
          [.read (ascii "POST / HTTP/1.1\r\nExpect: 100-continue\r\nContent-Length: 2\r\n\r\n")]
          (HTTPChannel.new {} []) = some channel ∧
        LoopAdvances {} channel (ascii "okGET / HTTP/1.1\r\n\r\n") := by
  intro cpython
  obtain ⟨channel, ran, main, open_⟩ : ∃ channel,
      Transition.run (HTTPChannel.next {})
          [.read (ascii "POST / HTTP/1.1\r\nExpect: 100-continue\r\nContent-Length: 2\r\n\r\n")]
          (HTTPChannel.new {} []) = some channel ∧
        channel.main = .idle ∧ channel.isEnding = false :=
    ⟨_, rfl, by decide +kernel, by decide +kernel⟩
  exact ⟨channel, ran, run_loopAdvances {} ran main open_ (by decide)⟩

end HTTPChannel

end Waitress
