import Waitress.Channel.Advancing
import Waitress.Parser.Messages

/-!
# Pipelined requests

However the bytes of several requests arrive, the channel splits them exactly
where one request ends and the next one begins.
-/

namespace Waitress

open Raising

/-! ### What is still to be read -/

namespace Reading

variable [CPython] {adj : Adjustments}

/-- Does the request, as far as it is known, wait for the line? -/
def expects : Reading → Bool
  | .body request _ _ => request.expectContinue
  | .ready request _ => request.expectContinue
  | _ => false

/-- The rest of a body does not change what the head has asked for. -/
theorem run_expects {request final : RequestHead} {state : Body} {count : Nat}
    {input rest content : Bytes}
    (ran : (reader adj).run (.body request state count) input = (.ready final content, rest)) :
    final.expectContinue = request.expectContinue := by
  induction input generalizing state count with
  | nil => cases ran
  | cons x input inductionHypothesis =>
      rw [(reader adj).run_cons rfl] at ran
      change (reader adj).run (inBody adj request (state.step x) (count + 1)) input = _ at ran
      unfold inBody at ran
      split at ran
      · rw [run_failed] at ran
        cases ran
      split at ran
      · rw [run_failed] at ran
        cases ran
      split at ran
      · rw [(reader adj).run_halted rfl] at ran
        cases ran
        rfl
      · exact inductionHypothesis ran

/-- The bytes `left` are what is missing of the message. -/
structure Awaits (adj : Adjustments) (state : Reading) (message : Message) (left : Bytes) :
    Prop where
  missing : left ≠ []
  leads : ∃ request, message.Understood request ∧ ∀ following,
    (reader adj).run state (left ++ following) =
      (.ready (completeHead request message.body) message.body, following)

theorem awaits_whole {message : Message} (wellFormed : message.WellFormed adj) :
    Awaits adj (.heading []) message message.serialised where
  missing := List.append_ne_nil_of_left_ne_nil
    (List.append_ne_nil_of_left_ne_nil
      (List.append_ne_nil_of_left_ne_nil wellFormed.method.1 _) _) _
  leads := wellFormed.run

theorem Awaits.running {state : Reading} {message : Message} {left : Bytes}
    (awaits : Awaits adj state message left) :
    state.isHalted = false ∧ state.isBroken = false ∧ state.expects = false := by
  obtain ⟨missing, request, understood, leads⟩ := awaits
  have whole := leads []
  rw [List.append_nil] at whole
  have running : state.isHalted = false := by
    by_contra halted
    rw [Bool.not_eq_false] at halted
    rw [(reader adj).run_halted halted] at whole
    exact missing (Prod.mk.inj whole).2
  have sound : state.isBroken = false := by
    by_contra broken
    rw [Bool.not_eq_false] at broken
    rw [(reader adj).run_broken broken] at whole
    obtain ⟨rfl, -⟩ := Prod.mk.inj whole
    cases broken
  refine ⟨running, sound, ?_⟩
  cases state with
  | body head state count =>
      have same := run_expects whole
      exact same.symm.trans understood.patient
  | ready => cases running
  | _ => rfl

theorem Awaits.read {state next : Reading} {message : Message} {left piece rest ahead : Bytes}
    (awaits : Awaits adj state message left) (cut : left ++ rest = piece ++ ahead)
    (ran : (reader adj).run state piece = (next, [])) :
    (∃ request, message.Understood request ∧ ahead = rest ∧
        next = .ready (completeHead request message.body) message.body) ∨
      ∃ later, Awaits adj next message later ∧ later ++ rest = ahead := by
  obtain ⟨missing, request, understood, leads⟩ := awaits
  rcases List.append_eq_append_iff.mp cut with ⟨more, rfl, rfl⟩ | ⟨later, rfl, rfl⟩
  · have whole := leads more
    rw [ran] at whole
    obtain ⟨rfl, rfl⟩ := Prod.mk.inj whole
    exact .inl ⟨request, understood, rfl, rfl⟩
  · by_cases last : later = []
    · subst last
      have whole := leads []
      rw [List.append_nil, List.append_nil, ran] at whole
      obtain ⟨rfl, -⟩ := Prod.mk.inj whole
      exact .inl ⟨request, understood, rfl, rfl⟩
    · refine .inr ⟨later, ⟨last, request, understood, fun following => ?_⟩, rfl⟩
      have whole := leads following
      rwa [List.append_assoc, (reader adj).run_append, ran] at whole

end Reading

namespace Feeding

variable [CPython] {adj : Adjustments} {parser : HTTPRequestParser} {state : Reading}
  {message : Message} {left rest data later : Bytes}

omit [CPython] in
theorem Follows.patient (follows : Follows ⟨parser, none⟩ state) (sound : state.isBroken = false)
    (silent : state.expects = false) : parser.expectContinue = false := by
  cases state with
  | heading text =>
      obtain ⟨-, same⟩ := follows
      cases same
      rfl
  | body request body count =>
      obtain ⟨-, -, _, _, _, _, -, same⟩ := follows
      cases same
      exact silent
  | blank =>
      obtain ⟨_, _, _, same⟩ := follows
      cases same
      rfl
  | ready request content =>
      obtain ⟨_, _, _, _, _, -, same⟩ := follows
      cases same
      exact silent
  | failed => cases sound
  | raised => cases sound

/-- A call that reads from a message ends it or reads a part of it. -/
theorem received_awaits (follows : Follows ⟨parser, none⟩ state)
    (awaits : Reading.Awaits adj state message left) (nonempty : data ≠ [])
    (cut : left ++ rest = data ++ later) :
    ∃ after n, parser.received adj data = (after, .ok n) ∧ (0 < n ∧ n ≤ data.length) ∧
      after.expectContinue = false ∧
        (message.ReceivedBy after ∧ data.drop n ++ later = rest ∨
          after.completed = false ∧ ∃ next missing, Follows ⟨after, none⟩ next ∧
            Reading.Awaits adj next message missing ∧ missing ++ rest = data.drop n ++ later) := by
  obtain ⟨unhalted, unbroken, -⟩ := awaits.running
  have running : (consumer adj).done ⟨parser, none⟩ = false := by
    by_contra done
    rw [Bool.not_eq_false] at done
    rcases (simulation adj).done_stops follows done with halted | broken
    · exact Bool.noConfusion (unhalted.symm.trans halted)
    · exact Bool.noConfusion (unbroken.symm.trans broken)
  obtain ⟨next, nextFollows, progress⟩ := (simulation adj).receive follows running nonempty
  rcases progress with ⟨positive, bounded, ran⟩ | ⟨broken, ran⟩
  case inr =>
    obtain ⟨-, request, -, leads⟩ := awaits
    have whole := leads rest
    rw [cut, (reader adj).run_append, ran, (reader adj).run_broken broken] at whole
    obtain ⟨rfl, -⟩ := Prod.mk.inj whole
    cases broken
  have step : left ++ rest = data.take ((consumer adj).receive ⟨parser, none⟩ data).2 ++
      (data.drop ((consumer adj).receive ⟨parser, none⟩ data).2 ++ later) := by
    rw [← List.append_assoc, List.take_append_drop, cut]
  have outcome := awaits.read step ran
  have sound : next.isBroken = false := by
    rcases outcome with ⟨_, -, -, rfl⟩ | ⟨_, awaitsNext, -⟩
    · rfl
    · exact awaitsNext.running.2.1
  rcases returned : parser.received adj data with ⟨after, exc | n⟩
  · have call : (consumer adj).receive ⟨parser, none⟩ data = (⟨after, some exc⟩, 0) := by
      change received adj ⟨parser, none⟩ data = _
      simp only [received, returned]
    rw [call] at nextFollows
    obtain rfl := nextFollows.raised_iff.mp rfl
    cases sound
  have call : (consumer adj).receive ⟨parser, none⟩ data = (⟨after, none⟩, n) := by
    change received adj ⟨parser, none⟩ data = _
    simp only [received, returned]
  rw [call] at nextFollows positive bounded outcome
  change Follows ⟨after, none⟩ next at nextFollows
  refine ⟨after, n, rfl, ⟨positive, bounded⟩, ?_⟩
  rcases outcome with ⟨request, understood, ended, rfl⟩ | ⟨missing, awaitsNext, same⟩
  · exact ⟨nextFollows.patient rfl understood.patient,
      .inl ⟨understood.receivedBy nextFollows, ended⟩⟩
  · obtain ⟨unhaltedNext, unbrokenNext, silent⟩ := awaitsNext.running
    refine ⟨nextFollows.patient unbrokenNext silent,
      .inr ⟨?_, next, missing, nextFollows, awaitsNext, same⟩⟩
    by_contra completed
    rw [Bool.not_eq_false] at completed
    have done : (consumer adj).done ⟨after, none⟩ = true :=
      Bool.or_eq_true_iff.mpr (.inl completed)
    rcases (simulation adj).done_stops nextFollows done with halted | broken
    · exact Bool.noConfusion (unhaltedNext.symm.trans halted)
    · exact Bool.noConfusion (unbrokenNext.symm.trans broken)

end Feeding

/-! ### The channel -/

namespace HTTPChannel

variable (context : ChannelContext)

/-- Where the channel is in the bytes of the messages that are still to come. -/
inductive InStream [CPython] (channel : HTTPChannel) : List Message → Bytes → Prop where
  | between {messages : List Message} :
      channel.request = none → InStream channel messages (messages.flatMap Message.serialised)
  | within {request : Numbered} {state : Reading} {message : Message} {messages : List Message}
      {left : Bytes} :
      channel.request = some request → Feeding.Follows ⟨request.parser, none⟩ state →
      Reading.Awaits context.adj state message left →
      InStream channel (message :: messages) (left ++ messages.flatMap Message.serialised)

/-- The requests of the first messages are queued, those of the others are to come. -/
structure Splits [CPython] (messages : List Message) (channel : HTTPChannel) (ahead : Bytes) :
    Prop where
  open_ : channel.isEnding = false
  wellFormed : ∀ message ∈ messages, message.WellFormed context.adj
  progress : ∃ done left, messages = done ++ left ∧
    List.Forall₂ (fun message request => message.ReceivedBy request.parser) done channel.requests ∧
      InStream context channel left ahead
  queued : channel.pendingTasks = if channel.requests = [] then 0 else 1

theorem InStream.awaits [CPython] {channel : HTTPChannel} {messages : List Message} {ahead : Bytes}
    (inStream : InStream context channel messages ahead) (nonempty : ahead ≠ [])
    (wellFormed : ∀ message ∈ messages, message.WellFormed context.adj) :
    ∃ state message others left, messages = message :: others ∧
      ahead = left ++ others.flatMap Message.serialised ∧
      Feeding.Follows ⟨(channel.request.getD { number := channel.nextNumber, parser := {} }).parser,
        none⟩ state ∧ Reading.Awaits context.adj state message left := by
  cases inStream with
  | @between messages none =>
      cases messages with
      | nil => exact absurd rfl nonempty
      | cons message others =>
          rw [none]
          exact ⟨.heading [], message, others, _, rfl, rfl, ⟨by decide, rfl⟩,
            Reading.awaits_whole (wellFormed message List.mem_cons_self)⟩
  | within current follows awaits =>
      rw [current]
      exact ⟨_, _, _, _, rfl, rfl, follows, awaits⟩

theorem exec_receiveRound [CPython] {channel : HTTPChannel} {data : Bytes} {request : Numbered}
    (current : channel.request.getD { number := channel.nextNumber, parser := {} } = request)
    {parser : HTTPRequestParser} {n : Nat}
    (returned : request.parser.received context.adj data = (parser, .ok n))
    (patient : parser.expectContinue = false) :
    ∃ middle, exec (receiveRound context data) channel = (.ok n, takeRequest middle) ∧
      middle.request = some { request with parser } ∧ middle.requests = channel.requests ∧
      middle.output = channel.output ∧ middle.pendingTasks = channel.pendingTasks := by
  refine ⟨{ channel with
    request := some { request with parser }
    nextNumber := if channel.request = none then channel.nextNumber + 1 else channel.nextNumber
    finished :=
      if parser.completed = true then channel.finished ++ [{ request with parser }]
      else channel.finished }, ?_, rfl, rfl, rfl, rfl⟩
  have called : exec (receiveRequest context data) channel = (.ok n,
      { channel with
        request := some { request with parser }
        nextNumber := if channel.request = none then channel.nextNumber + 1 else channel.nextNumber
        finished :=
          if parser.completed = true then channel.finished ++ [{ request with parser }]
          else channel.finished }) := by
    rw [receiveRequest, exec_get_bind]
    simp only [current, returned, exec_modify_bind, exec_ofExcept]
  rw [receiveRound, exec_bind, called]
  dsimp only
  rw [exec_bind, continueIfAlone, exec_get_bind, if_neg]
  · rw [exec_pure]
    rfl
  · rintro ⟨-, waits⟩
    simp [waitsForContinue, patient] at waits

theorem Splits.round [CPython] {messages : List Message} {channel : HTTPChannel}
    {data later : Bytes} (splits : Splits context messages channel (data ++ later))
    (nonempty : data ≠ []) :
    ∃ n after, exec (receiveRound context data) channel = (.ok n, after) ∧
      (0 < n ∧ n ≤ data.length) ∧ Splits context messages after (data.drop n ++ later) := by
  obtain ⟨open_, wellFormed, ⟨done, left, rfl, received, inStream⟩, queued⟩ := splits
  obtain ⟨state, message, others, missing, rfl, cut, follows, awaits⟩ :=
    inStream.awaits context (List.append_ne_nil_of_left_ne_nil nonempty _)
      fun message mem => wellFormed message (List.mem_append_right done mem)
  obtain ⟨parser, n, returned, bounds, patient, outcome⟩ :=
    Feeding.received_awaits follows awaits nonempty cut.symm
  obtain ⟨middle, round, current, requests, output, tasks⟩ :=
    exec_receiveRound context rfl returned patient
  refine ⟨n, _, round, bounds, ?_⟩
  rcases outcome with ⟨receivedBy, ended⟩ | ⟨running, next, later', followsNext, awaitsNext, same⟩
  · have taken : takeRequest middle =
        { middle with
          request := none
          output.sentContinue := false
          requests := middle.requests ++ [{
            channel.request.getD { number := channel.nextNumber, parser := {} } with parser }]
          appended := middle.appended ++
            [(channel.request.getD { number := channel.nextNumber, parser := {} }).number]
          pendingTasks :=
            if middle.requests = [] then middle.pendingTasks + 1 else middle.pendingTasks } := by
      simp only [takeRequest, current, receivedBy.completed, receivedBy.empty, Bool.true_eq_false,
        Bool.false_eq_true, if_false]
    rw [taken]
    refine ⟨?_, wellFormed, ⟨done ++ [message], others, by simp, ?_, ?_⟩, ?_⟩
    · change (middle.output.willClose || middle.output.closeWhenFlushed) = false
      rw [output]
      exact open_
    · rw [requests]
      exact List.rel_append received (.cons receivedBy .nil)
    · rw [ended]
      exact .between rfl
    · dsimp only
      rw [requests, tasks, queued, if_neg (List.append_ne_nil_of_right_ne_nil _ (List.cons_ne_nil _ _))]
      split
      · rfl
      · rfl
  · rw [takeRequest_of_running current running]
    refine ⟨?_, wellFormed, ⟨done, message :: others, rfl, ?_, ?_⟩, ?_⟩
    · change (middle.output.willClose || middle.output.closeWhenFlushed) = false
      rw [output]
      exact open_
    · rwa [requests]
    · rw [← same]
      exact .within current followsNext awaitsNext
    · rw [requests, tasks, queued]

theorem Splits.loop [CPython] {messages : List Message} (fuel : Nat) {channel : HTTPChannel}
    {data later : Bytes} (splits : Splits context messages channel (data ++ later))
    (nonempty : data ≠ []) (enough : data.length ≤ fuel) :
    ∃ after, exec (receiveLoop context fuel data) channel = (.ok (), after) ∧
      Splits context messages after later := by
  induction fuel generalizing channel data with
  | zero => exact absurd (List.length_eq_zero_iff.mp (Nat.le_zero.mp enough)) nonempty
  | succ fuel inductionHypothesis =>
      obtain ⟨n, middle, round, ⟨positive, bound⟩, splitsNext⟩ := splits.round context nonempty
      rw [receiveLoop, exec_bind, round]
      dsimp only
      by_cases last : n ≥ data.length
      · rw [if_pos last]
        rw [List.drop_of_length_le last] at splitsNext
        exact ⟨middle, rfl, splitsNext⟩
      · have length : (data.drop n).length = data.length - n := List.length_drop
        rw [if_neg last]
        exact inductionHypothesis splitsNext (List.ne_nil_of_length_pos (by omega)) (by omega)

theorem Splits.received [CPython] {messages : List Message} {channel : HTTPChannel}
    {data later : Bytes} (splits : Splits context messages channel (data ++ later)) :
    ∃ after, exec (HTTPChannel.received context data) channel = (.ok (), after) ∧
      Splits context messages after later := by
  rw [HTTPChannel.received, exec_get_bind, if_neg (by simp [splits.open_])]
  by_cases empty : data = []
  · subst empty
    exact ⟨channel, rfl, splits⟩
  · exact splits.loop context data.length empty (Nat.le_refl _)

theorem Splits.segments [CPython] {messages : List Message} {segments : List Bytes}
    {channel : HTTPChannel} {later : Bytes}
    (splits : Splits context messages channel (segments.flatten ++ later)) :
    ∃ after, exec (forM segments (HTTPChannel.received context)) channel = (.ok ⟨⟩, after) ∧
      Splits context messages after later := by
  induction segments generalizing channel with
  | nil => exact ⟨channel, rfl, splits⟩
  | cons segment segments inductionHypothesis =>
      rw [List.flatten_cons, List.append_assoc] at splits
      obtain ⟨middle, received, splitsNext⟩ := splits.received context
      obtain ⟨after, rest, splitsLast⟩ := inductionHypothesis splitsNext
      refine ⟨after, ?_, splitsLast⟩
      rw [List.forM_cons, exec_bind, received]
      exact rest

/-- Nothing is left over: all of the messages have become requests. -/
theorem Splits.ended [CPython] {messages : List Message} {channel : HTTPChannel}
    (splits : Splits context messages channel []) :
    channel.request = none ∧
      List.Forall₂ (fun message request => message.ReceivedBy request.parser) messages
        channel.requests := by
  obtain ⟨-, wellFormed, ⟨done, left, rfl, received, inStream⟩, -⟩ := splits
  generalize stream : ([] : Bytes) = ahead at inStream
  cases inStream with
  | between none =>
      cases left with
      | nil =>
          rw [List.append_nil]
          exact ⟨none, received⟩
      | cons message others =>
          have whole := (Reading.awaits_whole (wellFormed message (by simp))).missing
          rw [List.flatMap_cons] at stream
          exact absurd (List.append_eq_nil_iff.mp stream.symm).1 whole
  | within current follows awaits =>
      exact absurd (List.append_eq_nil_iff.mp stream.symm).1 awaits.missing

/-- **Pipelined requests are split exactly where one ends and the next one begins**, however their
bytes are cut into segments; the channel is queued for service once. -/
theorem received_pipelined [CPython] {messages : List Message}
    (wellFormed : ∀ message ∈ messages, message.WellFormed context.adj) {segments : List Bytes}
    (cut : segments.flatten = messages.flatMap Message.serialised) (socket : List SendResult) :
    ∃ channel, exec (forM segments (HTTPChannel.received context)) (HTTPChannel.new context socket) =
        (.ok ⟨⟩, channel) ∧
      channel.request = none ∧
        List.Forall₂ (fun message request => message.ReceivedBy request.parser) messages
          channel.requests ∧
        channel.pendingTasks = if messages = [] then 0 else 1 := by
  have start : Splits context messages (HTTPChannel.new context socket)
      (segments.flatten ++ []) := by
    rw [List.append_nil, cut]
    exact ⟨rfl, wellFormed, ⟨[], messages, rfl, .nil, .between rfl⟩, rfl⟩
  obtain ⟨channel, received, splits⟩ := start.segments context
  obtain ⟨none, requests⟩ := splits.ended context
  refine ⟨channel, received, none, requests, ?_⟩
  have same : channel.requests = [] ↔ messages = [] := by
    rw [← List.length_eq_zero_iff, ← List.length_eq_zero_iff, requests.length_eq]
  rw [splits.queued]
  exact if_congr same rfl rfl

def sampleGet : Message where
  method := ascii "GET"
  target := ascii "/a?b"
  version := ascii "1.0"
  fields := [ascii "Host: h"]
  wire := []
  body := []

def samplePost : Message where
  method := ascii "POST"
  target := ascii "/"
  version := ascii "1.1"
  fields := [ascii "Transfer-Encoding: chunked"]
  wire := ascii "2\r\nok\r\n0\r\n\r\n"
  body := ascii "ok"

theorem sampleGet_wellFormed : @Message.WellFormed .unchecked {} sampleGet := by
  refine @Message.WellFormed.mk .unchecked {} sampleGet (by decide +kernel)
    (upper_eq_self_iff.mp (by decide +kernel)) (by decide +kernel) (by decide +kernel) ?target
    (by decide +kernel) ?fields (by decide +kernel) (by decide +kernel) (by decide +kernel) ?framed
    (by decide +kernel) (by decide +kernel)
  case target => exact ⟨⟨[], [], ascii "/a", ascii "b", []⟩, rfl⟩
  case fields =>
    have field : IsField (ascii "Host: h") :=
      ⟨ascii "Host", ascii " h", by decide +kernel, by decide, by decide +kernel,
        by decide +kernel⟩
    exact List.forall_mem_singleton.mpr ⟨field, by decide +kernel⟩
  case framed => exact .absent (by decide +kernel) (by decide +kernel) rfl rfl

theorem samplePost_wellFormed : @Message.WellFormed .unchecked {} samplePost := by
  refine @Message.WellFormed.mk .unchecked {} samplePost (by decide +kernel)
    (upper_eq_self_iff.mp (by decide +kernel)) (by decide +kernel) (by decide +kernel) ?target
    (by decide +kernel) ?fields (by decide +kernel) (by decide +kernel) (by decide +kernel) ?framed
    (by decide +kernel) (by decide +kernel)
  case target => exact ⟨⟨[], [], ascii "/", [], []⟩, rfl⟩
  case fields =>
    have field : IsField (ascii "Transfer-Encoding: chunked") :=
      ⟨ascii "Transfer-Encoding", ascii " chunked", by decide +kernel, by decide,
        by decide +kernel, by decide +kernel⟩
    exact List.forall_mem_singleton.mpr ⟨field, by decide +kernel⟩
  case framed =>
    have size : ∀ digits : Bytes, IsChunkSize digits → SizeLine digits (hexNumber digits) :=
      fun digits isSize => ⟨digits, [], isSize, isChunkExt_nil, by simp, rfl⟩
    have last : ChunkedMessage SizeLine [ascii "0"] (ascii "0" ++ crlf ++ crlf) [] :=
      .last (size _ (by decide)) (.inl rfl)
    have chunks : ChunkedMessage SizeLine [ascii "2", ascii "0"]
        (ascii "2" ++ crlf ++ (ascii "ok" ++ crlf ++ (ascii "0" ++ crlf ++ crlf)))
        (ascii "ok" ++ []) := .chunk (size (ascii "2") (by decide)) (by decide) last
    have wire : ascii "2" ++ crlf ++ (ascii "ok" ++ crlf ++ (ascii "0" ++ crlf ++ crlf)) =
        samplePost.wire := by decide
    rw [wire] at chunks
    have coding : samplePost.named "transfer-encoding" = [ascii "Transfer-Encoding: chunked"] := by
      decide +kernel
    exact .chunked rfl (by decide +kernel) coding (by decide +kernel) chunks

/-- A request without a body and a chunked one behind it, cut in the middle of a line end. -/
theorem received_pipelined_sample :
    let _ : CPython := .unchecked
    ∃ channel, exec (forM [ascii "GET /a?b HTTP/1.0\r\nHost: h\r\n\r",
          ascii "\nPOST / HTTP/1.1\r\nTransfer-Encoding: chunked\r\n\r\n2\r\nok\r",
          ascii "\n0\r\n\r\n"] (HTTPChannel.received {})) (HTTPChannel.new {} []) =
        (.ok ⟨⟩, channel) ∧
      channel.request = none ∧
        List.Forall₂ (fun message request => message.ReceivedBy request.parser)
          [sampleGet, samplePost] channel.requests ∧
        channel.pendingTasks = if [sampleGet, samplePost] = [] then 0 else 1 := by
  intro cpython
  have wellFormed : ∀ message ∈ [sampleGet, samplePost], message.WellFormed ({} : Adjustments) :=
    List.forall_mem_cons.mpr ⟨sampleGet_wellFormed,
      List.forall_mem_singleton.mpr samplePost_wellFormed⟩
  exact received_pipelined {} wellFormed (by decide +kernel) []

end HTTPChannel

end Waitress
