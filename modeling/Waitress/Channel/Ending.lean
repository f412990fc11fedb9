import Waitress.Channel.Stages
import Waitress.Parser.Head
import Waitress.Task.Closing

/-!
# The end of a connection

Once a call of `service` has decided to close, no task of the channel is made
any more, whatever the main thread still receives.
-/

namespace Waitress

open Raising

namespace HTTPChannel

/-- No call of `service` goes on with the queue. -/
inductive Winding (channel : HTTPChannel) : Prop where
  | closing (request : Numbered) : channel.requests ≠ [] → channel.pendingTasks = 0 →
      channel.running = [.closing request] → Winding channel
  | ended : channel.requests = [] → channel.pendingTasks = 0 → channel.running = [] →
      channel.Ending → Winding channel

/-- An exception has left the last call of `service`. -/
structure Abandoned (channel : HTTPChannel) : Prop where
  requests : channel.requests ≠ []
  pendingTasks : channel.pendingTasks = 0
  running : channel.running = []

inductive Idles (before after : HTTPChannel) : Prop where
  | keeps : KeepsQueue before after → Idles before after
  | receives : ¬ before.Ending → Receives before after → Idles before after
  | settles : before.running ≠ [] → after = before.settle 0 → Idles before after

theorem Idles.given {before after : HTTPChannel} (idles : Idles before after) :
    after.given = before.given := by
  cases idles with
  | keeps keeps => exact keeps.given
  | receives _ receives => exact receives.given
  | settles _ settled => rw [settled]; rfl

/-- Requests that arrive behind others do not make a task. -/
theorem Receives.queued {before after : HTTPChannel} (receives : Receives before after)
    (nonempty : before.requests ≠ []) :
    after.requests ≠ [] ∧ after.pendingTasks = before.pendingTasks := by
  obtain ⟨more, requests, -, tasks⟩ := receives.arrived
  constructor
  · rw [requests]
    exact List.append_ne_nil_of_left_ne_nil nonempty _
  · rw [tasks, if_neg (fun arrived => nonempty arrived.1), Nat.add_zero]

variable (context : ChannelContext)

theorem next_idles [CPython] {action : Action} {before after : HTTPChannel}
    (pending : before.pendingTasks = 0)
    (calls : ∀ position ∈ before.running, ∃ request, position = .closing request)
    (alone : before.running.length ≤ 1) (taken : next context action before = some after) :
    Idles before after := by
  have closes : ∀ {i : Nat} {position : ServicePosition}, before.running[i]? = some position →
      ∃ request, position = .closing request :=
    fun found => calls _ (List.mem_of_getElem? found)
  cases next_steps context taken with
  | read main =>
      rcases handleRead_receives context _ main with same | ⟨notEnding, receives⟩
      · rw [same]
        exact .keeps (keepsQueue_main _ (by simp [main]))
      · exact .receives notEnding receives
  | readNothing main => exact .keeps (keepsQueue_closed (by simp [main]))
  | readFails main => exact .keeps (keepsQueue_main _ (by simp [main]))
  | flush main => exact .keeps (flushBeforeClose_keepsQueue context _ main)
  | handOver main => exact .keeps (keepsQueue_willClose before .flushed)
  | close main => exact .keeps (closeIfWillClose_keepsQueue main)
  | closeFailing main => exact .keeps (keepsQueue_closed (by simp [main]))
  | maintain main => exact .keeps (maintain_keepsQueue before)
  | cancel queued => exact absurd pending (Nat.ne_of_gt queued)
  | pop queued => exact absurd pending (Nat.ne_of_gt queued)
  | startTask found => obtain ⟨_, contrary⟩ := closes found; cases contrary
  | testConnected found => obtain ⟨_, contrary⟩ := closes found; cases contrary
  | write found => obtain ⟨_, contrary⟩ := closes found; cases contrary
  | endTask found => obtain ⟨_, contrary⟩ := closes found; cases contrary
  | settle found =>
      have first : _ < before.running.length := (List.getElem?_eq_some_iff.mp found).1
      apply Idles.settles (List.ne_nil_of_length_pos (by omega))
      congr
      omega
  | drain found => obtain ⟨_, contrary⟩ := closes found; cases contrary
  | flushBelow found => obtain ⟨_, contrary⟩ := closes found; cases contrary
  | wake found => obtain ⟨_, contrary⟩ := closes found; cases contrary
  | resume found => obtain ⟨_, contrary⟩ := closes found; cases contrary
  | return_ left => exact .keeps ⟨rfl, rfl, rfl, rfl, rfl, id, id⟩

theorem Winding.next [CPython] {action : Action} {before after : HTTPChannel}
    (winding : before.Winding) (taken : HTTPChannel.next context action before = some after) :
    after.Winding ∧ after.given = before.given := by
  cases winding with
  | closing request nonempty pending call =>
      have idles := next_idles context pending (by simp [call]) (by simp [call]) taken
      refine ⟨?_, idles.given⟩
      cases idles with
      | keeps keeps =>
          exact .closing request (by rwa [keeps.requests]) (keeps.pendingTasks.trans pending)
            (keeps.running.trans call)
      | receives _ receives =>
          obtain ⟨still, tasks⟩ := receives.queued nonempty
          exact .closing request still (tasks.trans pending) (receives.running.trans call)
      | settles _ settled =>
          subst settled
          refine .ended rfl pending ?_ (.inl ?_)
          · change before.running.eraseIdx 0 = []
            rw [call]
            rfl
          · change (before.output.willClose || true) = true
            rw [Bool.or_true]
  | ended empty pending nobody ending =>
      have idles := next_idles context pending (by simp [nobody]) (by simp [nobody]) taken
      refine ⟨?_, idles.given⟩
      cases idles with
      | keeps keeps =>
          exact .ended (keeps.requests.trans empty) (keeps.pendingTasks.trans pending)
            (keeps.running.trans nobody) (keeps.ending ending)
      | receives notEnding _ => exact absurd ending notEnding
      | settles somebody _ => exact absurd nobody somebody

theorem Abandoned.next [CPython] {action : Action} {before after : HTTPChannel}
    (abandoned : before.Abandoned)
    (taken : HTTPChannel.next context action before = some after) :
    after.Abandoned ∧ after.given = before.given := by
  obtain ⟨nonempty, pending, nobody⟩ := abandoned
  have idles := next_idles context pending (by simp [nobody]) (by simp [nobody]) taken
  refine ⟨?_, idles.given⟩
  cases idles with
  | keeps keeps =>
      exact ⟨by rwa [keeps.requests], keeps.pendingTasks.trans pending,
        keeps.running.trans nobody⟩
  | receives _ receives =>
      obtain ⟨still, tasks⟩ := receives.queued nonempty
      exact ⟨still, tasks.trans pending, receives.running.trans nobody⟩
  | settles somebody _ => exact absurd nobody somebody

theorem Winding.run [CPython] {later : List Action} {before after : HTTPChannel}
    (winding : before.Winding)
    (ran : Transition.run (HTTPChannel.next context) later before = some after) :
    after.Winding ∧ after.given = before.given := by
  apply Transition.run_invariant ?_ ⟨winding, rfl⟩ ran
  rintro action middle last ⟨still, given⟩ taken
  obtain ⟨winds, same⟩ := still.next context taken
  exact ⟨winds, same.trans given⟩

theorem Abandoned.run [CPython] {later : List Action} {before after : HTTPChannel}
    (abandoned : before.Abandoned)
    (ran : Transition.run (HTTPChannel.next context) later before = some after) :
    after.Abandoned ∧ after.given = before.given := by
  apply Transition.run_invariant ?_ ⟨abandoned, rfl⟩ ran
  rintro action middle last ⟨still, given⟩ taken
  obtain ⟨stays, same⟩ := still.next context taken
  exact ⟨stays, same.trans given⟩

/-! ### Requests that end the connection -/

/-- The handlers for the request end with this step. -/
def Handles (channel : HTTPChannel) (request : Numbered) : Action → Prop
  | .testConnected i =>
      channel.running[i]? = some (.started request) ∧ channel.output.connected = false
  | .endTask i _ _ => channel.running[i]? = some (.working request)
  | _ => False

/-- They end with `close_on_finish`, or an exception leaves them. -/
def Closes (request : Numbered) : Action → Prop
  | .endTask _ application surroundings =>
      serveRequest { surroundings with adj := context.adj } application request.parser true ≠
        .ok false
  | _ => True

/-- An error or the connection header decide for every application. -/
theorem closes_of_request {request : Numbered}
    (decided : request.parser.error ≠ none ∨ request.parser.MustClose) (action : Action) :
    Closes context request action := by
  cases action with
  | endTask i application surroundings =>
      intro stays
      obtain ⟨-, fine, open_⟩ := serveRequest_open stays
      rcases decided with bad | must
      · exact bad fine
      · exact open_ must
  | _ => trivial

theorem Stage.handled [CPython] {action : Action} {before after : HTTPChannel}
    {request : Numbered} (stage : before.Stage) (handles : Handles before request action)
    (closes : Closes context request action)
    (taken : HTTPChannel.next context action before = some after) :
    after.given = before.given ∧ (after.running ≠ [] ∧ after.Winding ∨ after.Abandoned) := by
  have closing : ∀ {position : ServicePosition} {rest : List Numbered},
      before.running = [position] → before.pendingTasks = 0 → before.requests = request :: rest →
      (before.move 0 (.closing request)).Winding := by
    intro position rest call pending queue
    apply Winding.closing request
    · change before.requests ≠ []
      rw [queue]
      exact List.cons_ne_nil _ _
    · exact pending
    · change before.running.set 0 _ = _
      rw [call]
      rfl
  cases next_steps context taken with
  | testConnected found =>
      obtain ⟨same, disconnected⟩ := handles
      obtain rfl := ServicePosition.started.inj (Option.some.inj (found.symm.trans same))
      obtain ⟨rfl, call, pending, rest, queue, -⟩ := stage.at_request found rfl
      rw [disconnected]
      exact ⟨rfl, .inl ⟨by simp [move, call], closing call pending queue⟩⟩
  | endTask found =>
      rename_i i application surroundings other
      obtain rfl := ServicePosition.working.inj (Option.some.inj (found.symm.trans handles))
      obtain ⟨rfl, call, pending, rest, queue, -⟩ := stage.at_request found rfl
      rw [Closes] at closes
      unfold HTTPChannel.endTask
      split
      · exact ⟨rfl, .inl ⟨by simp [move, call], closing call pending queue⟩⟩
      · contradiction
      · refine ⟨rfl, .inr ⟨?_, pending, ?_⟩⟩
        · change before.requests ≠ []
          rw [queue]
          exact List.cons_ne_nil _ _
        · change before.running.eraseIdx 0 = []
          rw [call]
          rfl
  | _ => exact handles.elim

/-- Nothing is served behind the request, and if `service` returns, the decision to close
is taken. -/
def ClosedBehind [CPython] (request : Numbered) (before : HTTPChannel) : Prop :=
  ∀ action ended later after, Handles before request action →
    HTTPChannel.next context action before = some ended →
    Transition.run (HTTPChannel.next context) later ended = some after →
    after.given = before.given ∧
      (ended.running ≠ [] → after.running = [] → after.requests = [] ∧ after.Ending)

section Runs

variable [CPython] {socket : List SendResult} {actions : List Action} {before : HTTPChannel}
  (ran : Transition.run (next context) actions (HTTPChannel.new context socket) = some before)

include ran

/-- Nothing is served behind a request that ends the connection. -/
theorem run_nothingBehind {action : Action} {later : List Action} {request : Numbered}
    {ended after : HTTPChannel} (handles : Handles before request action)
    (decided : request.parser.error ≠ none ∨ Closes context request action)
    (taken : next context action before = some ended)
    (continued : Transition.run (next context) later ended = some after) :
    after.given = before.given := by
  have closes : Closes context request action := by
    rcases decided with bad | closes
    · exact closes_of_request context (.inl bad) action
    · exact closes
  obtain ⟨same, ⟨-, winding⟩ | abandoned⟩ :=
    (run_orderly context ran).stage.handled context handles closes taken
  · exact (winding.run context continued).2.trans same
  · exact (abandoned.run context continued).2.trans same

theorem run_closedBehind {request : Numbered} (must : request.parser.MustClose) :
    ClosedBehind context request before := by
  intro action ended later after handles taken continued
  have closes := closes_of_request context (.inr must) action
  obtain ⟨same, ⟨-, winding⟩ | abandoned⟩ :=
    (run_orderly context ran).stage.handled context handles closes taken
  · obtain ⟨winds, given⟩ := winding.run context continued
    refine ⟨given.trans same, fun _ nobody => ?_⟩
    cases winds with
    | closing other _ _ call => cases call.symm.trans nobody
    | ended empty _ _ ending => exact ⟨empty, ending⟩
  · refine ⟨(abandoned.run context continued).2.trans same, fun somebody => ?_⟩
    exact absurd abandoned.running somebody

end Runs

def serveFirstOf (stream : Bytes) : List Action :=
  [.read stream, .pop, .startTask 0, .testConnected 0]

def endFirst : Action :=
  .endTask 0 (Task.sampleApplication (ascii "abc")) Task.sampleContext

def serveSecond : List Action := [.drain 0, .resume 0, .pop, .startTask 0]

/-- The first request passes a test, and the steps behind its task can be taken; the
result are the requests that were given to tasks, before and after. -/
def checkServed [CPython] (stream : Bytes) (test : HTTPRequestParser → Bool)
    (later : List Action) : Option (List Nat × List Nat) :=
  (Transition.run (next {}) (serveFirstOf stream) (HTTPChannel.new {} [])).bind fun before =>
    match (before.running[0]? : Option ServicePosition) with
    | some (.working request) =>
        if test request.parser = true then
          (next {} endFirst before).bind fun ended =>
            (Transition.run (next {}) later ended).map fun after => (before.given, after.given)
        else none
    | _ => none

theorem exists_of_checkServed [CPython] (stream : Bytes) (test : HTTPRequestParser → Bool)
    (later : List Action) {given : List Nat × List Nat}
    (checked : checkServed stream test later = some given) :
    ∃ before request ended after,
      Transition.run (next {}) (serveFirstOf stream) (HTTPChannel.new {} []) = some before ∧
        Handles before request endFirst ∧ test request.parser = true ∧
        next {} endFirst before = some ended ∧
        Transition.run (next {}) later ended = some after ∧
        before.given = given.1 ∧ after.given = given.2 := by
  obtain ⟨before, ran, rest⟩ := Option.bind_eq_some_iff.mp checked
  split at rest
  · rename_i request found
    split at rest
    · rename_i passed
      obtain ⟨ended, taken, rest⟩ := Option.bind_eq_some_iff.mp rest
      obtain ⟨after, continued, rfl⟩ := Option.map_eq_some_iff.mp rest
      exact ⟨before, request, ended, after, ran, found, passed, taken, continued, rfl, rfl⟩
    · cases rest
  · cases rest

def badStream : Bytes :=
  ascii "GET / HTTP/1.1\r\nContent-Length: x\r\n\r\nGET / HTTP/1.1\r\n\r\n"

theorem run_nothingBehind_sample :
    let _ : CPython := .unchecked
    ∃ before ended after,
      Transition.run (next {}) (serveFirstOf badStream) (HTTPChannel.new {} []) = some before ∧
        next {} endFirst before = some ended ∧
        Transition.run (next {}) [.settle 0] ended = some after ∧ after.given = before.given := by
  intro cpython
  obtain ⟨before, request, ended, after, ran, handles, bad, taken, continued, -⟩ :=
    exists_of_checkServed badStream (fun parser => parser.error.isSome) [.settle 0]
      (show _ = some ([0], [0]) by decide +kernel)
  have error : request.parser.error ≠ none := Option.isSome_iff_ne_none.mp bad
  exact ⟨before, ended, after, ran, taken, continued,
    run_nothingBehind {} ran handles (.inl error) taken continued⟩

/-! ### What the parser has decided -/

def HonoursClose [CPython] (request : Numbered) (before : HTTPChannel) : Prop :=
  request.parser.error = none → request.parser.connectionClose = true →
    ClosedBehind context request before

/-- It is if the task comes to the same decision. -/
theorem run_honoursClose [CPython] {socket : List SendResult} {actions : List Action}
    {before : HTTPChannel}
    (ran : Transition.run (next context) actions (HTTPChannel.new context socket) = some before)
    {request : Numbered} (agrees : request.parser.connectionClose = true → request.parser.MustClose) :
    HonoursClose context request before :=
  fun _ closes => run_closedBehind context ran (agrees closes)

theorem run_honoursClose_sample :
    let _ : CPython := .unchecked
    ∃ before request,
      Transition.run (next {}) (serveFirstOf (ascii "GET / HTTP/1.1\r\nConnection: close\r\n\r\n"))
          (HTTPChannel.new {} []) = some before ∧
        request.parser.connectionClose = true ∧ HonoursClose {} request before := by
  intro cpython
  obtain ⟨before, request, ended, after, ran, -, passed, -⟩ :=
    exists_of_checkServed (ascii "GET / HTTP/1.1\r\nConnection: close\r\n\r\n")
      (fun parser => parser.connectionClose && decide parser.MustClose) [.settle 0]
      (show _ = some ([0], [0]) by decide +kernel)
  obtain ⟨closes, must⟩ := Bool.and_eq_true_iff.mp passed
  exact ⟨before, request, ran, closes, run_honoursClose {} ran fun _ => of_decide_eq_true must⟩

/-- A request with a coding and a length, whose connection stays open. -/
def ambiguousStream : Bytes :=
  ascii
    ("GET / HTTP/1.1\r\nTransfer-Encoding: chunked\r\nContent-Length: 3\r\n\r\n0\r\n\r\n" ++
      "GET / HTTP/1.1\r\n\r\n")

theorem not_honoursClose :
    let _ : CPython := .unchecked
    ¬ ∀ (context : ChannelContext) (socket : List SendResult) (actions : List Action)
        (before : HTTPChannel) (request : Numbered),
      Transition.run (next context) actions (HTTPChannel.new context socket) = some before →
        HonoursClose context request before := by
  intro cpython honours
  obtain ⟨before, request, ended, after, ran, handles, passed, taken, continued, one, two⟩ :=
    exists_of_checkServed ambiguousStream
      (fun parser => parser.connectionClose && parser.error.isNone) serveSecond
      (show _ = some ([0], [0, 1]) by decide +kernel)
  obtain ⟨closes, fine⟩ := Bool.and_eq_true_iff.mp passed
  have same := (honours {} [] _ before request ran (Option.isNone_iff_eq_none.mp fine) closes
    endFirst ended _ after handles taken continued).1
  rw [one, two] at same
  cases same

/-! ### Transfer codings -/

end HTTPChannel

namespace HTTPRequestParser

/-- The last head that the parser has accepted is this one.  Behind it a parser reads the body,
and the line `100 Continue` may be sent for it. -/
inductive HasRead [CPython] (adj : Adjustments) (head : RequestHead) : HTTPRequestParser → Prop where
  | accepted {parser : HTTPRequestParser} : parser.toRequestHead = head → HasRead adj head parser
  | received {parser : HTTPRequestParser} (data : Bytes) : HasRead adj head parser →
      parser.completed = true ∨ parser.bodyRcv ≠ none →
      HasRead adj head (parser.received adj data).1
  | expected {parser : HTTPRequestParser} : HasRead adj head parser →
      HasRead adj head { parser with expectContinue := false }
  | continued {parser : HTTPRequestParser} : HasRead adj head parser →
      HasRead adj head { parser with completed := false }

theorem receivedBody_same {adj : Adjustments} {parser : HTTPRequestParser} (rcv : Receiver)
    (data : Bytes) :
    (parser.receivedBody adj rcv data).1.version = parser.version ∧
      (parser.receivedBody adj rcv data).1.connection = parser.connection := by
  have other : "CONTENT_LENGTH".toList ≠ "CONNECTION".toList := by decide
  unfold receivedBody
  dsimp only
  repeat' split
  · exact ⟨rfl, rfl⟩
  · exact ⟨rfl, rfl⟩
  · refine ⟨rfl, ?_⟩
    rw [RequestHead.connection, Dict.getD, Dict.get?_set, if_neg other]
    rfl
  · exact ⟨rfl, rfl⟩
  · exact ⟨rfl, rfl⟩

section

variable [CPython] {adj : Adjustments} {head : RequestHead} {parser : HTTPRequestParser}

theorem HasRead.same (hasRead : parser.HasRead adj head) :
    parser.version = head.version ∧ parser.connection = head.connection := by
  induction hasRead with
  | accepted same =>
      rw [← same]
      exact ⟨rfl, rfl⟩
  | @received parser data _ behind inductionHypothesis =>
      rw [HTTPRequestParser.received]
      by_cases completed : parser.completed = true
      · rw [if_pos completed]
        exact inductionHypothesis
      rw [if_neg completed]
      cases inBody : parser.bodyRcv with
      | none => exact absurd inBody (behind.resolve_left completed)
      | some rcv =>
          obtain ⟨version, connection⟩ := @receivedBody_same adj parser rcv data
          exact ⟨version.trans inductionHypothesis.1, connection.trans inductionHypothesis.2⟩
  | expected _ inductionHypothesis => exact inductionHypothesis
  | continued _ inductionHypothesis => exact inductionHypothesis

theorem HasRead.version (hasRead : parser.HasRead adj head) : parser.version = head.version :=
  hasRead.same.1

theorem HasRead.connection (hasRead : parser.HasRead adj head) :
    parser.connection = head.connection := hasRead.same.2

end

end HTTPRequestParser

namespace HTTPChannel

/-- The fields of the head name a transfer coding; `start` is what the parser has read before. -/
def NamesCoding (start : RequestHead) (block : Bytes) : Prop :=
  ∃ line lines, exec (parseLines block) start = (.ok line, lines) ∧
    encodings (lines.headers.getD "TRANSFER_ENCODING".toList []) ≠ []

structure ReadInChunks (start : RequestHead) (block : Bytes) (head : RequestHead) : Prop where
  only : ∃ line lines, exec (parseLines block) start = (.ok line, lines) ∧
    encodings (lines.headers.getD "TRANSFER_ENCODING".toList []) = ["chunked".toList]
  receiver : ∃ rcv, head.bodyRcv = some (.chunked rcv)
  noLength : head.headers.get? "CONTENT_LENGTH".toList = none

theorem readInChunks_of_named [CPython] {adj : Adjustments} {start head : RequestHead}
    {block : Bytes} (notChunked : start.chunked = false)
    (parsed : exec (parseHeader adj block) start = (.ok ⟨⟩, head))
    (coded : NamesCoding start block) :
    ReadInChunks start block head ∨ head.version ≠ "1.1".toList := by
  obtain ⟨command, uri, version, lines, parts, read, -, framed⟩ :=
    parseHeader_ok notChunked parsed
  cases framed with
  | chunked _ chunked =>
      left
      refine ⟨⟨_, lines, read, chunked⟩, ⟨_, rfl⟩, ?_⟩
      change Dict.get? (Dict.erase _ _) _ = none
      rw [Dict.get?_erase, if_pos rfl]
  | current _ plain =>
      obtain ⟨line, other, readOther, named⟩ := coded
      obtain rfl := (Prod.mk.inj (read.symm.trans readOther)).2
      exact absurd plain named
  | other version => exact .inr version

/-- Other versions lead to a response of version 1.0. -/
theorem mustClose_of_version {request : HTTPRequestParser} (version : request.version ≠ "1.1".toList)
    (closes : Str.lower (request.headers.getD "CONNECTION".toList []) ≠ "keep-alive".toList) :
    request.MustClose := by
  have old : (Task.new request).version = "1.0".toList := by
    rw [Task.new]
    dsimp only
    split
    · rename_i supported
      rcases List.mem_pair.mp supported with old | current
      · exact old
      · exact absurd current version
    · rfl
  rw [HTTPRequestParser.MustClose, if_pos old]
  exact closes

/-- A transfer coding is decoded, or the connection is closed behind the request. -/
def HonoursCoding [CPython] (start : RequestHead) (block : Bytes) (head : RequestHead) : Prop :=
  ReadInChunks start block head ∨
    ∀ (context : ChannelContext) (socket : List SendResult) (actions : List Action)
      (before : HTTPChannel) (request : Numbered),
      Transition.run (next context) actions (HTTPChannel.new context socket) = some before →
      request.parser.HasRead context.adj head → ClosedBehind context request before

theorem run_honoursCoding [CPython] {adj : Adjustments} {start head : RequestHead} {block : Bytes}
    (notChunked : start.chunked = false)
    (parsed : exec (parseHeader adj block) start = (.ok ⟨⟩, head))
    (coded : NamesCoding start block)
    (closes : head.version = "1.1".toList ∨ Str.lower head.connection ≠ "keep-alive".toList) :
    HonoursCoding start block head := by
  rcases readInChunks_of_named notChunked parsed coded with chunks | version
  · exact .inl chunks
  · right
    intro context socket actions before request ran hasRead
    have old : request.parser.version ≠ "1.1".toList := by
      rw [hasRead.version]
      exact version
    have ends : Str.lower request.parser.connection ≠ "keep-alive".toList := by
      rw [hasRead.connection]
      exact closes.resolve_left version
    exact run_closedBehind context ran (mustClose_of_version old ends)

/-- A coding and a length in a version that does not know the coding, with the body and another
request. -/
def lengthHead : Bytes :=
  ascii "POST / HTTP/1.0\r\nTransfer-Encoding: chunked\r\nContent-Length: 3\r\n\r\n"

def lengthStream : Bytes := lengthHead ++ ascii "abcGET / HTTP/1.1\r\n\r\n"

/-- The body has been read when the request is served. -/
theorem run_honoursCoding_sample :
    let _ : CPython := .unchecked
    ∃ before request,
      Transition.run (next {}) (serveFirstOf lengthStream) (HTTPChannel.new {} []) = some before ∧
        before.running[0]? = some (.working request) ∧ request.parser.bodyBytesReceived = 3 ∧
        ClosedBehind {} request before := by
  intro cpython
  let head := (exec (parseHeader {} lengthHead) {}).2
  let fed := (({} : HTTPRequestParser).received {} lengthStream).1
  let body := ascii "abcGET / HTTP/1.1\r\n\r\n"
  obtain ⟨before, request, ended, after, ran, handles, passed, -⟩ :=
    exists_of_checkServed lengthStream
      (fun parser => parser = (fed.received {} body).1) [.settle 0]
      (show _ = some ([0], [0]) by decide +kernel)
  have parser : request.parser = (fed.received {} body).1 := of_decide_eq_true passed
  have parsed : (exec (parseHeader {} lengthHead) {}).1 = .ok ⟨⟩ := by decide +kernel
  have coded : NamesCoding {} lengthHead :=
    ⟨(ascii "POST", ascii "/", ascii "1.0"), (exec (parseLines lengthHead) {}).2,
      Prod.ext (by decide +kernel) rfl, by decide +kernel⟩
  have hasRead : request.parser.HasRead {} head := by
    rw [parser]
    exact .received body (.accepted (by decide +kernel)) (.inr (by decide +kernel))
  have honours : HonoursCoding {} lengthHead head :=
    run_honoursCoding rfl (Prod.ext parsed rfl) coded (.inr (by decide +kernel))
  refine ⟨before, request, ran, handles, by rw [parser]; decide +kernel, ?_⟩
  rcases honours with chunks | closes
  · obtain ⟨rcv, receiver⟩ := chunks.receiver
    have fixed : head.bodyRcv =
        some (.fixed { remain := 3, buf := { overflow := 524288 } }) := by decide +kernel
    cases receiver.symm.trans fixed
  · exact closes {} [] _ before request ran hasRead

/-- A coding in a version that does not know it, on a connection that is kept alive. -/
def codedHead : Bytes :=
  ascii "GET / HTTP/1.0\r\nConnection: keep-alive\r\nTransfer-Encoding: chunked\r\n\r\n"

theorem not_honoursCoding :
    let _ : CPython := .unchecked
    ¬ ∀ (adj : Adjustments) (block : Bytes) (head : RequestHead),
      exec (parseHeader adj block) {} = (.ok ⟨⟩, head) → NamesCoding {} block →
        HonoursCoding {} block head := by
  intro cpython honours
  have parsed : (exec (parseHeader {} codedHead) {}).1 = .ok ⟨⟩ := by decide +kernel
  have coded : NamesCoding {} codedHead :=
    ⟨(ascii "GET", ascii "/", ascii "1.0"), (exec (parseLines codedHead) {}).2,
      Prod.ext (by decide +kernel) rfl, by decide +kernel⟩
  obtain ⟨before, request, ended, after, ran, handles, passed, taken, continued, one, two⟩ :=
    exists_of_checkServed (codedHead ++ ascii "GET / HTTP/1.1\r\n\r\n")
      (fun parser => parser.toRequestHead = (exec (parseHeader {} codedHead) {}).2) serveSecond
      (show _ = some ([0], [0, 1]) by decide +kernel)
  rcases honours {} codedHead _ (Prod.ext parsed rfl) coded with chunks | closes
  · obtain ⟨rcv, receiver⟩ := chunks.receiver
    have none : (exec (parseHeader {} codedHead) {}).2.bodyRcv = none := by decide +kernel
    cases receiver.symm.trans none
  · have same := (closes {} [] _ before request ran (.accepted (of_decide_eq_true passed))
      endFirst ended _ after handles taken continued).1
    rw [one, two] at same
    cases same

end HTTPChannel

end Waitress
