import Waitress.Parser.Head

/-!
# Parsers that data was received by

What every parser of a channel has in common: its errors are of the classes of the
program, and a request without one has a path.
-/

namespace Waitress

open Raising

namespace Error

def classes : List (Nat × Str) :=
  [(400, "Bad Request".toList), (431, "Request Header Fields Too Large".toList),
    (413, "Request Entity Too Large".toList), (500, "Internal Server Error".toList),
    (501, "Not Implemented".toList)]

def HasClass (error : Error) : Prop := (error.code, error.reason) ∈ classes

instance (error : Error) : Decidable error.HasClass :=
  inferInstanceAs (Decidable ((error.code, error.reason) ∈ classes))

theorem hasClass_badRequest (body : Str) : (badRequest body).HasClass := .head _

theorem hasClass_requestHeaderFieldsTooLarge (body : Str) :
    (requestHeaderFieldsTooLarge body).HasClass := .tail _ (.head _)

theorem hasClass_requestEntityTooLarge (body : Str) : (requestEntityTooLarge body).HasClass :=
  .tail _ (.tail _ (.head _))

theorem hasClass_serverNotImplemented (body : Str) : (serverNotImplemented body).HasClass :=
  .tail _ (.tail _ (.tail _ (.tail _ (.head _))))

end Error

/-! ### Receivers -/

namespace ChunkedReceiver

variable {allowed : Error → Prop}

theorem chunkSize_error {line : Bytes} {error : Error} (rejected : chunkSize line = .error error) :
    ∃ body, error = .badRequest body := by
  unfold chunkSize at rejected
  dsimp only at rejected
  split at rejected
  · exact ⟨_, (Except.error.inj rejected).symm⟩
  · split at rejected
    · exact ⟨_, (Except.error.inj rejected).symm⟩
    · cases rejected

theorem receivedLoop_errors (badRequest : ∀ body, allowed (.badRequest body))
    {rcv : ChunkedReceiver} (accounted : ∀ error, rcv.error = some error → allowed error)
    (origSize : Nat) (s : Bytes) :
    ∀ error, (receivedLoop rcv origSize s).1.error = some error → allowed error := by
  fun_induction ChunkedReceiver.receivedLoop rcv origSize s
  case case5 inductionHypothesis =>
    apply inductionHypothesis
    intro error given
    rw [← Option.some.inj given]
    exact badRequest _
  case case8 rejected =>
    intro other given
    obtain ⟨body, same⟩ := chunkSize_error rejected
    rw [← Option.some.inj given, same]
    exact badRequest body
  all_goals first
    | exact accounted
    | rename_i inductionHypothesis
      exact inductionHypothesis accounted

theorem received_errors (badRequest : ∀ body, allowed (.badRequest body)) {rcv : ChunkedReceiver}
    (accounted : ∀ error, rcv.error = some error → allowed error) (s : Bytes) :
    ∀ error, (rcv.received s).1.error = some error → allowed error := by
  unfold ChunkedReceiver.received
  split
  · exact accounted
  · exact receivedLoop_errors badRequest accounted _ _

/-- An error that a receiver has found is of one of the classes. -/
def Accounted (rcv : ChunkedReceiver) : Prop := ∀ error, rcv.error = some error → error.HasClass

theorem Accounted.received {rcv : ChunkedReceiver} (accounted : rcv.Accounted) (s : Bytes) :
    (rcv.received s).1.Accounted :=
  received_errors Error.hasClass_badRequest accounted s

end ChunkedReceiver

namespace Receiver

def Accounted (rcv : Receiver) : Prop := ∀ error, rcv.error = some error → error.HasClass

theorem Accounted.received {rcv : Receiver} (accounted : rcv.Accounted) (data : Bytes) :
    (rcv.received data).1.Accounted := by
  cases rcv with
  | fixed rcv => exact accounted
  | chunked rcv => exact ChunkedReceiver.Accounted.received accounted data

end Receiver

/-! ### Heads -/

section Head

variable {wanted : Receiver → Prop}

/-- Every receiver that the head has made is a wanted one. -/
def RequestHead.Makes (wanted : Receiver → Prop) (head : RequestHead) : Prop :=
  ∀ rcv, head.bodyRcv = some rcv → wanted rcv

theorem parseLines_keepsMakes (block : Bytes) :
    Within (Keeps (RequestHead.Makes wanted)) (parseLines block) := by
  intro head makes rcv given
  have same := parseLines_frame block head
  exact makes rcv ((congrArg RequestHead.bodyRcv same : _).trans given)

theorem parseTarget_keepsMakes [CPython] (adj : Adjustments) (command uri version : Bytes) :
    Within (Keeps (RequestHead.Makes wanted)) (parseTarget adj command uri version) := by
  refine within_bind (within_modify fun _ => id) fun _ => ?_
  refine within_bind (within_ofExcept _) fun parts => ?_
  exact within_modify fun _ => id

theorem parseKeepAlive_within {relation : RequestHead → RequestHead → Prop}
    [IsPreorder RequestHead relation]
    (closes : ∀ head, relation head { head with connectionClose := true })
    (version connection : Str) : Within relation (parseKeepAlive version connection) := by
  unfold parseKeepAlive
  split
  · exact within_modify closes
  · exact within_pure _

theorem parseTransferEncoding_keepsMakes (adj : Adjustments)
    (chunked : wanted (.chunked { buf := { overflow := adj.inbufOverflow } })) (connection : Str) :
    Within (Keeps (RequestHead.Makes wanted)) (parseTransferEncoding adj connection) := by
  refine within_bind within_get fun head => ?_
  dsimp only
  refine within_bind (within_modify fun _ => id) fun _ => ?_
  split
  · exact within_throw_bind _
  split
  · split
    · exact within_throw_bind _
    refine within_bind within_get fun head => ?_
    refine within_bind (within_modify fun _ _ rcv given => ?_) fun _ => within_modify fun _ => id
    rw [← Option.some.inj given]
    exact chunked
  split
  · exact within_throw_bind _
  · exact within_modify fun _ => id

theorem parseContentLength_keepsMakes (adj : Adjustments)
    (fixed : ∀ remain, 0 < remain →
      wanted (.fixed { remain, buf := { overflow := adj.inbufOverflow } })) :
    Within (Keeps (RequestHead.Makes wanted)) (parseContentLength adj) := by
  refine within_bind within_get fun head => ?_
  dsimp only
  refine within_bind (within_ofExcept _) fun encoded => ?_
  split
  · exact within_throw_bind _
  refine within_bind (within_ofExcept _) fun length => ?_
  refine within_bind (within_modify fun _ => id) fun _ => ?_
  split
  · refine within_modify fun _ _ rcv given => ?_
    rw [← Option.some.inj given]
    exact fixed _ (by omega)
  · exact within_pure _

theorem parseFraming_within {relation : RequestHead → RequestHead → Prop}
    [IsPreorder RequestHead relation] (adj : Adjustments)
    (closes : ∀ head, relation head { head with connectionClose := true })
    (coding : ∀ connection, Within relation (parseTransferEncoding adj connection))
    (length : Within relation (parseContentLength adj)) :
    Within relation (parseFraming adj) := by
  have unchunked : ∀ head : RequestHead, Within relation
      (if head.chunked = false then parseContentLength adj else pure ()) := by
    intro head
    split
    · exact length
    · exact within_pure _
  refine within_bind within_get fun first => ?_
  refine within_bind within_get fun second => ?_
  refine within_bind (parseKeepAlive_within closes _ _) fun _ => ?_
  split
  · exact within_bind (coding _) fun _ => within_bind within_get unchunked
  · exact within_bind within_get unchunked

/-- Whatever holds of fresh receivers holds of the one that the head makes. -/
theorem parseHeader_keepsMakes [CPython] (adj : Adjustments)
    (chunked : wanted (.chunked { buf := { overflow := adj.inbufOverflow } }))
    (fixed : ∀ remain, 0 < remain →
      wanted (.fixed { remain, buf := { overflow := adj.inbufOverflow } })) (block : Bytes) :
    Within (Keeps (RequestHead.Makes wanted)) (parseHeader adj block) := by
  refine within_bind (parseLines_keepsMakes block) fun start => ?_
  refine within_bind (parseTarget_keepsMakes adj _ _ _) fun _ => ?_
  apply parseFraming_within
  · exact fun _ => id
  · exact parseTransferEncoding_keepsMakes adj chunked
  · exact parseContentLength_keepsMakes adj fixed

end Head

/-! ### The path -/

theorem parseFraming_path (adj : Adjustments) :
    Within (SameView RequestHead.path) (parseFraming adj) := by
  apply parseFraming_within
  · exact fun _ => rfl
  · intro connection
    refine within_bind within_get fun head => ?_
    dsimp only
    refine within_bind (within_modify fun _ => rfl) fun _ => ?_
    split
    · exact within_throw_bind _
    split
    · split
      · exact within_throw_bind _
      refine within_bind within_get fun head => ?_
      exact within_bind (within_modify fun _ => rfl) fun _ => within_modify fun _ => rfl
    split
    · exact within_throw_bind _
    · exact within_modify fun _ => rfl
  · refine within_bind within_get fun head => ?_
    dsimp only
    refine within_bind (within_ofExcept _) fun encoded => ?_
    split
    · exact within_throw_bind _
    refine within_bind (within_ofExcept _) fun length => ?_
    refine within_bind (within_modify fun _ => rfl) fun _ => ?_
    split
    · exact within_modify fun _ => rfl
    · exact within_pure _

/-- The path is there before there is a receiver. -/
def RequestHead.Located (head : RequestHead) : Prop := head.bodyRcv ≠ none → head.path ≠ none

theorem parseTarget_located [CPython] (adj : Adjustments) (command uri version : Bytes)
    {head after : RequestHead} {result : Except Exc Unit} (located : head.Located)
    (ran : exec (parseTarget adj command uri version) head = (result, after)) :
    after.Located ∧ (result = .ok () → after.path ≠ none) := by
  unfold parseTarget at ran
  rw [exec_modify_bind, exec_bind, exec_ofExcept] at ran
  cases split : splitUri uri with
  | error exc =>
      rw [split] at ran
      obtain ⟨rfl, rfl⟩ := Prod.mk.inj ran
      exact ⟨located, fun returned => by cases returned⟩
  | ok parts =>
      rw [split] at ran
      obtain ⟨-, rfl⟩ := Prod.mk.inj ran
      exact ⟨fun _ => Option.some_ne_none _, fun _ => Option.some_ne_none _⟩

theorem parseHeader_located [CPython] (adj : Adjustments) (block : Bytes)
    {head after : RequestHead} {result : Except Exc Unit} (located : head.Located)
    (ran : exec (parseHeader adj block) head = (result, after)) :
    after.Located ∧ (result = .ok () → after.path ≠ none) := by
  have read := parseLines_frame block head
  unfold parseHeader at ran
  rw [exec_bind] at ran
  generalize exec (parseLines block) head = outcome at ran read
  obtain ⟨result, lines⟩ := outcome
  have start : lines.Located := by
    intro made none
    have path : head.path = lines.path := (congrArg RequestHead.path read :)
    have bodyRcv : head.bodyRcv = lines.bodyRcv := (congrArg RequestHead.bodyRcv read :)
    exact located (bodyRcv ▸ made) (path.trans none)
  rcases result with exc | ⟨command, uri, version⟩
  · obtain ⟨rfl, rfl⟩ := Prod.mk.inj ran
    exact ⟨start, fun returned => by cases returned⟩
  · dsimp only at ran
    rw [exec_bind] at ran
    rcases assigned : exec (parseTarget adj command uri version) lines with ⟨exc | ⟨⟩, target⟩
    · rw [assigned] at ran
      obtain ⟨rfl, rfl⟩ := Prod.mk.inj ran
      exact parseTarget_located adj _ _ _ start assigned
    · rw [assigned] at ran
      have path := (parseTarget_located adj _ _ _ start assigned).2 rfl
      have framed := parseFraming_path adj target
      dsimp only at ran
      rw [ran] at framed
      rw [framed] at path
      exact ⟨fun _ => path, fun _ => path⟩

/-! ### Parsers -/

namespace HTTPRequestParser

/-- The parsers of a channel: data is received, and the mark that a request is completed is
taken back once the client was told to go on. -/
inductive Received [CPython] (adj : Adjustments) : HTTPRequestParser → Prop where
  | new : Received adj {}
  | received {parser : HTTPRequestParser} (data : Bytes) :
      Received adj parser → Received adj (parser.received adj data).1
  | continued {parser : HTTPRequestParser} :
      Received adj parser →
      Received adj { parser with expectContinue := false, completed := false }

structure Accounted (parser : HTTPRequestParser) : Prop where
  located : parser.toRequestHead.Located
  receiver : parser.toRequestHead.Makes Receiver.Accounted
  error : ∀ error, parser.error = some error → error.HasClass
  answerable : parser.completed = true → parser.empty = false → parser.error = none →
    parser.path ≠ none

theorem accounted_new : Accounted {} where
  located made := absurd rfl made
  receiver _ given := by cases given
  error _ given := by cases given
  answerable done := Bool.noConfusion done

theorem Accounted.runParseHeader [CPython] {adj : Adjustments} {parser after : HTTPRequestParser}
    (accounted : parser.Accounted) (running : parser.completed = false) {block : Bytes}
    {result : Except Exc Unit} (ran : parser.runParseHeader adj block = (after, result)) :
    after.Accounted ∧ after.completed = false ∧ (result = .ok () → after.path ≠ none) := by
  have makes := parseHeader_keepsMakes adj
    (show Receiver.Accounted (.chunked { buf := { overflow := adj.inbufOverflow } }) from
      fun _ given => by cases given)
    (fun _ _ _ given => by cases given) block parser.toRequestHead accounted.receiver
  unfold HTTPRequestParser.runParseHeader at ran
  rcases parsed : exec (parseHeader adj block) parser.toRequestHead with ⟨outcome, head⟩
  have located := parseHeader_located adj block accounted.located parsed
  rw [parsed] at ran makes
  obtain ⟨rfl, rfl⟩ := Prod.mk.inj ran
  refine ⟨⟨located.1, makes, accounted.error, ?_⟩, running, located.2⟩
  exact fun done => Bool.noConfusion (running.symm.trans done)

theorem Accounted.fail {parser : HTTPRequestParser} (accounted : parser.Accounted) {error : Error}
    (hasClass : error.HasClass) (completed headersFinished : Bool) :
    Accounted { parser with error := some error, completed, headersFinished } where
  located := accounted.located
  receiver := accounted.receiver
  error other given := by rwa [← Option.some.inj given]
  answerable _ _ none := by cases none

theorem Accounted.receivedHead [CPython] {adj : Adjustments} {parser : HTTPRequestParser}
    (accounted : parser.Accounted) (running : parser.completed = false) (headerPlus : Bytes) :
    (parser.receivedHead adj headerPlus).1.Accounted := by
  unfold HTTPRequestParser.receivedHead
  split
  · exact ⟨accounted.located, accounted.receiver, accounted.error,
      fun _ some => Bool.noConfusion some⟩
  rcases ran : parser.runParseHeader adj headerPlus with ⟨after, exc | ⟨⟩⟩
  · have parsed := (accounted.runParseHeader running ran).1
    cases exc with
    | parsingError message => exact parsed.fail (Error.hasClass_badRequest _) _ _
    | transferEncodingNotImplemented message =>
        exact parsed.fail (Error.hasClass_serverNotImplemented _) _ _
    | _ => exact parsed
  · obtain ⟨parsed, -, path⟩ := accounted.runParseHeader running ran
    dsimp only
    split
    · exact parsed.fail (Error.hasClass_requestEntityTooLarge _) _ _
    · exact ⟨parsed.located, parsed.receiver, parsed.error, fun _ _ _ => path rfl⟩

theorem Accounted.receivedBody {adj : Adjustments} {parser : HTTPRequestParser}
    (accounted : parser.Accounted) {rcv : Receiver} (inBody : parser.bodyRcv = some rcv)
    (data : Bytes) : (parser.receivedBody adj rcv data).1.Accounted := by
  have next : (rcv.received data).1.Accounted := (accounted.receiver rcv inBody).received data
  have path : parser.path ≠ none :=
    accounted.located (by rw [inBody]; exact Option.some_ne_none rcv)
  have body : ∀ (completed : Bool) (headers : Dict Str Str) (bodyBytesReceived : Nat),
      Accounted
        { parser with
          bodyRcv := some (rcv.received data).1, completed, headers, bodyBytesReceived } := by
    intro completed headers bodyBytesReceived
    refine ⟨fun _ => path, fun made given => ?_, accounted.error, fun _ _ _ => path⟩
    rwa [← Option.some.inj given]
  unfold HTTPRequestParser.receivedBody
  dsimp only
  split
  · exact (body parser.completed parser.headers _).fail
      (Error.hasClass_requestEntityTooLarge _) true parser.headersFinished
  split
  · refine ⟨fun _ => path, (body true parser.headers 0).receiver, next, fun _ _ _ => path⟩
  split
  · exact body true _ _
  · exact body parser.completed parser.headers _

theorem Accounted.received [CPython] {adj : Adjustments} {parser : HTTPRequestParser}
    (accounted : parser.Accounted) (data : Bytes) : (parser.received adj data).1.Accounted := by
  unfold HTTPRequestParser.received
  split
  · exact accounted
  rename_i unfinished
  have running : parser.completed = false := eq_false_of_ne_true unfinished
  cases inBody : parser.bodyRcv with
  | some rcv => exact accounted.receivedBody inBody data
  | none =>
      dsimp only
      generalize Option.getD _ (parser.headerBytesReceived + data.length) = headerBytesReceived
      have counted : Accounted { parser with headerBytesReceived } :=
        ⟨accounted.located, accounted.receiver, accounted.error, accounted.answerable⟩
      split
      · rcases ran : HTTPRequestParser.runParseHeader adj _ _ with ⟨after, exc | ⟨⟩⟩
        · exact (counted.runParseHeader running ran).1
        · exact (counted.runParseHeader running ran).1.fail
            (Error.hasClass_requestHeaderFieldsTooLarge _) true after.headersFinished
      · split
        · exact ⟨counted.located, counted.receiver, counted.error, counted.answerable⟩
        · exact counted.receivedHead running _

theorem Received.accounted [CPython] {adj : Adjustments} {parser : HTTPRequestParser}
    (received : Received adj parser) : parser.Accounted := by
  induction received with
  | new => exact accounted_new
  | received data _ inductionHypothesis => exact inductionHypothesis.received data
  | continued _ inductionHypothesis =>
      exact ⟨inductionHypothesis.located, inductionHypothesis.receiver, inductionHypothesis.error,
        fun done => Bool.noConfusion done⟩

end HTTPRequestParser

end Waitress
