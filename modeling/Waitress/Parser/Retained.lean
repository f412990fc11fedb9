import Waitress.Parser.Advancing
import Waitress.Parser.Limits

/-!
# What a parser keeps in memory

A request is rejected with 431 for the length of its head, however the stream is cut.  What is
kept between two calls is below the limits, but for the segment that a body exceeds its limit by.
-/

namespace Waitress

open Raising

/-! ### Receivers -/

namespace ChunkedReceiver

/-- The body so far and the pieces of what is not complete yet. -/
def retained (rcv : ChunkedReceiver) : Int :=
  rcv.buf.len + rcv.controlLine.length + rcv.chunkEnd.length + rcv.trailer.length

theorem Follows.valid {rcv : ChunkedReceiver} {state : Decoder} (follows : rcv.Follows state)
    (unbroken : state.isBroken = false) : rcv.buf.Valid := by
  cases state with
  | sizeLine line out => obtain ⟨-, buf, holds, rfl⟩ := follows; exact holds.valid
  | data remainder out => obtain ⟨-, buf, holds, rfl⟩ := follows; exact holds.valid
  | chunkEnd seen out => obtain ⟨-, buf, holds, rfl⟩ := follows; exact holds.valid
  | trailer text out => obtain ⟨-, -, buf, holds, rfl⟩ := follows; exact holds.valid
  | finished out => exact follows.2.2.valid
  | broken => cases unbroken

end ChunkedReceiver

theorem OverflowableBuffer.len_append {buffer : OverflowableBuffer} (valid : buffer.Valid)
    (s : Bytes) : (buffer.append s).len = buffer.len + s.length := by
  obtain ⟨after, content⟩ := append_spec valid s
  rw [len_eq after, content, len_eq valid, List.length_append, Int.natCast_add]

namespace ChunkedReceiver

/-- Induction on the rounds of the loop: what is kept and what is still in hand are no more than
before. -/
theorem receivedLoop_retained {rcv : ChunkedReceiver} (origSize : Nat) (s : Bytes)
    (valid : rcv.buf.Valid) (noCrlf : ¬ crlf <+: rcv.trailer) :
    (receivedLoop rcv origSize s).1.retained +
        ((origSize - (receivedLoop rcv origSize s).2 : Nat) : Int) ≤ rcv.retained + s.length := by
  fun_induction receivedLoop rcv origSize s with
  | case1 rcv => simp
  | case2 rcv s nonempty inChunk toWrite remainder ih =>
      have written := OverflowableBuffer.len_append valid toWrite
      have rest := ih (OverflowableBuffer.append_spec valid toWrite).1 noCrlf
      have length : toWrite.length ≤ s.length := List.length_take_le' ..
      rw [List.length_drop] at rest
      simp only [retained] at rest ⊢
      omega
  | case3 rcv s nonempty outside validate text pos short =>
      have length : text.length = rcv.chunkEnd.length + s.length := List.length_append
      simp only [retained]
      omega
  | case4 rcv s nonempty outside validate text pos notShort first ih =>
      have rest := ih valid noCrlf
      have length : text.length = rcv.chunkEnd.length + s.length := List.length_append
      rw [List.length_drop] at rest
      simp only [retained, List.length_nil] at rest ⊢
      omega
  | case5 rcv s nonempty outside validate text pos notShort notFirst ih =>
      have rest := ih valid noCrlf
      have length : text.length = rcv.chunkEnd.length + s.length := List.length_append
      simp only [retained, List.length_nil] at rest ⊢
      omega
  | case6 rcv s nonempty outside validated running unfinished =>
      simp only [retained, List.length_append]
      omega
  | case7 rcv s nonempty outside validated running pos found line rest blank ih =>
      have next := ih valid noCrlf
      have length : rest.length ≤ rcv.controlLine.length + s.length := by
        rw [List.length_drop, List.length_append]
        omega
      simp only [retained, List.length_nil] at next ⊢
      omega
  | case8 rcv s nonempty outside validated running pos found line notBlank error rejected =>
      simp only [retained, List.length_nil]
      omega
  | case9 rcv s nonempty outside validated running pos found line rest notBlank sz size ih =>
      have next := ih valid noCrlf
      have length : rest.length ≤ rcv.controlLine.length + s.length := by
        rw [List.length_drop, List.length_append]
        omega
      simp only [retained, List.length_nil] at next ⊢
      omega
  | case10 rcv s nonempty outside validated received trailer starts =>
      have length : trailer.length = rcv.trailer.length + s.length := List.length_append
      have short : rcv.trailer.length < 2 := by
        by_contra long
        apply noCrlf
        exact List.prefix_of_prefix_length_le (List.isPrefixOf_iff_prefix.mp starts)
          (List.prefix_append _ _) (Nat.le_of_not_lt long)
      simp only [retained]
      omega
  | case11 rcv s nonempty outside validated received trailer noStart unfinished =>
      have length : trailer.length = rcv.trailer.length + s.length := List.length_append
      simp only [retained]
      omega
  | case12 rcv s nonempty outside validated received trailer noStart pos found =>
      have length : trailer.length = rcv.trailer.length + s.length := List.length_append
      simp only [retained, List.length_take]
      omega

end ChunkedReceiver

namespace Receiver

def retained : Receiver → Int
  | .fixed rcv => rcv.buf.len
  | .chunked rcv => rcv.retained

theorem Expecting.retained_received {rcv : Receiver} (expecting : rcv.Expecting) {segment : Bytes}
    (nonempty : segment ≠ []) :
    (rcv.received segment).1.retained ≤ rcv.retained + (rcv.received segment).2 := by
  have inside := (expecting.advances nonempty).2
  obtain ⟨state, follows, unfinished, unbroken⟩ := expecting
  have running := (follows.status.2 unbroken).2.trans unfinished
  match rcv, state, follows with
  | .fixed rcv, .fixed remain content, follows =>
      have some : ¬ rcv.remain < 1 := by
        rw [follows.1, Nat.not_lt]
        exact Nat.pos_of_ne_zero (by simpa [Body.isFinished] using unfinished)
      simp only [Receiver.received, FixedStreamReceiver.received]
      rw [if_neg some]
      split
      · next ends =>
        have written := OverflowableBuffer.len_append follows.2.2.valid (segment.take rcv.remain)
        rw [List.length_take_of_le ends] at written
        exact Int.le_of_eq written
      · exact Int.le_of_eq (OverflowableBuffer.len_append follows.2.2.valid segment)
  | .chunked rcv, .chunked state, follows =>
      have loop := ChunkedReceiver.receivedLoop_retained segment.length segment
        (follows.valid unbroken) (follows.open_ unfinished unbroken).noCrlf
      have call : rcv.received segment = ChunkedReceiver.receivedLoop rcv segment.length segment := by
        rw [ChunkedReceiver.received, if_neg (by simpa [completed] using running)]
      simp only [Receiver.received, call] at inside ⊢
      change (ChunkedReceiver.receivedLoop rcv segment.length segment).1.retained ≤
        rcv.retained + (ChunkedReceiver.receivedLoop rcv segment.length segment).2
      omega

/-- The errors that a receiver finds are bad requests. -/
theorem received_errors {allowed : Error → Prop} (badRequest : ∀ body, allowed (.badRequest body))
    {rcv : Receiver} (accounted : ∀ error, rcv.error = some error → allowed error) (data : Bytes) :
    ∀ error, (rcv.received data).1.error = some error → allowed error := by
  cases rcv with
  | fixed rcv => exact accounted
  | chunked rcv => exact ChunkedReceiver.received_errors badRequest accounted data

end Receiver

/-! ### The length of a head -/

def headLength (stream : Bytes) : Nat := (findDoubleNewline stream).getD stream.length

theorem headLength_of_some {first : Bytes} {index : Nat}
    (found : findDoubleNewline first = some index) (more : Bytes) :
    headLength (first ++ more) = index := by
  rw [headLength, findDoubleNewline_append found, Option.getD_some]

theorem headLength_append (first more : Bytes) : headLength first ≤ headLength (first ++ more) := by
  cases found : findDoubleNewline first with
  | some index =>
      rw [headLength_of_some found, headLength, found]
      exact Nat.le_refl _
  | none =>
      rw [headLength, headLength, found, Option.getD_none]
      cases later : findDoubleNewline (first ++ more) with
      | none =>
          rw [Option.getD_none, List.length_append]
          exact Nat.le_add_right _ _
      | some index => exact Nat.le_of_lt (findDoubleNewline_late found later)

/-! ### Parsers -/

namespace HTTPRequestParser

def bodyRetained (parser : HTTPRequestParser) : Int :=
  match parser.bodyRcv with
  | none => 0
  | some rcv => rcv.retained

/-- All that is kept is this part of a head. -/
structure KeepsHead (parser : HTTPRequestParser) (text : Bytes) : Prop where
  headerPlus : parser.headerPlus = text
  uncounted : parser.bodyBytesReceived = 0
  fresh : parser.toRequestHead.Makes fun rcv => rcv.retained = 0

theorem KeepsHead.bodyRetained {parser : HTTPRequestParser} {text : Bytes}
    (keeps : parser.KeepsHead text) : parser.bodyRetained = 0 := by
  rw [HTTPRequestParser.bodyRetained]
  cases given : parser.bodyRcv with
  | none => rfl
  | some rcv => exact keeps.fresh rcv given

theorem KeepsHead.runParseHeader [CPython] {parser : HTTPRequestParser} {text : Bytes}
    (keeps : parser.KeepsHead text) (adj : Adjustments) (block : Bytes) :
    (parser.runParseHeader adj block).1.KeepsHead text where
  headerPlus := keeps.headerPlus
  uncounted := keeps.uncounted
  fresh :=
    have none_kept : Receiver.retained (.chunked { buf := { overflow := adj.inbufOverflow } }) = 0 :=
      rfl
    parseHeader_keepsMakes adj none_kept (fun _ _ => rfl) block parser.toRequestHead keeps.fresh

theorem KeepsHead.receivedHead [CPython] {parser : HTTPRequestParser} {text : Bytes}
    (keeps : parser.KeepsHead text) (adj : Adjustments) (block : Bytes) :
    (parser.receivedHead adj block).1.KeepsHead text := by
  unfold HTTPRequestParser.receivedHead
  split
  · exact ⟨keeps.headerPlus, keeps.uncounted, keeps.fresh⟩
  have parsed := keeps.runParseHeader adj block
  generalize parser.runParseHeader adj block = outcome at parsed ⊢
  obtain ⟨after, exc | _⟩ := outcome
  · cases exc with
    | parsingError message => exact ⟨parsed.headerPlus, parsed.uncounted, parsed.fresh⟩
    | transferEncodingNotImplemented message =>
        exact ⟨parsed.headerPlus, parsed.uncounted, parsed.fresh⟩
    | _ => exact parsed
  · dsimp only
    split
    · exact ⟨parsed.headerPlus, parsed.uncounted, parsed.fresh⟩
    · exact ⟨parsed.headerPlus, parsed.uncounted, parsed.fresh⟩

/-- The request was not rejected for the length of its head. -/
def HeadFits (parser : HTTPRequestParser) : Prop :=
  ∀ error, parser.error = some error → error.code ≠ 431

theorem headFits_of_none {parser : HTTPRequestParser} (none : parser.error = none) :
    parser.HeadFits := by
  intro error given
  rw [none] at given
  cases given

theorem headFits_of_some {parser : HTTPRequestParser} {error : Error}
    (some : parser.error = some error) (code : error.code ≠ 431) : parser.HeadFits := by
  intro other given
  rw [some] at given
  exact Option.some.inj given ▸ code

/-- No head that is complete is rejected for its length. -/
theorem receivedHead_fits [CPython] {parser : HTTPRequestParser} (sound : parser.error = none)
    (adj : Adjustments) (block : Bytes) : (parser.receivedHead adj block).1.HeadFits := by
  have badRequest : (400 : Nat) ≠ 431 := by decide
  have notImplemented : (501 : Nat) ≠ 431 := by decide
  have tooLarge : (413 : Nat) ≠ 431 := by decide
  unfold HTTPRequestParser.receivedHead
  split
  · exact headFits_of_none sound
  have parsed : (parser.runParseHeader adj block).1.error = none := sound
  generalize parser.runParseHeader adj block = outcome at parsed ⊢
  obtain ⟨after, exc | _⟩ := outcome
  · cases exc with
    | parsingError message => exact headFits_of_some rfl badRequest
    | transferEncodingNotImplemented message => exact headFits_of_some rfl notImplemented
    | _ => exact headFits_of_none parsed
  · dsimp only
    split
    · exact headFits_of_some rfl tooLarge
    · exact headFits_of_none parsed

theorem receivedBody_frame (adj : Adjustments) (parser : HTTPRequestParser) (rcv : Receiver)
    (data : Bytes) :
    let after := (parser.receivedBody adj rcv data).1
    after.headerPlus = parser.headerPlus ∧ after.bodyRcv = some (rcv.received data).1 ∧
      after.bodyBytesReceived = parser.bodyBytesReceived + (rcv.received data).2 ∧
      (after.completed = false → (after.bodyBytesReceived : Int) < adj.maxRequestBodySize) := by
  unfold HTTPRequestParser.receivedBody
  dsimp only
  split
  · exact ⟨rfl, rfl, rfl, fun running => Bool.noConfusion running⟩
  split
  · exact ⟨rfl, rfl, rfl, fun running => Bool.noConfusion running⟩
  split
  · exact ⟨rfl, rfl, rfl, fun running => Bool.noConfusion running⟩
  · next small _ _ => exact ⟨rfl, rfl, rfl, fun _ => Int.not_le.mp small⟩

/-- No body is rejected for the length of its head. -/
theorem receivedBody_fits {parser : HTTPRequestParser} (sound : parser.error = none)
    {rcv : Receiver} (soundBody : rcv.error = none) (adj : Adjustments) (data : Bytes) :
    (parser.receivedBody adj rcv data).1.HeadFits := by
  have badRequest : (400 : Nat) ≠ 431 := by decide
  have tooLarge : (413 : Nat) ≠ 431 := by decide
  have codes := @Receiver.received_errors (fun error => error.code ≠ 431) (fun _ => badRequest) rcv
    (fun error given => by rw [soundBody] at given; cases given) data
  unfold HTTPRequestParser.receivedBody
  dsimp only
  split
  · exact headFits_of_some rfl tooLarge
  split
  · exact codes
  split
  · exact headFits_of_none sound
  · exact headFits_of_none sound

end HTTPRequestParser

namespace Feeding

theorem RejectedWith.not_fits {feeding : Feeding} (fits : feeding.parser.HeadFits) :
    ¬ feeding.RejectedWith 431 := by
  intro rejected
  obtain ⟨error, given, code⟩ := Option.map_eq_some_iff.mp rejected
  exact fits error given code

theorem Follows.eq_heading {feeding : Feeding} {text : Bytes}
    (heading : feeding.Follows (.heading text)) {state : Reading} (follows : feeding.Follows state) :
    state = .heading text := by
  obtain ⟨-, rfl⟩ := heading
  cases state with
  | heading other =>
      obtain ⟨-, same⟩ := follows
      exact congrArg Reading.heading
        (congrArg (fun feeding => feeding.parser.headerPlus) same).symm
  | body request state count =>
      obtain ⟨-, -, _, _, _, _, -, same⟩ := follows
      cases congrArg (fun feeding => feeding.parser.bodyRcv) same
  | blank =>
      obtain ⟨_, _, _, same⟩ := follows
      cases congrArg (fun feeding => feeding.parser.completed) same
  | ready request content =>
      obtain ⟨_, _, _, _, _, -, same⟩ := follows
      cases congrArg (fun feeding => feeding.parser.completed) same
  | failed => cases follows.1
  | raised => cases follows.2.2

variable [CPython] {adj : Adjustments}

theorem Follows.done_of_broken {feeding : Feeding} {state : Reading}
    (follows : feeding.Follows state) (broken : state.isBroken = true) :
    (consumer adj).done feeding = true := by
  cases state with
  | failed => exact Bool.or_eq_true_iff.mpr (.inl follows.1)
  | raised => exact Bool.or_eq_true_iff.mpr (.inr follows.2.2)
  | _ => cases broken

omit [CPython] in
theorem headEnd_ne_heading [CPython] (block text : Bytes) :
    Reading.headEnd adj block ≠ .heading text := by
  unfold Reading.headEnd
  split
  · exact Reading.noConfusion
  split
  · exact Reading.noConfusion
  · exact Reading.noConfusion
  · exact Reading.noConfusion
  · split
    · exact Reading.noConfusion
    · split
      · exact Reading.noConfusion
      · exact Reading.noConfusion

/-- How a call in the head, with this text kept, ends. -/
inductive HeadCall (adj : Adjustments) (text segment : Bytes) (after : Feeding) (count : Nat) :
    Prop where
  | tooLarge :
      adj.maxRequestHeaderSize ≤ headLength (text ++ segment) → after.parser.completed = true →
      after.RejectedWith 431 → after.parser.KeepsHead text → HeadCall adj text segment after count
  | unfinished :
      headLength (text ++ segment) < adj.maxRequestHeaderSize →
      findDoubleNewline (text ++ segment) = none →
      after.Follows (.heading (text ++ segment)) → count = segment.length →
      HeadCall adj text segment after count
  | ended {index : Nat} :
      headLength (text ++ segment) < adj.maxRequestHeaderSize →
      findDoubleNewline (text ++ segment) = some index → after.parser.HeadFits →
      after.parser.KeepsHead text → (∀ other, ¬ after.Follows (.heading other)) →
      HeadCall adj text segment after count

/-- A call in the head, when the head is too large, by what it leaves. -/
theorem received_tooLarge_eq {text segment : Bytes}
    (large : ((headLength (text ++ segment) : Nat) : Int) ≥ adj.maxRequestHeaderSize) :
    (received adj ⟨{ headerPlus := text, headerBytesReceived := text.length }, none⟩ segment).1 =
      ⟨{ (HTTPRequestParser.runParseHeader adj
            { headerPlus := text, headerBytesReceived := headLength (text ++ segment) }
            (ascii "GET / HTTP/1.0\r\n")).1 with
          error := some (.requestHeaderFieldsTooLarge
            (HTTPRequestParser.exceeds "max_header" adj.maxRequestHeaderSize))
          completed := true }, none⟩ := by
  rw [headLength, List.length_append] at large ⊢
  simp only [received, HTTPRequestParser.received, Bool.false_eq_true, if_false, large, if_true,
    HTTPRequestParser.runParseHeader]
  have parsed := exec_parseHeader_stub adj
  rcases stub : Raising.exec (parseHeader adj (ascii "GET / HTTP/1.0\r\n")) {} with ⟨_ | _, head⟩
  · rw [stub] at parsed
    cases parsed
  · rfl

omit [CPython] in
theorem parser_ofResult (result : HTTPRequestParser × Except Exc Unit) :
    (ofResult result).parser = result.1 := by
  obtain ⟨parser, exc | _⟩ := result
  · rfl
  · rfl

theorem Follows.headCall {feeding : Feeding} {text : Bytes}
    (heading : feeding.Follows (.heading text)) (segment : Bytes) :
    HeadCall adj text segment (feeding.received adj segment).1 (feeding.received adj segment).2 := by
  obtain ⟨-, rfl⟩ := heading
  have keeps : ∀ headerBytesReceived,
      HTTPRequestParser.KeepsHead { headerPlus := text, headerBytesReceived } text :=
    fun _ => ⟨rfl, rfl, fun _ given => by cases given⟩
  by_cases large : ((headLength (text ++ segment) : Nat) : Int) ≥ adj.maxRequestHeaderSize
  · have stub := (keeps (headLength (text ++ segment))).runParseHeader adj
      (ascii "GET / HTTP/1.0\r\n")
    rw [received_tooLarge_eq large]
    exact .tooLarge large rfl rfl ⟨stub.headerPlus, stub.uncounted, stub.fresh⟩
  · rw [received_inHeading large]
    have small := Int.not_le.mp large
    cases found : findDoubleNewline (text ++ segment) with
    | none => exact .unfinished small found ⟨found, rfl⟩ rfl
    | some index =>
        refine .ended small found ?_ ?_ fun other inHead => ?_
        · rw [parser_ofResult]
          exact HTTPRequestParser.receivedHead_fits rfl adj _
        · rw [parser_ofResult]
          exact (keeps index).receivedHead adj _
        · have follows := receivedHead_follows adj ((text ++ segment).take index) text index
          exact headEnd_ne_heading _ _ (inHead.eq_heading follows)

/-! ### The invariant -/

/-- Between two calls less is kept than the limits allow, and of a body no more than its bytes
were counted. -/
structure Bounded (adj : Adjustments) (feeding : Feeding) : Prop where
  reading : ∃ state, feeding.Follows state
  head : (feeding.parser.headerPlus.length : Int) < adj.maxRequestHeaderSize
  body : (consumer adj).done feeding = false →
    feeding.parser.bodyRetained ≤ feeding.parser.bodyBytesReceived ∧
      (feeding.parser.bodyBytesReceived : Int) < adj.maxRequestBodySize

theorem bounded_new (positiveHeader : 1 ≤ adj.maxRequestHeaderSize)
    (positiveBody : 1 ≤ adj.maxRequestBodySize) : Bounded adj {} where
  reading := ⟨.heading [], by decide, rfl⟩
  head := positiveHeader
  body _ := ⟨Int.le_refl 0, positiveBody⟩

theorem Bounded.received_heading {feeding : Feeding} (bounded : feeding.Bounded adj)
    {text segment : Bytes}
    (heading : feeding.Follows (.heading text)) :
    ((feeding.received adj segment).1.parser.headerPlus.length : Int) < adj.maxRequestHeaderSize ∧
      (feeding.received adj segment).1.parser.bodyRetained = 0 ∧
      (feeding.received adj segment).1.parser.bodyBytesReceived = 0 := by
  have small : (text.length : Int) < adj.maxRequestHeaderSize := by
    have head := bounded.head
    obtain ⟨-, rfl⟩ := heading
    exact head
  cases heading.headCall segment with
  | tooLarge _ _ _ keeps =>
      exact ⟨by rwa [keeps.headerPlus], keeps.bodyRetained, keeps.uncounted⟩
  | unfinished fits none next _ =>
      rw [headLength, none, Option.getD_none] at fits
      obtain ⟨-, same⟩ := next
      rw [same]
      exact ⟨fits, rfl, rfl⟩
  | ended _ _ _ keeps _ =>
      exact ⟨by rwa [keeps.headerPlus], keeps.bodyRetained, keeps.uncounted⟩

theorem Bounded.received_body {feeding : Feeding} (bounded : feeding.Bounded adj)
    {request : RequestHead} {state : Body} {count : Nat} {segment : Bytes}
    (inBody : feeding.Follows (.body request state count)) (nonempty : segment ≠ []) :
    ((feeding.received adj segment).1.parser.headerPlus.length : Int) < adj.maxRequestHeaderSize ∧
      (feeding.received adj segment).1.parser.bodyRetained <
        adj.maxRequestBodySize + segment.length ∧
      ((consumer adj).done (feeding.received adj segment).1 = false →
        (feeding.received adj segment).1.parser.bodyRetained ≤
            (feeding.received adj segment).1.parser.bodyBytesReceived ∧
          ((feeding.received adj segment).1.parser.bodyBytesReceived : Int) <
            adj.maxRequestBodySize) := by
  have head := bounded.head
  have body := bounded.body
  obtain ⟨unfinished, unbroken, rcv, headersFinished, headerPlus, headerBytesReceived, follows,
    rfl⟩ := inBody
  obtain ⟨kept, counted⟩ := body rfl
  have expecting : rcv.Expecting := ⟨state, follows, unfinished, unbroken⟩
  have inside := (expecting.advances nonempty).2
  have retained := expecting.retained_received nonempty
  rw [received_inBody rfl rfl]
  obtain ⟨sameHead, receiver, total, limited⟩ := HTTPRequestParser.receivedBody_frame adj
    { toRequestHead := { request with bodyRcv := some rcv }
      bodyBytesReceived := count, headersFinished, headerPlus, headerBytesReceived } rcv segment
  dsimp only at sameHead receiver total limited kept counted head ⊢
  rw [HTTPRequestParser.bodyRetained] at kept
  dsimp only at kept
  rw [sameHead, HTTPRequestParser.bodyRetained, receiver]
  dsimp only
  refine ⟨head, by omega, fun running => ?_⟩
  obtain ⟨continuing, -⟩ := Bool.or_eq_false_iff.mp running
  have more := limited continuing
  rw [total] at more ⊢
  exact ⟨by omega, more⟩

theorem Follows.not_done {feeding : Feeding} {state : Reading} (follows : feeding.Follows state)
    (running : (consumer adj).done feeding = false) :
    (∃ text, state = .heading text) ∨ ∃ request body count, state = .body request body count := by
  cases state with
  | heading text => exact .inl ⟨text, rfl⟩
  | body request body count => exact .inr ⟨request, body, count, rfl⟩
  | blank =>
      obtain ⟨_, _, _, rfl⟩ := follows
      cases running
  | ready request content =>
      obtain ⟨_, _, _, _, _, -, rfl⟩ := follows
      cases running
  | failed =>
      rw [follows.done_of_broken rfl] at running
      cases running
  | raised =>
      rw [follows.done_of_broken rfl] at running
      cases running

theorem Bounded.received {feeding : Feeding} (bounded : feeding.Bounded adj)
    (positive : 1 ≤ adj.maxRequestBodySize) (running : (consumer adj).done feeding = false)
    {segment : Bytes} (nonempty : segment ≠ []) :
    (feeding.received adj segment).1.Bounded adj ∧
      (feeding.received adj segment).1.parser.bodyRetained <
        adj.maxRequestBodySize + segment.length := by
  obtain ⟨state, follows⟩ := bounded.reading
  obtain ⟨next, reading, -⟩ := (simulation adj).receive follows running nonempty
  rcases follows.not_done running with ⟨text, rfl⟩ | ⟨request, body, count, rfl⟩
  · obtain ⟨head, kept, counted⟩ := bounded.received_heading follows
    refine ⟨⟨⟨next, reading⟩, head, fun _ => ?_⟩, by rw [kept]; omega⟩
    rw [kept, counted]
    exact ⟨Int.le_refl 0, positive⟩
  · obtain ⟨head, kept, counted⟩ := bounded.received_body follows nonempty
    exact ⟨⟨⟨next, reading⟩, head, counted⟩, kept⟩

theorem passes_bounded (positiveHeader : 1 ≤ adj.maxRequestHeaderSize)
    (positiveBody : 1 ≤ adj.maxRequestBodySize) {used : Bytes} {feeding : Feeding}
    (passes : (consumer adj).Passes {} used feeding) : feeding.Bounded adj := by
  induction passes with
  | start => exact bounded_new positiveHeader positiveBody
  | receive _ running nonempty inductionHypothesis =>
      exact (inductionHypothesis.received positiveBody running nonempty).1

/-! ### The verdict on a head -/

/-- The request is rejected for the length of its head, or will be. -/
def Oversized (adj : Adjustments) (feeding : Feeding) (ahead : Bytes) : Prop :=
  feeding.RejectedWith 431 ∨
    ∃ text, feeding.Follows (.heading text) ∧
      adj.maxRequestHeaderSize ≤ headLength (text ++ ahead)

omit [CPython] in
theorem oversized_heading {feeding : Feeding} {text : Bytes}
    (heading : feeding.Follows (.heading text)) (ahead : Bytes) :
    feeding.Oversized adj ahead ↔ adj.maxRequestHeaderSize ≤ headLength (text ++ ahead) := by
  constructor
  · rintro (rejected | ⟨other, follows, large⟩)
    · obtain ⟨-, rfl⟩ := heading
      cases rejected
    · cases heading.eq_heading follows
      exact large
  · exact fun large => .inr ⟨text, heading, large⟩

omit [CPython] in
theorem oversized_behind {feeding : Feeding} (behind : ∀ text, ¬ feeding.Follows (.heading text))
    (ahead : Bytes) : feeding.Oversized adj ahead ↔ feeding.RejectedWith 431 := by
  constructor
  · rintro (rejected | ⟨text, follows, -⟩)
    · exact rejected
    · exact absurd follows (behind text)
  · exact .inl

theorem behind_of_done {feeding : Feeding} (done : (consumer adj).done feeding = true)
    (text : Bytes) : ¬ feeding.Follows (.heading text) := by
  rintro ⟨-, rfl⟩
  cases done

theorem oversized_received_heading {feeding : Feeding} {text segment : Bytes}
    (heading : feeding.Follows (.heading text)) (ahead : Bytes) :
    feeding.Oversized adj (segment ++ ahead) ↔
      (feeding.received adj segment).1.Oversized adj
        (segment.drop (feeding.received adj segment).2 ++ ahead) := by
  rw [oversized_heading heading, ← List.append_assoc]
  cases heading.headCall segment with
  | tooLarge large completed rejected _ =>
      have grows := headLength_append (text ++ segment) ahead
      exact ⟨fun _ => .inl rejected, fun _ => by omega⟩
  | unfinished fits none next all =>
      rw [oversized_heading next, all, List.drop_length, List.nil_append]
  | @ended index fits found sound _ behind =>
      rw [oversized_behind behind, headLength_of_some found]
      rw [headLength, found, Option.getD_some] at fits
      exact ⟨fun large => by omega, fun rejected => absurd rejected (RejectedWith.not_fits sound)⟩

omit [CPython] in
theorem not_oversized {feeding : Feeding} (behind : ∀ text, ¬ feeding.Follows (.heading text))
    (fits : feeding.parser.HeadFits) (ahead : Bytes) : ¬ feeding.Oversized adj ahead := by
  rw [oversized_behind behind]
  exact RejectedWith.not_fits fits

theorem not_oversized_body {feeding : Feeding} {request : RequestHead} {state : Body}
    {count : Nat} (inBody : feeding.Follows (.body request state count)) (segment : Bytes) :
    (∀ ahead, ¬ feeding.Oversized adj ahead) ∧
      ∀ ahead, ¬ (feeding.received adj segment).1.Oversized adj ahead := by
  have behind : ∀ text, ¬ feeding.Follows (.heading text) :=
    fun text heading => Reading.noConfusion (heading.eq_heading inBody)
  obtain ⟨-, unbroken, rcv, headersFinished, headerPlus, headerBytesReceived, follows, rfl⟩ := inBody
  refine ⟨not_oversized behind (HTTPRequestParser.headFits_of_none rfl), ?_⟩
  rw [received_inBody rfl rfl]
  obtain ⟨-, receiver, -⟩ := HTTPRequestParser.receivedBody_frame adj
    { toRequestHead := { request with bodyRcv := some rcv }
      bodyBytesReceived := count, headersFinished, headerPlus, headerBytesReceived } rcv segment
  refine not_oversized ?_ ?_
  · rintro text ⟨-, same⟩
    rw [congrArg (fun feeding => feeding.parser.bodyRcv) same] at receiver
    cases receiver
  · exact HTTPRequestParser.receivedBody_fits rfl (follows.status.2 unbroken).1 adj segment

theorem foretells (positive : 1 ≤ adj.maxRequestBodySize) :
    (consumer adj).Foretells (Bounded adj) (Oversized adj) where
  done done ahead := by
    rw [oversized_behind (behind_of_done done), oversized_behind (behind_of_done done)]
  good bounded running nonempty := (bounded.received positive running nonempty).1
  advances := by
    intro feeding segment bounded running nonempty
    obtain ⟨state, follows⟩ := bounded.reading
    obtain ⟨next, reading, ⟨positive, -⟩ | ⟨broken, -⟩⟩ :=
      (simulation adj).receive follows running nonempty
    · exact .inr positive
    · exact .inl (reading.done_of_broken broken)
  receive := by
    intro feeding segment bounded running nonempty ahead
    obtain ⟨state, follows⟩ := bounded.reading
    rcases follows.not_done running with ⟨text, rfl⟩ | ⟨request, body, count, rfl⟩
    · exact oversized_received_heading follows ahead
    · obtain ⟨before, after⟩ := not_oversized_body follows segment
      exact iff_of_false (before _) (after _)

/-- **The header limit does not depend on the cut of the stream, and what is kept in memory is
bounded.** -/
theorem memory_bounded (adj : Adjustments) (positiveHeader : 1 ≤ adj.maxRequestHeaderSize)
    (positiveBody : 1 ≤ adj.maxRequestBodySize) :
    (∀ segments, ((consumer adj).feed {} segments).1.RejectedWith 431 ↔
      adj.maxRequestHeaderSize ≤ headLength segments.flatten) ∧
    ∀ used feeding segment, (consumer adj).Passes {} used feeding →
      (consumer adj).done feeding = false → segment ≠ [] →
      ((feeding.received adj segment).1.parser.headerPlus.length : Int) <
          adj.maxRequestHeaderSize ∧
        (feeding.received adj segment).1.parser.bodyRetained <
          adj.maxRequestBodySize + segment.length := by
  constructor
  · intro segments
    have fresh : Follows {} (.heading []) := ⟨by decide, rfl⟩
    obtain ⟨bounded, verdict⟩ :=
      (foretells positiveBody).feed (bounded_new positiveHeader positiveBody) segments
    rw [oversized_heading fresh, List.nil_append] at verdict
    rw [verdict]
    refine ⟨.inl, ?_⟩
    rintro (rejected | ⟨text, heading, large⟩)
    · exact rejected
    · have small := bounded.head
      obtain ⟨open_, same⟩ := heading
      rw [same] at small
      rw [List.append_nil, headLength, open_, Option.getD_none] at large
      exact absurd small (Int.not_lt.mpr large)
  · intro used feeding segment passes running nonempty
    have bounded := passes_bounded positiveHeader positiveBody passes
    obtain ⟨next, kept⟩ := bounded.received positiveBody running nonempty
    exact ⟨next.head, kept⟩

omit [CPython] in
/-- A head that fits in 60 bytes, and a chunk that takes more than the 4 bytes of a body. -/
theorem memory_bounded_post :
    let fed := @consumer .unchecked { maxRequestHeaderSize := 60, maxRequestBodySize := 4 }
    let inBody := (fed.receive {} (postHead "Transfer-Encoding: chunked")).1
    ((fed.feed {} [postHead "Transfer-Encoding: chunked", ascii "5\r\nabcde"]).1.RejectedWith 431 ↔
        (60 : Int) ≤ headLength
          [postHead "Transfer-Encoding: chunked", ascii "5\r\nabcde"].flatten) ∧
      (fed.receive inBody (ascii "5\r\nabcde")).1.parser.bodyRetained <
        4 + (ascii "5\r\nabcde").length := by
  intro fed inBody
  obtain ⟨header, kept⟩ := @memory_bounded .unchecked
    { maxRequestHeaderSize := 60, maxRequestBodySize := 4 } (by decide) (by decide)
  have passes := Incremental.Consumer.Passes.start.receive
    (show fed.done {} = false from rfl)
    (show postHead "Transfer-Encoding: chunked" ≠ [] by decide)
  have running : fed.done inBody = false := by decide +kernel
  exact ⟨header _, (kept _ inBody _ passes running (by decide)).2⟩

end Feeding

end Waitress
