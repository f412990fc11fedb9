import Waitress.Parser.Segmentation
import Waitress.Receiver.Framing

/-!
# The limit of a body

A request is rejected with 413 for the bytes that its body takes on the wire,
and with as many bytes as the limit allows.
-/

namespace Waitress

open Raising

/-! ### The limit by itself -/

def Feeding.RejectedWith (feeding : Feeding) (code : Nat) : Prop :=
  feeding.parser.error.map Error.code = some code

section Limit

variable [CPython] {adj : Adjustments} {limit : Int}

theorem runParseHeader_limit (parser : HTTPRequestParser) (block : Bytes) :
    parser.runParseHeader { adj with maxRequestBodySize := limit } block =
      parser.runParseHeader adj block := rfl

theorem receivedHead_limit (more : adj.maxRequestBodySize ≤ limit) (parser : HTTPRequestParser)
    (block : Bytes) :
    parser.receivedHead adj block =
        parser.receivedHead { adj with maxRequestBodySize := limit } block ∨
      ∃ after, parser.receivedHead adj block = (after, .ok ()) ∧ after.completed = true ∧
        after.error.map Error.code = some 413 := by
  rw [HTTPRequestParser.receivedHead, HTTPRequestParser.receivedHead,
    @runParseHeader_limit _ adj limit parser block]
  by_cases blank : block = []
  · rw [if_pos blank, if_pos blank]
    exact .inl rfl
  rw [if_neg blank, if_neg blank]
  rcases parser.runParseHeader adj block with ⟨after, exc | ⟨⟩⟩
  · exact .inl (by cases exc <;> rfl)
  · dsimp only
    by_cases large : after.contentLength > 0 ∧ after.contentLength ≥ adj.maxRequestBodySize
    · rw [if_pos large]
      exact .inr ⟨_, rfl, rfl, rfl⟩
    · have small : ¬ (after.contentLength > 0 ∧ after.contentLength ≥ limit) :=
        fun both => large ⟨both.1, both.2.trans' more⟩
      rw [if_neg large, if_neg small]
      exact .inl rfl

omit [CPython] in
theorem receivedBody_limit (more : adj.maxRequestBodySize ≤ limit) (parser : HTTPRequestParser)
    (br : Receiver) (data : Bytes) :
    parser.receivedBody adj br data =
        parser.receivedBody { adj with maxRequestBodySize := limit } br data ∨
      (parser.receivedBody adj br data).1.completed = true ∧
        (parser.receivedBody adj br data).1.error.map Error.code = some 413 := by
  rw [HTTPRequestParser.receivedBody, HTTPRequestParser.receivedBody]
  rcases br.received data with ⟨after, consumed⟩
  dsimp only
  by_cases large : ((parser.bodyBytesReceived + consumed : Nat) : Int) ≥ adj.maxRequestBodySize
  · rw [if_pos large]
    exact .inr ⟨rfl, rfl⟩
  · have small : ¬ ((parser.bodyBytesReceived + consumed : Nat) : Int) ≥ limit :=
      fun reached => large (reached.trans' more)
    rw [if_neg large, if_neg small]
    exact .inl rfl

theorem received_limit (more : adj.maxRequestBodySize ≤ limit) (parser : HTTPRequestParser)
    (data : Bytes) :
    parser.received adj data = parser.received { adj with maxRequestBodySize := limit } data ∨
      ∃ after consumed, parser.received adj data = (after, .ok consumed) ∧
        after.completed = true ∧ after.error.map Error.code = some 413 := by
  rw [HTTPRequestParser.received, HTTPRequestParser.received]
  by_cases completed : parser.completed = true
  · rw [if_pos completed, if_pos completed]
    exact .inl rfl
  rw [if_neg completed, if_neg completed]
  cases parser.bodyRcv with
  | some br =>
      dsimp only
      rcases receivedBody_limit more parser br data with same | rejected
      · rw [same]
        exact .inl rfl
      · exact .inr ⟨_, _, rfl, rejected⟩
  | none =>
      dsimp only
      by_cases large : (((findDoubleNewline (parser.headerPlus ++ data)).getD
          (parser.headerBytesReceived + data.length) : Nat) : Int) ≥ adj.maxRequestHeaderSize
      · rw [if_pos large, if_pos large, runParseHeader_limit]
        exact .inl rfl
      · rw [if_neg large, if_neg large]
        cases findDoubleNewline (parser.headerPlus ++ data) with
        | none => exact .inl rfl
        | some index =>
            simp only [Option.getD_some]
            rcases receivedHead_limit more
                { parser with headerBytesReceived := index }
                (Bytes.lstrip ((parser.headerPlus ++ data).take index)) with
              same | ⟨after, ends, rejected⟩
            · rw [same]
              exact .inl rfl
            · rw [ends]
              exact .inr ⟨after, _, rfl, rejected⟩

/-- A larger limit makes no difference but for the requests that are rejected for it. -/
theorem sameUntil_limit (more : adj.maxRequestBodySize ≤ limit) :
    Incremental.Consumer.SameUntil (Feeding.consumer adj)
      (Feeding.consumer { adj with maxRequestBodySize := limit })
      fun feeding => feeding.parser.completed = true ∧ feeding.RejectedWith 413 where
  done _ := rfl
  stopped stopped := Bool.or_eq_true_iff.mpr (.inl stopped.1)
  receive := by
    rintro ⟨parser, raised⟩ running segment
    change Feeding.received adj ⟨parser, raised⟩ segment =
      Feeding.received { adj with maxRequestBodySize := limit } ⟨parser, raised⟩ segment ∨ _
    rcases received_limit more parser segment with same | ⟨after, consumed, ends, rejected⟩
    · rw [Feeding.received, Feeding.received, same]
      exact .inl rfl
    · right
      change (Feeding.received adj ⟨parser, raised⟩ segment).1.parser.completed = true ∧
        (Feeding.received adj ⟨parser, raised⟩ segment).1.RejectedWith 413
      rw [Feeding.received]
      dsimp only
      rw [ends]
      exact rejected

end Limit

/-! ### A request and its body -/

/-- The head announces a body that comes as these bytes on the wire. -/
def RequestHead.Carries (request : RequestHead) (wire body : Bytes) : Prop :=
  match request.bodyRcv with
  | some (.chunked _) => ∃ lines, ChunkedMessage LooseSizeLine lines wire body
  | _ => wire = body ∧ request.contentLength = body.length

/-- A complete request, as it may be sent. -/
structure WellFramed [CPython] (adj : Adjustments) (head wire body : Bytes) (request : RequestHead) :
    Prop where
  complete : findDoubleNewline head = some head.length
  small : (head.length : Int) < adj.maxRequestHeaderSize
  parsed : exec (parseHeader adj (Bytes.lstrip head)) {} = (.ok (), request)
  carries : request.Carries wire body

section Framed

variable [CPython] {adj : Adjustments} {head wire body : Bytes} {request : RequestHead}

theorem bodyRcv_cases {block : Bytes} (parsed : exec (parseHeader adj block) {} = (.ok (), request)) :
    (∃ rcv, request.bodyRcv = some (.chunked rcv) ∧ request.contentLength = 0) ∨
      (0 < request.contentLength ∧ request.bodyRcv = some (.fixed
        { remain := request.contentLength.toNat, buf := { overflow := adj.inbufOverflow } })) ∨
      request.contentLength ≤ 0 ∧ request.bodyRcv = none := by
  obtain ⟨command, uri, version, lines, parts, read, -, framed⟩ := parseHeader_ok rfl parsed
  have unread := parseLines_frame block {}
  rw [read] at unread
  have unset : none = lines.bodyRcv := congrArg RequestHead.bodyRcv unread
  have zero : 0 = lines.contentLength := congrArg RequestHead.contentLength unread
  have ofLength : ∀ {head : RequestHead} {length : Int}, head.bodyRcv = none →
      0 < (head.assignLength adj length).contentLength ∧
          (head.assignLength adj length).bodyRcv = some (.fixed
            { remain := (head.assignLength adj length).contentLength.toNat,
              buf := { overflow := adj.inbufOverflow } }) ∨
        (head.assignLength adj length).contentLength ≤ 0 ∧
          (head.assignLength adj length).bodyRcv = none := by
    intro head length none
    rw [RequestHead.assignLength]
    split
    · next positive => exact .inl ⟨positive, rfl⟩
    · next zero => exact .inr ⟨Int.not_lt.mp zero, none⟩
  cases framed with
  | chunked => exact .inl ⟨_, rfl, zero.symm⟩
  | current => exact .inr (ofLength unset.symm)
  | other => exact .inr (ofLength unset.symm)

theorem WellFramed.nonempty (framed : WellFramed adj head wire body request) :
    Bytes.lstrip head ≠ [] := by
  intro blank
  have parsed := framed.parsed
  rw [blank] at parsed
  have refused : (exec (parseHeader adj []) {}).1 =
      .error (.parsingError "HTTP message header invalid".toList) := rfl
  rw [parsed] at refused
  cases refused

theorem WellFramed.headEnd (framed : WellFramed adj head wire body request) :
    Reading.headEnd adj head =
      if request.contentLength > 0 ∧ request.contentLength ≥ adj.maxRequestBodySize then .failed
      else
        match request.bodyRcv with
        | none => .ready request []
        | some rcv => .body request (Reading.firstBody rcv) 0 := by
  rewrite [Reading.headEnd, if_neg framed.nonempty, framed.parsed]
  rfl

theorem run_limited {state final : Body} (unfinished : state.isFinished = false)
    (read : bodyMachine.run state wire = (final, []))
    (finished : final.isFinished = true) (sound : final.isBroken = false) (following : Bytes) :
    (reader adj).run (.body request state 0) (wire ++ following) =
      if (wire.length : Int) ≥ adj.maxRequestBodySize then (.failed, [])
      else (.ready (Reading.completeHead request final.content) final.content, following) := by
  have nonempty : wire ≠ [] := by
    rintro rfl
    rw [bodyMachine.run_nil] at read
    obtain ⟨rfl, -⟩ := Prod.mk.inj read
    exact Bool.noConfusion (unfinished.symm.trans finished)
  rw [(reader adj).run_append, Reading.run_body 0 unfinished nonempty read, Nat.zero_add,
    List.nil_append, Reading.inBody]
  split
  · exact Reading.run_failed following
  · simp only [sound, Bool.false_eq_true, if_false]
    exact (reader adj).run_halted rfl following

/-- A request is rejected by the number of bytes on the wire. -/
theorem WellFramed.run (framed : WellFramed adj head wire body request)
    (positive : 1 ≤ adj.maxRequestBodySize) (following : Bytes) :
    ∃ final, ((reader adj).run (.heading []) (head ++ (wire ++ following))).1 =
      if (wire.length : Int) ≥ adj.maxRequestBodySize then .failed else .ready final body := by
  have headNonempty : head ≠ [] := by
    rintro rfl
    exact absurd framed.complete (by decide)
  have heading : (reader adj).run (.heading []) (head ++ (wire ++ following)) =
      (reader adj).run (Reading.headEnd adj head) (wire ++ following) := by
    have start : findDoubleNewline [] = none := by decide
    rw [Reading.run_heading adj start (List.append_ne_nil_of_left_ne_nil headNonempty _),
      List.nil_append, findDoubleNewline_append framed.complete, Option.getD_some,
      if_neg (not_le.mpr framed.small)]
    dsimp only
    rw [List.take_left, List.drop_left]
  have carries := framed.carries
  rw [heading, framed.headEnd]
  rcases bodyRcv_cases framed.parsed with ⟨rcv, given, zero⟩ | ⟨some, given⟩ | ⟨none, given⟩
  · rw [RequestHead.Carries, given] at carries
    obtain ⟨lines, message⟩ := carries
    have decoded := Decoder.run_message [] [] message
    rw [List.append_nil, List.nil_append] at decoded
    have read : bodyMachine.run (.chunked (.sizeLine [] [])) wire =
        (.chunked (.finished body), []) := by
      rw [Body.run_chunked, decoded]
    rw [if_neg (by rw [zero]; exact fun both => absurd both.1 (by decide)), given]
    refine ⟨Reading.completeHead request body, ?_⟩
    dsimp only [Reading.firstBody]
    rw [run_limited rfl read rfl rfl following]
    split
    · rfl
    · rfl
  · rw [RequestHead.Carries, given] at carries
    obtain ⟨rfl, length⟩ := carries
    rw [given]
    refine ⟨Reading.completeHead request wire, ?_⟩
    by_cases large : (wire.length : Int) ≥ adj.maxRequestBodySize
    · rw [if_pos ⟨some, by rwa [length]⟩, if_pos large, Reading.run_failed]
    · have unfinished : (Body.fixed request.contentLength.toNat []).isFinished = false :=
        decide_eq_false (by omega)
      have whole : request.contentLength.toNat = wire.length := by omega
      have read : bodyMachine.run (.fixed request.contentLength.toNat []) wire =
          (.fixed 0 wire, []) := by
        rw [Body.run_fixed, whole, Nat.sub_self, List.nil_append, List.take_length,
          List.drop_length]
      rw [if_neg (fun both => large (by rw [← length]; exact both.2)), if_neg large]
      dsimp only [Reading.firstBody]
      rw [run_limited unfinished read rfl rfl following, if_neg large]
      rfl
  · rw [RequestHead.Carries, given] at carries
    obtain ⟨rfl, length⟩ := carries
    obtain rfl : wire = [] := List.length_eq_zero_iff.mp (by omega)
    have small : ¬ (([] : Bytes).length : Int) ≥ adj.maxRequestBodySize := by
      rw [List.length_nil]
      omega
    refine ⟨request, ?_⟩
    rw [given, if_neg (fun both => absurd both.1 (by omega)), if_neg small]
    dsimp only
    rw [(reader adj).run_halted rfl]

/-- **A request is rejected with 413 if and only if its body takes as many bytes on the wire as the
limit allows.** -/
theorem WellFramed.rejected_iff (framed : WellFramed adj head wire body request)
    (positive : 1 ≤ adj.maxRequestBodySize) {segments : List Bytes} {following : Bytes}
    (cut : segments.flatten = head ++ (wire ++ following)) :
    ((Feeding.consumer adj).feed {} segments).1.RejectedWith 413 ↔
      adj.maxRequestBodySize ≤ wire.length := by
  have accepts : ∀ {adj' : Adjustments}, WellFramed adj' head wire body request →
      1 ≤ adj'.maxRequestBodySize → (wire.length : Int) < adj'.maxRequestBodySize →
      ((Feeding.consumer adj').feed {} segments).1.parser.error = none := by
    intro adj' framed' positive' small
    obtain ⟨final, ran⟩ := framed'.run positive' following
    have follows := (Feeding.feed_follows adj' segments).1
    rw [cut, ran, if_neg (not_le.mpr small)] at follows
    obtain ⟨_, _, _, _, _, -, same⟩ := follows
    rw [same]
  constructor
  · intro rejected
    by_contra small
    rw [Feeding.RejectedWith, accepts framed positive (not_le.mp small)] at rejected
    cases rejected
  · intro large
    have framed' : WellFramed { adj with maxRequestBodySize := wire.length + 1 } head wire body
        request := ⟨framed.complete, framed.small, framed.parsed, framed.carries⟩
    rcases (sameUntil_limit (show adj.maxRequestBodySize ≤ wire.length + 1 by omega)).feed {}
      segments with same | stopped
    · have accepted := accepts framed' (show (1 : Int) ≤ wire.length + 1 by omega)
        (show (wire.length : Int) < wire.length + 1 by omega)
      rw [← same] at accepted
      obtain ⟨final, ran⟩ := framed.run positive following
      have follows := (Feeding.feed_follows adj segments).1
      rw [cut, ran, if_pos large] at follows
      have failed : ((Feeding.consumer adj).feed {} segments).1.parser.error.isSome = true :=
        follows.2.2.1
      rw [accepted] at failed
      cases failed
    · exact stopped.2

omit [CPython] in
theorem length_le_wire {sizeLine : Bytes → Nat → Prop} {lines : List Bytes}
    (message : ChunkedMessage sizeLine lines wire body) : body.length ≤ wire.length := by
  induction message with
  | blank _ inductionHypothesis =>
      rw [List.length_append]
      omega
  | chunk _ _ _ inductionHypothesis =>
      simp only [List.length_append]
      omega
  | last _ _ => exact Nat.zero_le _

/-- **The limit is exact if and only if the body is longer than it, or shorter on the wire.** -/
theorem WellFramed.limit_exact_iff (framed : WellFramed adj head wire body request)
    (positive : 1 ≤ adj.maxRequestBodySize) {segments : List Bytes} {following : Bytes}
    (cut : segments.flatten = head ++ (wire ++ following)) :
    (((Feeding.consumer adj).feed {} segments).1.RejectedWith 413 ↔
        adj.maxRequestBodySize < body.length) ↔
      adj.maxRequestBodySize < body.length ∨ (wire.length : Int) < adj.maxRequestBodySize := by
  have shorter : body.length ≤ wire.length := by
    have carries := framed.carries
    rw [RequestHead.Carries] at carries
    split at carries
    · obtain ⟨lines, message⟩ := carries
      exact length_le_wire message
    · exact carries.1 ▸ Nat.le_refl _
  rw [framed.rejected_iff positive cut]
  constructor
  · intro exact_
    by_cases small : (wire.length : Int) < adj.maxRequestBodySize
    · exact .inr small
    · exact .inl (exact_.mp (not_lt.mp small))
  · rintro (long | small)
    · exact ⟨fun _ => long, fun _ => by omega⟩
    · exact ⟨fun large => by omega, fun long => by omega⟩

end Framed

/-! ### A body of three bytes -/

def postHead (framing : String) : Bytes :=
  ascii "POST / HTTP/1.1\r\n" ++ ascii framing ++ doubleNewline

def postRequest [CPython] (adj : Adjustments) (framing : String) : RequestHead :=
  (exec (parseHeader adj (Bytes.lstrip (postHead framing))) {}).2

theorem wellFramed_post [CPython] {adj : Adjustments} {framing : String} {wire body : Bytes}
    (complete : findDoubleNewline (postHead framing) = some (postHead framing).length)
    (small : ((postHead framing).length : Int) < adj.maxRequestHeaderSize)
    (parsed : (exec (parseHeader adj (Bytes.lstrip (postHead framing))) {}).1 = .ok ())
    (carries : (postRequest adj framing).Carries wire body) :
    WellFramed adj (postHead framing) wire body (postRequest adj framing) :=
  ⟨complete, small, Prod.ext parsed rfl, carries⟩

/-- Three bytes are too many where three are allowed. -/
theorem limit_not_exact :
    ¬ ∀ [CPython] (adj : Adjustments) (head wire body following : Bytes) (request : RequestHead)
      (segments : List Bytes), WellFramed adj head wire body request → 1 ≤ adj.maxRequestBodySize →
      segments.flatten = head ++ (wire ++ following) →
      (((Feeding.consumer adj).feed {} segments).1.RejectedWith 413 ↔
        adj.maxRequestBodySize < body.length) := by
  intro claim
  have carries : (@postRequest .unchecked { maxRequestBodySize := 3 } "Content-Length: 3").Carries
      (ascii "abc") (ascii "abc") := by
    have given : (@postRequest .unchecked { maxRequestBodySize := 3 } "Content-Length: 3").bodyRcv =
        some (.fixed { remain := 3, buf := { overflow := 524288 } }) := by decide +kernel
    rw [RequestHead.Carries, given]
    exact ⟨rfl, by decide +kernel⟩
  have framed := @wellFramed_post .unchecked _ _ _ _ (by decide) (by decide) (by decide +kernel)
    carries
  have cut : [postHead "Content-Length: 3" ++ (ascii "abc" ++ [])].flatten =
      postHead "Content-Length: 3" ++ (ascii "abc" ++ []) := List.flatten_singleton
  have rejected := (@WellFramed.rejected_iff .unchecked _ _ _ _ _ framed (by decide) _ _ cut).mpr
    (by decide)
  exact absurd ((@claim .unchecked _ _ _ _ _ _ _ framed (by decide) cut).mp rejected) (by decide)

/-- The same body in one chunk of three bytes, where a hundred are allowed. -/
theorem limit_exact_chunked :
    ((@Feeding.consumer .unchecked { maxRequestBodySize := 100 }).feed {}
        [postHead "Transfer-Encoding: chunked", ascii "3\r\na", ascii "bc\r\n0\r\n\r\n"]
        ).1.RejectedWith 413 ↔ (100 : Int) < (ascii "abc").length := by
  have carries : (@postRequest .unchecked { maxRequestBodySize := 100 }
      "Transfer-Encoding: chunked").Carries (ascii "3\r\nabc\r\n0\r\n\r\n") (ascii "abc") := by
    have given : (@postRequest .unchecked { maxRequestBodySize := 100 }
        "Transfer-Encoding: chunked").bodyRcv =
        some (.chunked { buf := { overflow := 524288 } }) := by decide +kernel
    have size : ∀ digits : Bytes, IsChunkSize digits → LooseSizeLine digits (hexNumber digits) :=
      fun digits isSize => ⟨digits, [], [], isSize, .inl rfl, .inl rfl, by simp, rfl⟩
    rw [RequestHead.Carries, given]
    have last : ChunkedMessage LooseSizeLine [ascii "0"] (ascii "0" ++ crlf ++ crlf) [] :=
      .last (size _ (by decide)) (.inl rfl)
    exact ⟨_, .chunk (size (ascii "3") (by decide)) (show ascii "abc" ≠ [] by decide) last⟩
  have framed := @wellFramed_post .unchecked _ _ _ _ (by decide) (by decide) (by decide +kernel)
    carries
  exact (@WellFramed.limit_exact_iff .unchecked _ _ _ _ _ framed (by decide) _ [] (by decide)).mpr
    (.inr (by decide))

end Waitress
