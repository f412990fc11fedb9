import Waitress.Parser.Received
import Waitress.Parser.Segmentation

/-!
# The parser advances

A call of `received` on a parser that is not finished consumes at least one byte
of its segment and no more than all of it, also when it ends with an error.
-/

namespace Waitress

open Raising

namespace ChunkedReceiver

/-- What is remembered from earlier segments is an unfinished piece. -/
structure Open (rcv : ChunkedReceiver) : Prop where
  line : Search.find crlf rcv.controlLine = none
  chunkEnd : rcv.chunkEnd.length < 2
  noCrlf : ¬ crlf <+: rcv.trailer
  trailer : findDoubleNewline rcv.trailer = none
  early : rcv.allChunksReceived = false → rcv.trailer = []
  inChunk : 0 < rcv.chunkRemainder ∨ rcv.validateChunkEnd = true → rcv.allChunksReceived = false

theorem Follows.open_ {rcv : ChunkedReceiver} {state : Decoder} (follows : rcv.Follows state)
    (unfinished : state.isFinished = false) (unbroken : state.isBroken = false) : rcv.Open := by
  have noCrlf : ¬ crlf <+: ([] : Bytes) := by decide
  have noDouble : findDoubleNewline [] = none := by decide
  have noLine : Search.find crlf ([] : Bytes) = none := by decide
  cases state with
  | sizeLine line out =>
      obtain ⟨open_, buf, -, rfl⟩ := follows
      exact ⟨open_, Nat.two_pos, noCrlf, noDouble, fun _ => rfl, fun _ => rfl⟩
  | data remainder out =>
      obtain ⟨-, buf, -, rfl⟩ := follows
      exact ⟨noLine, Nat.two_pos, noCrlf, noDouble, fun _ => rfl, fun _ => rfl⟩
  | chunkEnd seen out =>
      obtain ⟨short, buf, -, rfl⟩ := follows
      exact ⟨noLine, short, noCrlf, noDouble, fun _ => rfl, fun _ => rfl⟩
  | trailer text out =>
      obtain ⟨start, open_, buf, -, rfl⟩ := follows
      exact ⟨noLine, Nat.two_pos, start, open_, by simp, by simp⟩
  | finished out => cases unfinished
  | broken => cases unbroken

/-- The loop behind a bad chunk end.  One of the bytes in hand may have come with an
earlier segment. -/
theorem receivedLoop_badEnd_advances {rcv : ChunkedReceiver} {origSize : Nat} {s : Bytes}
    (chunks : rcv.allChunksReceived = true) (outside : rcv.chunkRemainder = 0)
    (validated : rcv.validateChunkEnd = false) (nothing : rcv.trailer = [])
    (noCrlf : ¬ crlf <+: s) (positive : 0 < origSize) (inside : s.length ≤ origSize + 1) :
    0 < (receivedLoop rcv origSize s).2 ∧ (receivedLoop rcv origSize s).2 ≤ origSize := by
  rw [receivedLoop]
  by_cases empty : s = []
  · rw [if_pos empty]
    exact ⟨positive, Nat.le_refl _⟩
  rw [if_neg empty, if_neg (by omega), if_neg (by simp [validated]), if_neg (by simp [chunks])]
  dsimp only
  rw [nothing, List.nil_append, if_neg (by simpa using noCrlf)]
  cases found : findDoubleNewline s with
  | none => exact ⟨positive, Nat.le_refl _⟩
  | some pos =>
      have bounds := findDoubleNewline_bounds found
      exact ⟨by dsimp only; omega, Nat.sub_le _ _⟩

/-- Induction on the rounds of the loop.  No round finds more in hand than the
segment has, but for the byte of a bad chunk end that came earlier. -/
theorem receivedLoop_advances {rcv : ChunkedReceiver} (origSize : Nat) (s : Bytes)
    (isOpen : rcv.Open) (positive : 0 < origSize) (inside : s.length ≤ origSize) :
    0 < (receivedLoop rcv origSize s).2 ∧ (receivedLoop rcv origSize s).2 ≤ origSize := by
  have whole : 0 < origSize ∧ origSize ≤ origSize := ⟨positive, Nat.le_refl _⟩
  have noLine : Search.find crlf ([] : Bytes) = none := by decide
  fun_induction receivedLoop rcv origSize s with
  | case1 => exact whole
  | case2 rcv s nonempty inChunk toWrite remainder ih =>
      obtain ⟨line, chunkEnd, noCrlf, trailer, early, sound⟩ := isOpen
      refine ih ⟨line, chunkEnd, noCrlf, trailer, early, fun _ => sound (.inl inChunk)⟩ ?_
      rw [List.length_drop]
      omega
  | case3 => exact whole
  | case4 rcv s nonempty outside validate text pos notShort first ih =>
      obtain ⟨line, chunkEnd, noCrlf, trailer, early, sound⟩ := isOpen
      refine ih ⟨line, Nat.two_pos, noCrlf, trailer, early, fun _ => sound (.inr validate)⟩ ?_
      rw [List.length_drop, List.length_append]
      omega
  | case5 rcv s nonempty outside validate text pos notShort notFirst ih =>
      have short := isOpen.chunkEnd
      have length : text.length = rcv.chunkEnd.length + s.length := List.length_append
      refine receivedLoop_badEnd_advances rfl (Nat.eq_zero_of_not_pos outside) rfl
        (isOpen.early (isOpen.inChunk (.inr validate))) ?_ positive (by omega)
      intro start
      exact notFirst (Search.find_eq_some_iff.mpr ⟨by simpa using start, by simp⟩)
  | case6 => exact whole
  | case7 rcv s nonempty outside validated running pos found line rest blank ih =>
      obtain ⟨open_, chunkEnd, noCrlf, trailer, early, sound⟩ := isOpen
      have late := Search.length_lt_of_find_append open_ found
      refine ih ⟨noLine, chunkEnd, noCrlf, trailer, early, sound⟩ ?_
      rw [List.length_drop, List.length_append]
      have crlfLength : crlf.length = 2 := rfl
      omega
  | case8 => exact whole
  | case9 rcv s nonempty outside validated running pos found line rest notBlank sz size ih =>
      obtain ⟨open_, chunkEnd, noCrlf, trailer, early, sound⟩ := isOpen
      have late := Search.length_lt_of_find_append open_ found
      refine ih ⟨noLine, chunkEnd, noCrlf, trailer, fun _ => early running, ?_⟩ ?_
      · rintro (more | validate)
        · exact decide_eq_false (Nat.ne_of_gt more)
        · exact absurd validate validated
      · rw [List.length_drop, List.length_append]
        have crlfLength : crlf.length = 2 := rfl
        omega
  | case10 rcv s nonempty outside validated received trailer starts =>
      have length : trailer.length = rcv.trailer.length + s.length := List.length_append
      have short : rcv.trailer.length < 2 := by
        by_contra long
        apply isOpen.noCrlf
        exact List.prefix_of_prefix_length_le (List.isPrefixOf_iff_prefix.mp starts)
          (List.prefix_append _ _) (Nat.le_of_not_lt long)
      exact ⟨by dsimp only; omega, Nat.sub_le _ _⟩
  | case11 => exact whole
  | case12 rcv s nonempty outside validated received trailer noStart pos found =>
      have length : trailer.length = rcv.trailer.length + s.length := List.length_append
      have late := findDoubleNewline_late isOpen.trailer found
      have sPositive := List.length_pos_iff.mpr nonempty
      exact ⟨by dsimp only; omega, Nat.sub_le _ _⟩

end ChunkedReceiver

namespace Receiver

/-- A receiver that is neither finished nor broken. -/
def Expecting (rcv : Receiver) : Prop :=
  ∃ state : Body, rcv.Follows state ∧ state.isFinished = false ∧ state.isBroken = false

theorem Expecting.advances {rcv : Receiver} (expecting : rcv.Expecting) {segment : Bytes}
    (nonempty : segment ≠ []) :
    0 < (rcv.received segment).2 ∧ (rcv.received segment).2 ≤ segment.length := by
  obtain ⟨state, follows, unfinished, unbroken⟩ := expecting
  have running := (follows.status.2 unbroken).2.trans unfinished
  have positive := List.length_pos_iff.mpr nonempty
  match rcv, state, follows with
  | .fixed rcv, .fixed remain content, follows =>
      have some : 0 < rcv.remain := by
        rw [follows.1]
        exact Nat.pos_of_ne_zero (by simpa [Body.isFinished] using unfinished)
      simp only [received, FixedStreamReceiver.received]
      rw [if_neg (by omega)]
      split
      · exact ⟨some, by assumption⟩
      · exact ⟨positive, Nat.le_refl _⟩
  | .chunked rcv, .chunked state, follows =>
      rw [received, ChunkedReceiver.received, if_neg (by simpa [completed] using running)]
      exact ChunkedReceiver.receivedLoop_advances _ _ (follows.open_ unfinished unbroken) positive
        (Nat.le_refl _)

theorem Expecting.received {rcv : Receiver} (expecting : rcv.Expecting) {segment : Bytes}
    (nonempty : segment ≠ []) (noError : (rcv.received segment).1.error = none)
    (running : (rcv.received segment).1.completed = false) :
    (rcv.received segment).1.Expecting := by
  obtain ⟨state, follows, unfinished, unbroken⟩ := expecting
  obtain ⟨next, nextFollows, -⟩ :=
    received_follows follows ((follows.status.2 unbroken).2.trans unfinished) nonempty
  have sound : next.isBroken = false := by
    by_contra broken
    have error := nextFollows.status.1 (by simpa using broken)
    rw [noError] at error
    cases error
  exact ⟨next, nextFollows, (nextFollows.status.2 sound).2.symm.trans running, sound⟩

theorem expecting_chunked (overflow : Int) :
    Expecting (.chunked { buf := { overflow } }) :=
  ⟨.chunked (.sizeLine [] []), ChunkedReceiver.fresh_follows overflow, rfl, rfl⟩

theorem expecting_fixed {remain : Nat} (overflow : Int) (positive : 0 < remain) :
    Expecting (.fixed { remain, buf := { overflow } }) := by
  have some : ¬ remain = 0 := Nat.ne_of_gt positive
  exact ⟨.fixed remain [],
    ⟨rfl, by simp [some], ⟨OverflowableBuffer.fresh_valid _, rfl⟩⟩, by simp [Body.isFinished, some],
    rfl⟩

end Receiver

/-! ### The parser -/

/-- A receiver that the head has made expects data. -/
def RequestHead.Expecting (head : RequestHead) : Prop :=
  ∀ rcv, head.bodyRcv = some rcv → rcv.Expecting

theorem parseHeader_keepsExpecting [CPython] (adj : Adjustments) (block : Bytes) :
    Within (Keeps RequestHead.Expecting) (parseHeader adj block) := by
  change Within (Keeps (RequestHead.Makes Receiver.Expecting)) (parseHeader adj block)
  apply parseHeader_keepsMakes
  · exact Receiver.expecting_chunked _
  · exact fun _ positive => Receiver.expecting_fixed _ positive

namespace HTTPRequestParser

structure Expecting (parser : HTTPRequestParser) : Prop where
  headerPlus : findDoubleNewline parser.headerPlus = none
  head : parser.toRequestHead.Expecting

theorem expecting_new : Expecting {} := ⟨by decide, fun _ none => by cases none⟩

theorem Expecting.of_same {before after : HTTPRequestParser} (expecting : before.Expecting)
    (headerPlus : after.headerPlus = before.headerPlus)
    (bodyRcv : after.bodyRcv = before.bodyRcv) : after.Expecting where
  headerPlus := by rw [headerPlus]; exact expecting.headerPlus
  head rcv given := expecting.head rcv (bodyRcv.symm.trans given)

theorem Expecting.runParseHeader [CPython] {parser : HTTPRequestParser}
    (expecting : parser.Expecting) (adj : Adjustments) (block : Bytes) :
    (parser.runParseHeader adj block).1.Expecting where
  headerPlus := expecting.headerPlus
  head := parseHeader_keepsExpecting adj block parser.toRequestHead expecting.head

theorem Expecting.receivedHead [CPython] {parser : HTTPRequestParser}
    (expecting : parser.Expecting) (adj : Adjustments) (headerPlus : Bytes) :
    (parser.receivedHead adj headerPlus).1.Expecting := by
  unfold HTTPRequestParser.receivedHead
  split
  · exact expecting.of_same rfl rfl
  have parsed := expecting.runParseHeader adj headerPlus
  generalize parser.runParseHeader adj headerPlus = outcome at parsed ⊢
  obtain ⟨after, exc | _⟩ := outcome
  · cases exc with
    | parsingError message => exact parsed.of_same rfl rfl
    | transferEncodingNotImplemented message => exact parsed.of_same rfl rfl
    | _ => exact parsed
  · dsimp only
    split
    · exact parsed.of_same rfl rfl
    · exact parsed.of_same rfl rfl

theorem Expecting.received_inHead [CPython] {parser : HTTPRequestParser}
    (expecting : parser.Expecting) (adj : Adjustments) {data : Bytes} (nonempty : data ≠ [])
    (running : parser.completed = false) (inHead : parser.bodyRcv = none) :
    (parser.received adj data).1.Expecting ∧
      ∀ n, (parser.received adj data).2 = .ok n → 0 < n ∧ n ≤ data.length := by
  have positive := List.length_pos_iff.mpr nonempty
  have length : (parser.headerPlus ++ data).length = parser.headerPlus.length + data.length :=
    List.length_append
  have advances : 0 < data.length - ((parser.headerPlus ++ data).length -
        (findDoubleNewline (parser.headerPlus ++ data)).getD (parser.headerPlus ++ data).length) ∧
      data.length - ((parser.headerPlus ++ data).length -
        (findDoubleNewline (parser.headerPlus ++ data)).getD (parser.headerPlus ++ data).length) ≤
          data.length := by
    refine ⟨?_, Nat.sub_le _ _⟩
    cases found : findDoubleNewline (parser.headerPlus ++ data) with
    | none =>
        rw [Option.getD_none]
        omega
    | some index =>
        have late := findDoubleNewline_late expecting.headerPlus found
        rw [Option.getD_some]
        omega
  unfold HTTPRequestParser.received
  rw [if_neg (by simp [running]), inHead]
  dsimp only
  generalize (findDoubleNewline (parser.headerPlus ++ data)).getD
    (parser.headerBytesReceived + data.length) = headerBytesReceived
  have counted : Expecting { parser with headerBytesReceived } := expecting.of_same rfl rfl
  split
  · have stub := counted.runParseHeader adj (ascii "GET / HTTP/1.0\r\n")
    generalize HTTPRequestParser.runParseHeader adj _ _ = outcome at stub ⊢
    obtain ⟨after, exc | _⟩ := outcome
    · exact ⟨stub, fun n returned => by cases returned⟩
    · refine ⟨stub.of_same rfl rfl, fun n returned => ?_⟩
      cases returned
      exact advances
  · cases found : findDoubleNewline (parser.headerPlus ++ data) with
    | none =>
        refine ⟨⟨found, counted.head⟩, fun n returned => ?_⟩
        cases returned
        exact ⟨positive, Nat.le_refl _⟩
    | some index =>
        rw [found] at advances
        have ended := counted.receivedHead adj
          (Bytes.lstrip ((parser.headerPlus ++ data).take index))
        dsimp only
        generalize HTTPRequestParser.receivedHead adj _ _ = outcome at ended ⊢
        obtain ⟨after, exc | _⟩ := outcome
        · exact ⟨ended, fun n returned => by cases returned⟩
        · refine ⟨ended, fun n returned => ?_⟩
          cases returned
          exact advances

theorem Expecting.received_inBody [CPython] {parser : HTTPRequestParser}
    (expecting : parser.Expecting) (adj : Adjustments) {data : Bytes} (nonempty : data ≠ [])
    (running : parser.completed = false) {rcv : Receiver} (inBody : parser.bodyRcv = some rcv) :
    ((parser.received adj data).1.completed = false → (parser.received adj data).1.Expecting) ∧
      (parser.received adj data).1.expectContinue = parser.expectContinue ∧
      (parser.received adj data).1.headersFinished = parser.headersFinished ∧
      ∀ n, (parser.received adj data).2 = .ok n → 0 < n ∧ n ≤ data.length := by
  have rcvExpects := expecting.head rcv inBody
  have advances := rcvExpects.advances nonempty
  unfold HTTPRequestParser.received
  rw [if_neg (by simp [running]), inBody]
  dsimp only
  unfold HTTPRequestParser.receivedBody
  dsimp only
  split
  · refine ⟨fun done => Bool.noConfusion done, rfl, rfl, fun n returned => ?_⟩
    cases returned
    exact advances
  split
  · refine ⟨fun done => Bool.noConfusion done, rfl, rfl, fun n returned => ?_⟩
    cases returned
    exact advances
  rename_i noError
  split
  · refine ⟨fun done => Bool.noConfusion done, rfl, rfl, fun n returned => ?_⟩
    cases returned
    exact advances
  rename_i unfinished
  refine ⟨fun _ => ⟨expecting.headerPlus, fun next given => ?_⟩, rfl, rfl, fun n returned => ?_⟩
  · cases given
    exact rcvExpects.received nonempty (by simpa using noError) (by simpa using unfinished)
  · cases returned
    exact advances

end HTTPRequestParser

end Waitress
