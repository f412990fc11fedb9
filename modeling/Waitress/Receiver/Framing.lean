import Waitress.Receiver.Decoder
import Waitress.Receiver.Grammar

/-!
# Chunk framing

The decoder finishes exactly behind the messages of the loose grammar, and the
receiver therefore decodes what was encoded.
-/

namespace Waitress

namespace Decoder

theorem run_line {line : Bytes} (out after : Bytes) (noReturn : 13 ∉ line) :
    decoder.run (.sizeLine [] out) (line ++ crlf ++ after) =
      decoder.run (lineEnd line out) after := by
  have found : Search.find crlf (line ++ crlf ++ after) = some line.length :=
    Search.find_append_of_not_mem after noReturn
  have cut : (line ++ crlf ++ after).take line.length = line := by
    rw [List.append_assoc, List.take_left]
  have rest : (line ++ crlf ++ after).drop (line.length + 2) = after :=
    List.drop_left' (by simp [crlf])
  rw [run_sizeLine out _ (by decide), List.nil_append, found]
  simp only [cut, rest]

theorem run_chunk {chunk : Bytes} (out after : Bytes) (nonempty : chunk ≠ []) :
    decoder.run (.data chunk.length out) (chunk ++ crlf ++ after) =
      decoder.run (.sizeLine [] (out ++ chunk)) after := by
  rw [List.append_assoc, run_data out _ (List.length_pos_iff.mpr nonempty), if_neg (by simp),
    List.take_left, List.drop_left, run_chunkEnd _ _ (by decide), if_neg (by simp [crlf]),
    List.nil_append, if_pos (List.prefix_append _ _)]
  rfl

theorem run_isTrailer {text : Bytes} (out after : Bytes) (trailer : IsTrailer text) :
    decoder.run (.trailer [] out) (text ++ after) = (.finished out, after) := by
  rw [run_trailer out _ (by simp [crlf]) (by decide), List.nil_append]
  rcases trailer with rfl | ⟨open_, ends⟩
  · rw [if_pos (List.isPrefixOf_iff_prefix.mpr (List.prefix_append _ _))]
    rfl
  · have long := (findDoubleNewline_bounds ends).1
    have stillOpen : ¬ crlf.isPrefixOf (text ++ after) = true := by
      intro starts
      apply open_
      refine List.prefix_of_prefix_length_le (List.isPrefixOf_iff_prefix.mp starts)
        (List.prefix_append _ _) ?_
      simp only [crlf, List.length_cons, List.length_nil]
      omega
    rw [if_neg stillOpen, findDoubleNewline_append ends]
    simp only [List.drop_left]

theorem lineEnd_eq {line : Bytes} {size : Nat} (out : Bytes) (loose : LooseSizeLine line size) :
    lineEnd line out = if size = 0 then .trailer [] out else .data size out := by
  obtain ⟨x, rest, rfl, -⟩ := loose.head
  rw [lineEnd, if_neg (by simp), chunkSize_eq_ok_iff.mpr loose]
  cases size <;> rfl

theorem run_message {lines : List Bytes} {wire content : Bytes} (out rest : Bytes)
    (message : ChunkedMessage LooseSizeLine lines wire content) :
    decoder.run (.sizeLine [] out) (wire ++ rest) = (.finished (out ++ content), rest) := by
  induction message generalizing out with
  | blank _ inductionHypothesis =>
      rw [List.append_assoc, ← List.nil_append (crlf ++ _), ← List.append_assoc,
        run_line out _ (by simp)]
      exact inductionHypothesis out
  | chunk loose nonempty _ inductionHypothesis =>
      rw [List.append_assoc _ _ rest, run_line out _ loose.no_return, lineEnd_eq out loose,
        if_neg (by simpa using nonempty), List.append_assoc _ _ rest, run_chunk out _ nonempty,
        inductionHypothesis, List.append_assoc]
  | last loose trailer =>
      rw [List.append_assoc _ _ rest, run_line out _ loose.no_return, lineEnd_eq out loose,
        if_pos rfl, run_isTrailer out rest trailer, List.append_nil]

theorem trailer_of_run {out after final rest : Bytes}
    (finished : decoder.run (.trailer [] out) after = (.finished final, rest)) :
    ∃ text, after = text ++ rest ∧ IsTrailer text ∧ final = out := by
  rw [run_trailer out _ (by simp [crlf]) (by decide), List.nil_append] at finished
  split at finished
  · rename_i starts
    obtain ⟨tail, rfl⟩ := List.isPrefixOf_iff_prefix.mp starts
    obtain ⟨same, rfl⟩ := Prod.mk.inj finished
    exact ⟨crlf, rfl, .inl rfl, (Decoder.finished.inj same).symm⟩
  · rename_i open_
    split at finished
    · exact absurd (congrArg Prod.fst finished) (by simp)
    · rename_i pos found
      obtain ⟨same, rfl⟩ := Prod.mk.inj finished
      have bounds := findDoubleNewline_bounds found
      have length : (after.take pos).length = pos := List.length_take_of_le bounds.2
      refine ⟨after.take pos, (List.take_append_drop _ _).symm, .inr ⟨?_, ?_⟩,
        (Decoder.finished.inj same).symm⟩
      · exact fun starts => open_
          (List.isPrefixOf_iff_prefix.mpr (starts.trans (List.take_prefix _ _)))
      · rw [length]
        exact findDoubleNewline_take found

theorem chunk_of_run {size : Nat} {out after final rest : Bytes} (positive : 0 < size)
    (finished : decoder.run (.data size out) after = (.finished final, rest)) :
    ∃ chunk further, after = chunk ++ crlf ++ further ∧ size = chunk.length ∧
      decoder.run (.sizeLine [] (out ++ chunk)) further = (.finished final, rest) := by
  rw [run_data out _ positive] at finished
  split at finished
  · exact absurd (congrArg Prod.fst finished) (by simp)
  · rename_i enough
    rw [run_chunkEnd _ _ (by decide), List.nil_append] at finished
    split at finished
    · exact absurd (congrArg Prod.fst finished) (by simp)
    · split at finished
      · rename_i closed
        obtain ⟨further, closed⟩ := closed
        refine ⟨after.take size, further, ?_, (List.length_take_of_le (by omega)).symm, ?_⟩
        · rw [List.append_assoc, closed, List.take_append_drop]
        · rw [← finished, ← closed]
          rfl
      · exact absurd (congrArg Prod.fst finished) (by simp)

/-- What the decoder read when it finished is a message of the grammar.
Induction on the bytes in hand, one round of line and chunk after the other. -/
theorem message_of_run {out stream final rest : Bytes}
    (finished : decoder.run (.sizeLine [] out) stream = (.finished final, rest)) :
    ∃ lines wire content, stream = wire ++ rest ∧
      ChunkedMessage LooseSizeLine lines wire content ∧ final = out ++ content := by
  induction size : stream.length using Nat.strongRecOn generalizing stream out with
  | _ length inductionHypothesis =>
  subst size
  have run := run_sizeLine out stream (show Search.find crlf [] = none by decide)
  rw [List.nil_append, finished] at run
  cases found : Search.find crlf stream with
  | none =>
      simp only [found] at run
      exact absurd (congrArg Prod.fst run) (by simp)
  | some pos =>
      simp only [found] at run
      have split : stream = stream.take pos ++ crlf ++ stream.drop (pos + 2) :=
        Search.find_split found
      generalize stream.take pos = line at split run
      generalize stream.drop (pos + 2) = after at split run
      subst split
      have shorter : after.length < (line ++ crlf ++ after).length := by
        simp only [crlf, List.length_append, List.length_cons, List.length_nil]
        omega
      by_cases blank : line = []
      · subst blank
        obtain ⟨lines, wire, content, rfl, message, rfl⟩ :=
          inductionHypothesis _ shorter run.symm rfl
        exact ⟨lines, _, content, by simp, message.blank, rfl⟩
      cases accepted : ChunkedReceiver.chunkSize line with
      | error error =>
          simp only [lineEnd, if_neg blank, accepted] at run
          rw [decoder.run_broken (show decoder.broken .broken = true from rfl)] at run
          exact absurd (congrArg Prod.fst run) (by simp)
      | ok size =>
          have loose := chunkSize_eq_ok_iff.mp accepted
          rw [lineEnd_eq out loose] at run
          by_cases isLast : size = 0
          · subst isLast
            rw [if_pos rfl] at run
            obtain ⟨text, rfl, trailer, rfl⟩ := trailer_of_run run.symm
            exact ⟨[line], line ++ crlf ++ text, [], by simp, .last loose trailer, by simp⟩
          · rw [if_neg isLast] at run
            obtain ⟨chunk, further, rfl, rfl, continues⟩ := chunk_of_run (by omega) run.symm
            obtain ⟨lines, wire, content, rfl, message, rfl⟩ :=
              inductionHypothesis further.length (by simp at shorter ⊢; omega) continues rfl
            exact ⟨line :: lines, line ++ crlf ++ (chunk ++ crlf ++ wire), chunk ++ content,
              by simp, .chunk loose (by rintro rfl; exact isLast rfl) message, by simp⟩

end Decoder

structure Chunk where
  size : Bytes
  extension : Bytes
  content : Bytes
  isSize : IsChunkSize size
  isExtension : IsChunkExt extension
  announced : hexNumber size = content.length
  nonempty : content ≠ []

def Chunk.wire (chunk : Chunk) : Bytes :=
  chunk.size ++ chunk.extension ++ crlf ++ (chunk.content ++ crlf)

/-- A chunked message as a sender may write it: any chunks, a last chunk of
zeros and a trailer part. -/
structure ChunkedEncoding where
  chunks : List Chunk
  zeros : Bytes
  extension : Bytes
  trailer : Bytes
  isSize : zeros ≠ [] ∧ ∀ x ∈ zeros, x = 48
  isExtension : IsChunkExt extension
  isTrailer : trailer = [] ∨
    trailer ≠ [] ∧ ¬ crlf <+: trailer ∧ findDoubleNewline trailer = some trailer.length

namespace ChunkedEncoding

def content (encoding : ChunkedEncoding) : Bytes := encoding.chunks.flatMap Chunk.content

/-- The trailer part carries its own double newline unless it is empty. -/
def wire (encoding : ChunkedEncoding) : Bytes :=
  encoding.chunks.flatMap Chunk.wire ++
    (encoding.zeros ++ encoding.extension ++ crlf ++
      if encoding.trailer = [] then crlf else encoding.trailer)

theorem hexNumber_zeros {zeros : Bytes} (onlyZeros : ∀ x ∈ zeros, x = 48) :
    hexNumber zeros = 0 := by
  induction zeros with
  | nil => rfl
  | cons x zeros inductionHypothesis =>
      obtain rfl := onlyZeros x (by simp)
      exact inductionHypothesis fun y mem => onlyZeros y (by simp [mem])

theorem message (encoding : ChunkedEncoding) :
    ∃ lines, ChunkedMessage SizeLine lines encoding.wire encoding.content := by
  obtain ⟨chunks, zeros, extension, trailer, ⟨nonempty, onlyZeros⟩, isExtension, isTrailer⟩ :=
    encoding
  simp only [wire, content]
  induction chunks with
  | nil =>
      have isSize : IsChunkSize zeros :=
        ⟨nonempty, fun x mem => by rw [onlyZeros x mem]; decide⟩
      refine ⟨[zeros ++ extension],
        .last ⟨zeros, extension, isSize, isExtension, rfl, hexNumber_zeros onlyZeros⟩ ?_⟩
      rcases isTrailer with rfl | ⟨given, open_, ends⟩
      · exact .inl rfl
      · rw [if_neg given]
        exact .inr ⟨open_, ends⟩
  | cons chunk chunks inductionHypothesis =>
      obtain ⟨lines, rest⟩ := inductionHypothesis
      refine ⟨(chunk.size ++ chunk.extension) :: lines, ?_⟩
      simpa [Chunk.wire] using ChunkedMessage.chunk
        ⟨_, _, chunk.isSize, chunk.isExtension, rfl, chunk.announced⟩ chunk.nonempty rest

end ChunkedEncoding

namespace ChunkedReceiver

/-- However a message is cut, the receiver reads it and nothing more. -/
theorem feed_message {overflow : Int} {lines segments : List Bytes} {wire content following : Bytes}
    (message : ChunkedMessage LooseSizeLine lines wire content)
    (cut : segments.flatten = wire ++ following) :
    (consumer.feed (fresh overflow) segments).1.Follows (.finished content) ∧
      (consumer.feed (fresh overflow) segments).2 = wire.length := by
  have run : decoder.run (.sizeLine [] []) segments.flatten = (.finished content, following) := by
    rw [cut, Decoder.run_message [] following message, List.nil_append]
  obtain ⟨follows, broken | counted⟩ := feed_follows overflow segments run
  · exact absurd broken (by simp [Decoder.isBroken])
  · rw [cut, List.length_append] at counted
    exact ⟨follows, by omega⟩

/-- What the receiver has accepted is a message of the loose grammar. -/
theorem message_of_feed {overflow : Int} {segments : List Bytes}
    (completed : (consumer.feed (fresh overflow) segments).1.completed = true)
    (accepted : (consumer.feed (fresh overflow) segments).1.error = none) :
    ∃ lines wire following, segments.flatten = wire ++ following ∧
      ChunkedMessage LooseSizeLine lines wire
        (consumer.feed (fresh overflow) segments).1.buf.pending := by
  obtain ⟨state, following, run⟩ : ∃ state following,
      decoder.run (.sizeLine [] []) segments.flatten = (state, following) := ⟨_, _, rfl⟩
  obtain ⟨follows, -⟩ := feed_follows overflow segments run
  have unbroken : state ≠ .broken := by
    rintro rfl
    have error : (consumer.feed (fresh overflow) segments).1.error.isSome = true := follows
    rw [accepted] at error
    exact absurd error (by simp)
  rw [follows.completed_eq unbroken] at completed
  cases state with
  | finished content =>
      obtain ⟨lines, wire, content, whole, message, rfl⟩ := Decoder.message_of_run run
      rw [follows.2.2.pending]
      exact ⟨lines, wire, following, whole, message⟩
  | _ => exact absurd completed (by simp [Decoder.isFinished])

/-- Chunked decoding undoes chunked encoding, for every segmentation. -/
theorem feed_encoding (overflow : Int) (encoding : ChunkedEncoding) (following : Bytes)
    (segments : List Bytes) (cut : segments.flatten = encoding.wire ++ following) :
    (consumer.feed (fresh overflow) segments).1.completed = true ∧
      (consumer.feed (fresh overflow) segments).1.error = none ∧
      (consumer.feed (fresh overflow) segments).1.buf.Holds encoding.content ∧
      (consumer.feed (fresh overflow) segments).2 = encoding.wire.length := by
  obtain ⟨lines, message⟩ := encoding.message
  obtain ⟨⟨completed, accepted, holds⟩, consumed⟩ :=
    feed_message (message.imp fun _ _ _ => SizeLine.loose) cut
  exact ⟨completed, accepted, holds, consumed⟩

def sampleEncoding : ChunkedEncoding where
  chunks := [⟨ascii "A", ascii ";x=1", ascii "0123456789", by decide,
    ⟨[ascii ";x=1"], by
      rintro _ (_ | ⟨_, ⟨⟩⟩)
      exact ⟨ascii "x", by decide,
        .inr ⟨ascii "1", .inl (by decide), rfl⟩⟩, rfl⟩, by decide, by decide⟩]
  zeros := ascii "00"
  extension := []
  trailer := ascii "Name: value\r\n\r\n"
  isSize := ⟨by decide, by simp [ascii]⟩
  isExtension := isChunkExt_nil
  isTrailer := .inr (by decide)

theorem feed_encoding_sample :
    [ascii "A;x", ascii "=1\r", ascii "\n01234", ascii "56789\r", ascii "\n00\r\nName: value\r\n\r",
        ascii "\nGET"].flatten = sampleEncoding.wire ++ ascii "GET" ∧
      (consumer.feed (fresh 0) [ascii "A;x", ascii "=1\r", ascii "\n01234", ascii "56789\r",
        ascii "\n00\r\nName: value\r\n\r", ascii "\nGET"]).1.buf.Holds (ascii "0123456789") :=
  ⟨by decide, (feed_encoding 0 sampleEncoding (ascii "GET") _ (by decide)).2.2.1⟩

/-- If the receiver accepts what it was fed, then it consumed a chunked message
of the RFC and its buffer holds the content. -/
def AcceptsOnlyFraming (overflow : Int) (segments : List Bytes) : Prop :=
  (consumer.feed (fresh overflow) segments).1.completed = true →
    (consumer.feed (fresh overflow) segments).1.error = none →
      ∃ lines, ChunkedMessage SizeLine lines
        (segments.flatten.take (consumer.feed (fresh overflow) segments).2)
        (consumer.feed (fresh overflow) segments).1.buf.pending

/-- The stream starts with a message that is well formed but for a line feed
at the end of the digits or of the extensions of some size line. -/
def BareFeed (stream : Bytes) : Prop :=
  ∃ lines wire following content, stream = wire ++ following ∧
    ChunkedMessage LooseSizeLine lines wire content ∧ ∃ line ∈ lines, 10 ∈ line

theorem not_acceptsOnlyFraming {overflow : Int} {segments : List Bytes}
    (bare : BareFeed segments.flatten) : ¬ AcceptsOnlyFraming overflow segments := by
  obtain ⟨lines, wire, following, content, whole, message, line, mem, feed⟩ := bare
  obtain ⟨⟨completed, accepted, -⟩, consumed⟩ := feed_message message whole
  intro only
  obtain ⟨strictLines, strict⟩ := only completed accepted
  rw [consumed, whole, List.take_left] at strict
  obtain ⟨loose, noFeed⟩ := ChunkedMessage.strict_iff.mp strict
  rw [ChunkedMessage.lines_unique message loose (show wire ++ [] = wire ++ [] from rfl)] at mem
  exact noFeed line mem feed

/-- The receiver accepts only chunked messages of the RFC, unless the stream
has a bare line feed in a size line. -/
theorem acceptsOnlyFraming_iff (overflow : Int) (segments : List Bytes) :
    AcceptsOnlyFraming overflow segments ↔ ¬ BareFeed segments.flatten := by
  constructor
  · exact fun only bare => not_acceptsOnlyFraming bare only
  · intro noBare completed accepted
    obtain ⟨lines, wire, following, whole, message⟩ := message_of_feed completed accepted
    obtain ⟨-, consumed⟩ := feed_message message whole
    refine ⟨lines, ?_⟩
    rw [consumed, whole, List.take_left]
    refine ChunkedMessage.strict_iff.mpr ⟨message, fun line mem feed => noBare ?_⟩
    exact ⟨lines, wire, following, _, whole, message, line, mem, feed⟩

/-- A line feed behind the digits passes. -/
theorem not_acceptsOnlyFraming_bareFeed :
    ¬ AcceptsOnlyFraming 524288 [ascii "5\n\r\nhello\r\n0\r\n\r\n"] := by
  apply not_acceptsOnlyFraming
  have first : LooseSizeLine (ascii "5\n") (ascii "hello").length :=
    ⟨ascii "5", [10], [], by decide, .inr rfl, .inl rfl, rfl, by decide⟩
  have last : LooseSizeLine (ascii "0") 0 :=
    ⟨ascii "0", [], [], by decide, .inl rfl, .inl rfl, rfl, by decide⟩
  exact ⟨[ascii "5\n", ascii "0"], _, [], _, by decide,
    .chunk first (by decide) (.last last (.inl rfl)), ascii "5\n", by simp, by decide⟩

end ChunkedReceiver

end Waitress
