import Waitress.Buffers
import Waitress.RFC7230
import Waitress.Utilities

/-!
# Data chunk receivers

The two receivers of message bodies.  `received` takes a segment of the stream
and returns the new receiver with the number of bytes consumed.
-/

namespace Waitress

structure FixedStreamReceiver where
  remain : Nat
  buf : OverflowableBuffer
  completed : Bool := false
  deriving DecidableEq, Repr

namespace FixedStreamReceiver

def received (rcv : FixedStreamReceiver) (data : Bytes) : FixedStreamReceiver × Nat :=
  if rcv.remain < 1 then ({ rcv with completed := true }, 0)
  else if rcv.remain ≤ data.length then
    ({ remain := 0, buf := rcv.buf.append (data.take rcv.remain), completed := true }, rcv.remain)
  else
    ({ rcv with buf := rcv.buf.append data, remain := rcv.remain - data.length }, data.length)

end FixedStreamReceiver

structure ChunkedReceiver where
  buf : OverflowableBuffer
  chunkRemainder : Nat := 0
  validateChunkEnd : Bool := false
  controlLine : Bytes := []
  chunkEnd : Bytes := []
  allChunksReceived : Bool := false
  trailer : Bytes := []
  completed : Bool := false
  error : Option Error := none
  deriving DecidableEq, Repr

namespace ChunkedReceiver

def chunkSize (line : Bytes) : Except Error Nat :=
  let semi := Search.find (ascii ";") line
  let extinfo := line.drop (semi.getD line.length)
  let size := line.take (semi.getD line.length)
  if semi.isSome = true ∧ (matchLine chunkExtRe extinfo).isSome = false then
    .error (.badRequest "Invalid chunk extension".toList)
  else if (matchLine onlyHexdigRe size).isSome = false then
    .error (.badRequest "Invalid chunk size".toList)
  else .ok (int16 size)

/-- The loop of `received` on what is left of a segment of `origSize` bytes. -/
def receivedLoop (rcv : ChunkedReceiver) (origSize : Nat) (s : Bytes) : ChunkedReceiver × Nat :=
  if s = [] then (rcv, origSize)
  else if rcv.chunkRemainder > 0 then
    -- Receive the remainder of a chunk.
    let toWrite := s.take rcv.chunkRemainder
    let remainder := rcv.chunkRemainder - toWrite.length
    receivedLoop
      { rcv with
        buf := rcv.buf.append toWrite
        chunkRemainder := remainder
        validateChunkEnd := decide (remainder = 0) || rcv.validateChunkEnd }
      origSize (s.drop toWrite.length)
  else if rcv.validateChunkEnd = true then
    let text := rcv.chunkEnd ++ s
    let pos := Search.find crlf text
    if pos = none ∧ text.length < 2 then ({ rcv with chunkEnd := text }, origSize)
    else if pos = some 0 then
      receivedLoop { rcv with chunkEnd := [], validateChunkEnd := false } origSize (text.drop 2)
    else
      receivedLoop
        { rcv with
          chunkEnd := []
          validateChunkEnd := false
          error := some (.badRequest "Chunk not properly terminated".toList)
          allChunksReceived := true }
        origSize text
  else if rcv.allChunksReceived = false then
    -- Receive a control line.
    match Search.find crlf (rcv.controlLine ++ s) with
    | none => ({ rcv with controlLine := rcv.controlLine ++ s }, origSize)
    | some pos =>
        let line := (rcv.controlLine ++ s).take pos
        let rest := (rcv.controlLine ++ s).drop (pos + 2)
        if line = [] then receivedLoop { rcv with controlLine := [] } origSize rest
        else
          match chunkSize line with
          | .error error =>
              ({ rcv with controlLine := [], error := some error, allChunksReceived := true },
                origSize)
          | .ok sz =>
              receivedLoop
                { rcv with
                  controlLine := []
                  chunkRemainder := sz
                  allChunksReceived := decide (sz = 0) }
                origSize rest
  else
    -- Receive the trailer.
    let trailer := rcv.trailer ++ s
    if crlf.isPrefixOf trailer then
      ({ rcv with completed := true }, origSize - (trailer.length - 2))
    else
      match findDoubleNewline trailer with
      | none => ({ rcv with trailer }, origSize)
      | some pos =>
          ({ rcv with completed := true, trailer := trailer.take pos },
            origSize - (trailer.length - pos))
termination_by
  2 * (rcv.controlLine.length + rcv.chunkEnd.length + s.length) +
    (if rcv.validateChunkEnd = true then 1 else 0)
decreasing_by
  all_goals
    have nonempty := List.length_pos_iff.mpr ‹¬ s = []›
    simp only [List.length_drop, List.length_append, List.length_take, List.length_nil]
    grind

def received (rcv : ChunkedReceiver) (s : Bytes) : ChunkedReceiver × Nat :=
  if rcv.completed = true then (rcv, 0) else receivedLoop rcv s.length s

end ChunkedReceiver

inductive Receiver where
  | fixed (rcv : FixedStreamReceiver)
  | chunked (rcv : ChunkedReceiver)
  deriving DecidableEq, Repr

namespace Receiver

def received : Receiver → Bytes → Receiver × Nat
  | .fixed rcv, data => (.fixed (rcv.received data).1, (rcv.received data).2)
  | .chunked rcv, data => (.chunked (rcv.received data).1, (rcv.received data).2)

def completed : Receiver → Bool
  | .fixed rcv => rcv.completed
  | .chunked rcv => rcv.completed

def error : Receiver → Option Error
  | .fixed _ => none
  | .chunked rcv => rcv.error

def getbuf : Receiver → OverflowableBuffer
  | .fixed rcv => rcv.buf
  | .chunked rcv => rcv.buf

def len (rcv : Receiver) : Int := rcv.getbuf.len

def getfile (rcv : Receiver) : File := rcv.getbuf.getfile.1

end Receiver

end Waitress
