import Waitress.Adjustments
import Waitress.Buffers
import Waitress.Library.Raising

/-!
# The output path of a channel

What the socket is going to answer is part of the state; when the answers are
used up, a send would block.  An operation under `outbuf_lock` is one function.
-/

namespace Waitress

structure ChannelContext where
  adj : Adjustments := {}
  /-- The size of the send buffer of the socket. -/
  sendbufLen : Nat := 65536

inductive Outbuf where
  | overflowable (buffer : OverflowableBuffer)
  | readOnlyFile (buffer : ReadOnlyFileBasedBuffer)
  deriving DecidableEq, Repr

namespace Outbuf

def len : Outbuf → Int
  | .overflowable buffer => buffer.len
  | .readOnlyFile buffer => buffer.remain

/-- `get(numbytes)`, which leaves the buffer as it is. -/
def get (outbuf : Outbuf) (numbytes : Nat) : Bytes :=
  match outbuf with
  | .overflowable buffer => (buffer.get numbytes false).1
  | .readOnlyFile buffer => (buffer.get numbytes false).1

def skip (outbuf : Outbuf) (numbytes : Nat) (allowPrune : Bool) : Except Exc Unit × Outbuf :=
  match outbuf with
  | .overflowable buffer =>
      ((buffer.skip numbytes allowPrune).1, .overflowable (buffer.skip numbytes allowPrune).2)
  | .readOnlyFile buffer => ((buffer.skip numbytes).1, .readOnlyFile (buffer.skip numbytes).2)

def append (data : Bytes) : Outbuf → Except Exc Outbuf
  | .overflowable buffer =>
      if buffer.isClosed = true then .error .valueError
      else .ok (.overflowable (buffer.append data))
  | .readOnlyFile _ => .error .exception

def close : Outbuf → Outbuf
  | .overflowable buffer => .overflowable buffer.close
  | .readOnlyFile buffer => .readOnlyFile buffer.close

end Outbuf

inductive SendResult where
  | sent (n : Nat)
  | wouldBlock
  | disconnected
  | raises (exc : Exc)
  deriving DecidableEq, Repr

/-- The attributes of a channel that its output path works on. -/
structure Output where
  outbufs : List Outbuf
  totalOutbufsLen : Int := 0
  currentOutbufCount : Int := 0
  connected : Bool := true
  /-- `handle_close` has run, so that the channel has no socket any more. -/
  closed : Bool := false
  /-- `outbuf_lock.notify()` was called. -/
  notified : Bool := false
  willClose : Bool := false
  closeWhenFlushed : Bool := false
  sentContinue : Bool := false
  /-- What the socket is going to answer. -/
  socket : List SendResult := []
  /-- The bytes that the socket has accepted. -/
  accepted : Bytes := []
  /-- The payloads that were written. -/
  written : Bytes := []
  deriving DecidableEq, Repr

abbrev OutputM := Raising Exc Output

def newOutbuf (context : ChannelContext) : Outbuf :=
  .overflowable { overflow := context.adj.outbufOverflow }

def Output.new (context : ChannelContext) (socket : List SendResult) : Output :=
  { outbufs := [newOutbuf context], socket }

namespace Output

/-- `handle_close`, which also closes the socket. -/
def handleClose (out : Output) : Output :=
  { out with
    outbufs := out.outbufs.map Outbuf.close
    totalOutbufsLen := 0
    connected := false
    closed := true
    notified := true }

/-- The attributes as an operation finds them: without a socket every send raises. -/
def answering (out : Output) : Output :=
  { out with socket := if out.closed = true then [.raises .attributeError] else out.socket }

def appendLast (data : Bytes) : List Outbuf → Except Exc (List Outbuf)
  | [] => .error .indexError
  | [outbuf] => (outbuf.append data).map fun outbuf => [outbuf]
  | first :: second :: rest => (appendLast data (second :: rest)).map (first :: ·)

end Output

section Flushing

variable (context : ChannelContext)

inductive Sending where
  | emptied
  | blocked
  | raised (exc : Exc)
  deriving DecidableEq, Repr

def Output.progress (out : Output) (outbuf : Outbuf) (rest : List Outbuf) (chunk : Bytes)
    (numSent : Nat) : Output :=
  { out with
    outbufs := (outbuf.skip numSent true).2 :: rest
    totalOutbufsLen := out.totalOutbufsLen - numSent
    accepted := out.accepted ++ chunk.take numSent }

/-- The loop that sends the first outbuf, of which `outbuflen` bytes are left. -/
def sendLoop (doClose : Bool) : List SendResult → Int → Output → Sending × Output
  | socket, outbuflen, out =>
      if outbuflen ≤ 0 then (.emptied, { out with socket })
      else
        match out.outbufs with
        | [] => (.raised .indexError, { out with socket })
        | outbuf :: rest =>
            match socket with
            | [] => (.blocked, { out with socket := [] })
            | .wouldBlock :: answers => (.blocked, { out with socket := answers })
            | .disconnected :: answers =>
                (.blocked,
                  if doClose = true then { out.handleClose with socket := answers }
                  else { out with socket := answers })
            | .raises exc :: answers => (.raised exc, { out with socket := answers })
            | .sent n :: answers =>
                let chunk := outbuf.get context.sendbufLen
                let numSent := min n chunk.length
                if numSent = 0 then (.blocked, { out with socket := answers })
                else
                  match (outbuf.skip numSent true).1 with
                  | .error exc =>
                      (.raised exc,
                        { out with socket := answers, accepted := out.accepted ++ chunk.take numSent })
                  | .ok () =>
                      sendLoop doClose answers (outbuflen - numSent)
                        (out.progress outbuf rest chunk numSent)

def flushLoop (doClose : Bool) : Nat → OutputM Unit
  | 0 => throw .indexError
  | count + 1 => do
      let out ← get
      let outbuflen := (out.outbufs.head?.map Outbuf.len).getD 0
      let (sending, after) := sendLoop context doClose out.socket outbuflen out
      modify fun _ => after
      match sending with
      | .raised exc => throw exc
      | .blocked => pure ()
      | .emptied =>
          if count = 0 then pure ()
          else do
            modify fun out => { out with outbufs := out.outbufs.tail }
            flushLoop doClose count

/-- `_flush_some`; the result tells whether anything was sent. -/
def flushSome (doClose : Bool) : OutputM Bool := do
  let before := (← get).accepted.length
  flushLoop context doClose (← get).outbufs.length
  return decide (before < (← get).accepted.length)

/-- `_flush_exception(self._flush_some, do_close)`: was anything flushed, was anything raised? -/
def flushException (doClose : Bool) : OutputM (Bool × Bool) :=
  tryCatch (do
    let flushed ← flushSome context doClose
    return (flushed, false)) fun _ => do
      modify fun out => { out with willClose := true }
      return (false, true)

/-- `_flush_outbufs_below_high_watermark` up to where it would wait for the main
thread; the result tells whether it has to. -/
def flushOutbufsBelowHighWatermark : OutputM Bool := do
  if (← get).totalOutbufsLen > context.adj.outbufHighWatermark then
    let (_, exception) ← flushException context false
    let out ← get
    return exception ||
      (out.connected && decide (out.totalOutbufsLen > context.adj.outbufHighWatermark))
  else return false

/-- How `_flush_outbufs_below_high_watermark` ends or gets to a wait; `raised` says
that it returns from there without another look. -/
inductive Below where
  | below
  | waits (raised : Bool)
  deriving DecidableEq, Repr

def flushUnderLock : OutputM Below := do
  let (_, exception) ← flushException context false
  let out ← get
  if exception = true then return .waits true
  else if out.connected = true ∧ out.totalOutbufsLen > context.adj.outbufHighWatermark then
    return .waits false
  else return .below

def flushBelow : OutputM Below := do
  if (← get).totalOutbufsLen > context.adj.outbufHighWatermark then flushUnderLock context
  else return .below

end Flushing

inductive Payload where
  | bytes (data : Bytes)
  | file (data : ReadOnlyFileBasedBuffer)
  deriving DecidableEq, Repr

def Payload.isTrue : Payload → Bool
  | .bytes data => !data.isEmpty
  | .file _ => true

/-- The bytes that the payload stands for. -/
def Payload.content : Payload → Bytes
  | .bytes data => data
  | .file data => (data.file.data.drop data.file.pos).take data.remain.toNat

section Writing

variable (context : ChannelContext)

/-- A new outbuf if the current one has hit the watermark. -/
def rotate (out : Output) : Output :=
  if out.currentOutbufCount ≥ context.adj.outbufHighWatermark then
    { out with outbufs := out.outbufs ++ [newOutbuf context], currentOutbufCount := 0 }
  else out

def appendBytes (data : Bytes) : OutputM Unit := do
  modify (rotate context)
  let outbufs ← MonadExcept.ofExcept (Output.appendLast data (← get).outbufs)
  modify fun out =>
    { out with
      outbufs
      currentOutbufCount := out.currentOutbufCount + data.length
      totalOutbufsLen := out.totalOutbufsLen + data.length
      written := out.written ++ data }

def appendFile (data : ReadOnlyFileBasedBuffer) : OutputM Unit :=
  -- `len` of a negative number raises.
  if data.remain < 0 then throw .valueError
  else
    modify fun out =>
      { out with
        outbufs := out.outbufs ++ [.readOnlyFile data, newOutbuf context]
        currentOutbufCount := 0
        totalOutbufsLen := out.totalOutbufsLen + data.remain
        written := out.written ++ (Payload.file data).content }

def appendPayload : Payload → OutputM Unit
  | .bytes data => appendBytes context data
  | .file data => appendFile context data

/-- The part of `write_soon` behind the wait. -/
def appendSoon (data : Payload) : OutputM Unit := do
  if (← get).connected = false then throw .clientDisconnected
  else do
    appendPayload context data
    if (← get).totalOutbufsLen ≥ context.adj.sendBytes then do
      let _flushed ← flushException context false
      pure ()
    else pure ()

/-- `write_soon` up to where it would wait, else to its end. -/
def writeSoonOutput (data : Payload) : OutputM Unit := do
  if (← get).connected = false then throw .clientDisconnected
  else if data.isTrue = false then pure ()
  else do
    let waits ← flushOutbufsBelowHighWatermark context
    if waits = true then pure () else appendSoon context data

def continueLine : Bytes := ascii "HTTP/1.1 100 Continue\r\n\r\n"

/-- The part of `send_continue` under the lock. -/
def sendContinueOutput : OutputM Unit := do
  let outbufs ← MonadExcept.ofExcept (Output.appendLast continueLine (← get).outbufs)
  modify fun out =>
    { out with
      outbufs
      currentOutbufCount := out.currentOutbufCount + continueLine.length
      totalOutbufsLen := out.totalOutbufsLen + continueLine.length
      written := out.written ++ continueLine
      sentContinue := true }
  let _flushed ← flushSome context true
  pure ()

/-- The notification behind a flush that has not raised. -/
def Output.notifyIfBelow (exception : Bool) (out : Output) : Output :=
  if exception = false ∧ out.totalOutbufsLen < context.adj.outbufHighWatermark then
    { out with notified := true }
  else out

/-- The first part of `handle_write`: `idle` says that there are no requests,
`lockable` that no task holds the lock. -/
def flushWrite (idle lockable : Bool) : OutputM Unit := do
  let out ← get
  if idle = true then do
    let _flushed ← flushException context true
    pure ()
  else if lockable = true ∧ out.totalOutbufsLen ≥ context.adj.sendBytes then do
    let (_, exception) ← flushException context true
    modify (Output.notifyIfBelow context exception)
  else pure ()

def Output.handOver (out : Output) : Output :=
  if out.closeWhenFlushed = true ∧ out.totalOutbufsLen = 0 then
    { out with closeWhenFlushed := false, willClose := true }
  else out

def Output.closeIfWillClose (out : Output) : Output :=
  if out.willClose = true then out.handleClose else out

def handleWrite (idle lockable : Bool) : OutputM Unit := do
  flushWrite context idle lockable
  modify Output.handOver
  modify Output.closeIfWillClose

end Writing

end Waitress
