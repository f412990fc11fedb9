import Waitress.Buffers.Fifo
import Waitress.Channel.Output
import Waitress.Library.Transition

/-!
# The output path loses nothing

While the channel is connected, the bytes that the socket has accepted and the
contents of the outbufs make up the payloads that were written.
-/

namespace Waitress

open Raising

namespace Outbuf

def pending : Outbuf → Bytes
  | .overflowable buffer => buffer.pending
  | .readOnlyFile buffer => buffer.pending

def Valid : Outbuf → Prop
  | .overflowable buffer => buffer.Valid
  | .readOnlyFile buffer => buffer.Valid

theorem len_eq {outbuf : Outbuf} (valid : outbuf.Valid) : outbuf.len = outbuf.pending.length := by
  cases outbuf with
  | overflowable buffer => exact OverflowableBuffer.len_eq valid
  | readOnlyFile buffer => exact ReadOnlyFileBasedBuffer.remain_eq valid

theorem get_prefix {outbuf : Outbuf} (valid : outbuf.Valid) (numbytes : Nat) :
    outbuf.get numbytes <+: outbuf.pending := by
  cases outbuf with
  | overflowable buffer => exact (OverflowableBuffer.get_spec buffer numbytes).2.1
  | readOnlyFile buffer => exact (ReadOnlyFileBasedBuffer.get_spec valid numbytes).2

theorem skip_spec {outbuf : Outbuf} (valid : outbuf.Valid) {numbytes : Nat}
    (enough : numbytes ≤ outbuf.pending.length) :
    (outbuf.skip numbytes true).1 = .ok () ∧ (outbuf.skip numbytes true).2.Valid ∧
      (outbuf.skip numbytes true).2.pending = outbuf.pending.drop numbytes := by
  cases outbuf with
  | overflowable buffer => exact OverflowableBuffer.skip_spec valid enough true
  | readOnlyFile buffer => exact ReadOnlyFileBasedBuffer.skip_spec valid enough

/-- A chunk that was sent is the front of what was pending. -/
theorem take_get_append {outbuf : Outbuf} (valid : outbuf.Valid) {numbytes numSent : Nat}
    (sent : numSent ≤ (outbuf.get numbytes).length) :
    (outbuf.get numbytes).take numSent ++ (outbuf.skip numSent true).2.pending =
      outbuf.pending := by
  obtain ⟨more, whole⟩ := get_prefix valid numbytes
  have enough : numSent ≤ outbuf.pending.length := by
    rw [← whole, List.length_append]
    omega
  rw [(skip_spec valid enough).2.2, ← whole, List.drop_append_of_le_length sent, ← List.append_assoc,
    List.take_append_drop]

end Outbuf

namespace Output

/-- Nothing is lost, the total is right, and the last outbuf can be written. -/
structure Lossless (out : Output) : Prop where
  queue : out.accepted ++ out.outbufs.flatMap Outbuf.pending = out.written
  total : out.totalOutbufsLen = (out.outbufs.map Outbuf.len).sum
  last : ∃ buffer, out.outbufs.getLast? = some (.overflowable buffer)
  valid : ∀ outbuf ∈ out.outbufs, outbuf.Valid

/-- What an operation does to a channel that it leaves connected. -/
def Conserves (before after : Output) : Prop :=
  after.connected = true → before.connected = true ∧ (Lossless before → Lossless after)

instance : IsPreorder Output Conserves where
  refl _ connected := ⟨connected, id⟩
  trans _ _ _ first second connected :=
    ⟨(first (second connected).1).1,
      (second connected).2 ∘ (first (second connected).1).2⟩

theorem new_lossless (context : ChannelContext) (socket : List SendResult) :
    Lossless (Output.new context socket) where
  queue := rfl
  total := rfl
  last := ⟨_, rfl⟩
  valid outbuf mem := by
    rw [List.mem_singleton.mp mem]
    exact OverflowableBuffer.fresh_valid _

variable {out : Output} {outbuf : Outbuf} {rest : List Outbuf}

theorem Lossless.progress (lossless : Lossless out) (outbufs : out.outbufs = outbuf :: rest)
    {numbytes numSent : Nat} (sent : numSent ≤ (outbuf.get numbytes).length) :
    Lossless (out.progress outbuf rest (outbuf.get numbytes) numSent) ∧
      (outbuf.skip numSent true).2.len = outbuf.len - numSent := by
  have valid := lossless.valid outbuf (outbufs ▸ List.mem_cons_self ..)
  have whole := Outbuf.take_get_append valid sent
  have enough : numSent ≤ outbuf.pending.length := by
    rw [← whole, List.length_append, List.length_take]
    omega
  obtain ⟨-, skipped, -⟩ := Outbuf.skip_spec valid enough
  have len : (outbuf.skip numSent true).2.len = outbuf.len - numSent := by
    rw [Outbuf.len_eq skipped, Outbuf.len_eq valid, ← whole, List.length_append, List.length_take]
    omega
  refine ⟨{ queue := ?_, total := ?_, last := ?_, valid := ?_ }, len⟩
  · have queue := lossless.queue
    rw [outbufs, List.flatMap_cons, ← whole] at queue
    refine Eq.trans ?_ queue
    rw [Output.progress]
    simp only [List.flatMap_cons, List.append_assoc]
  · have total := lossless.total
    rw [outbufs, List.map_cons, List.sum_cons] at total
    rw [Output.progress]
    simp only [List.map_cons, List.sum_cons, len]
    omega
  · obtain ⟨buffer, last⟩ := lossless.last
    rw [outbufs] at last
    cases rest with
    | nil =>
        obtain rfl := Option.some.inj last
        exact ⟨_, rfl⟩
    | cons second rest =>
        refine ⟨buffer, ?_⟩
        change ((outbuf.skip numSent true).2 :: second :: rest).getLast? = _
        rw [List.getLast?_cons_cons] at last ⊢
        exact last
  · intro other mem
    rcases List.mem_cons.mp mem with rfl | mem
    · exact skipped
    · exact lossless.valid other (outbufs ▸ List.mem_cons_of_mem _ mem)

/-- The answers that are left do not matter. -/
theorem Lossless.withSocket (lossless : Lossless out) (socket : List SendResult) :
    Lossless { out with socket } := { lossless with }

structure Sends (out : Output) (rest : List Outbuf) (sending : Sending) (after : Output) : Prop where
  connected : after.connected = true → out.connected = true
  lossless : after.connected = true → Lossless after
  outbufs : after.connected = true → ∃ outbuf, after.outbufs = outbuf :: rest ∧
    (sending = .emptied → outbuf.pending = [])
  emptied : sending = .emptied → after.connected = out.connected

theorem Sends.stays (lossless : Lossless out) (outbufs : out.outbufs = outbuf :: rest)
    {sending : Sending} (other : sending ≠ .emptied) (socket : List SendResult) :
    Sends out rest sending { out with socket } where
  connected := id
  lossless _ := lossless.withSocket socket
  outbufs _ := ⟨outbuf, outbufs, fun emptied => absurd emptied other⟩
  emptied emptied := absurd emptied other

theorem Sends.emptied_of_len (lossless : Lossless out) (outbufs : out.outbufs = outbuf :: rest)
    (empty : outbuf.len ≤ 0) (socket : List SendResult) :
    Sends out rest .emptied { out with socket } where
  connected := id
  lossless _ := lossless.withSocket socket
  outbufs _ := by
    have valid := lossless.valid outbuf (outbufs ▸ List.mem_cons_self ..)
    refine ⟨outbuf, outbufs, fun _ => List.length_eq_zero_iff.mp ?_⟩
    have len := Outbuf.len_eq valid
    omega
  emptied _ := rfl

theorem sendLoop_cons (context : ChannelContext) (doClose : Bool) (answer : SendResult)
    (answers : List SendResult) (outbufs : out.outbufs = outbuf :: rest) (more : 0 < outbuf.len) :
    sendLoop context doClose (answer :: answers) outbuf.len out =
      match answer with
      | .wouldBlock => (.blocked, { out with socket := answers })
      | .disconnected =>
          (.blocked,
            if doClose = true then { out.handleClose with socket := answers }
            else { out with socket := answers })
      | .raises exc => (.raised exc, { out with socket := answers })
      | .sent n =>
          let chunk := outbuf.get context.sendbufLen
          let numSent := min n chunk.length
          if numSent = 0 then (.blocked, { out with socket := answers })
          else
            match (outbuf.skip numSent true).1 with
            | .error exc =>
                (.raised exc,
                  { out with socket := answers, accepted := out.accepted ++ chunk.take numSent })
            | .ok () =>
                sendLoop context doClose answers (outbuf.len - numSent)
                  (out.progress outbuf rest chunk numSent) := by
  obtain ⟨queue, total, count, connected, closed, notified, willClose, closing, latch, socket,
    accepted, written⟩ := out
  dsimp only at outbufs
  subst outbufs
  rw [sendLoop, if_neg (Int.not_le.mpr more)]
  cases answer <;> rfl

/-- However the socket answers, the sending of the first outbuf loses nothing. -/
theorem sendLoop_sends (context : ChannelContext) (doClose : Bool) (socket : List SendResult)
    (lossless : Lossless out) (outbufs : out.outbufs = outbuf :: rest) :
    Sends out rest (sendLoop context doClose socket outbuf.len out).1
      (sendLoop context doClose socket outbuf.len out).2 := by
  induction socket generalizing out outbuf with
  | nil =>
      obtain ⟨queue, total, count, connected, closed, notified, willClose, closing, latch, socket,
        accepted, written⟩ := out
      dsimp only at outbufs
      subst outbufs
      rw [sendLoop]
      split
      · next empty => exact Sends.emptied_of_len lossless rfl empty []
      · exact Sends.stays lossless rfl Sending.noConfusion []
  | cons answer answers inductionHypothesis =>
      by_cases empty : outbuf.len ≤ 0
      · rw [sendLoop, if_pos empty]
        exact Sends.emptied_of_len lossless outbufs empty _
      rw [sendLoop_cons context doClose answer answers outbufs (Int.not_le.mp empty)]
      cases answer with
      | wouldBlock => exact Sends.stays lossless outbufs Sending.noConfusion answers
      | raises exc => exact Sends.stays lossless outbufs Sending.noConfusion answers
      | disconnected =>
          cases doClose with
          | false => exact Sends.stays lossless outbufs Sending.noConfusion answers
          | true =>
              exact
                { connected := Bool.noConfusion
                  lossless := Bool.noConfusion
                  outbufs := Bool.noConfusion
                  emptied := Sending.noConfusion }
      | sent n =>
          dsimp only
          split
          · exact Sends.stays lossless outbufs Sending.noConfusion answers
          have sent : min n (outbuf.get context.sendbufLen).length ≤
              (outbuf.get context.sendbufLen).length := min_le_right _ _
          obtain ⟨progress, len⟩ := lossless.progress outbufs sent
          have valid := lossless.valid outbuf (outbufs ▸ List.mem_cons_self ..)
          have prefix_ := (Outbuf.get_prefix valid context.sendbufLen).length_le
          rw [(Outbuf.skip_spec valid (sent.trans prefix_)).1]
          dsimp only
          rw [← len]
          exact { inductionHypothesis progress rfl with }

/-- A flush leaves the flags as they are, but it may find the client gone. -/
structure Flushes (before after : Output) : Prop where
  willClose : after.willClose = before.willClose
  closeWhenFlushed : after.closeWhenFlushed = before.closeWhenFlushed
  sentContinue : after.sentContinue = before.sentContinue
  written : after.written = before.written
  connected : after.connected = true → before.connected = true

instance : IsPreorder Output Flushes where
  refl _ := ⟨rfl, rfl, rfl, rfl, id⟩
  trans _ _ _ first second :=
    { willClose := second.willClose.trans first.willClose
      closeWhenFlushed := second.closeWhenFlushed.trans first.closeWhenFlushed
      sentContinue := second.sentContinue.trans first.sentContinue
      written := second.written.trans first.written
      connected := first.connected ∘ second.connected }

theorem sendLoop_flushes (context : ChannelContext) (doClose : Bool) (socket : List SendResult)
    (outbuflen : Int) (out : Output) :
    Flushes out (sendLoop context doClose socket outbuflen out).2 := by
  fun_induction sendLoop context doClose socket outbuflen out with
  | case5 outbuflen out more outbuf rest outbufs answers =>
      cases doClose with
      | false => exact ⟨rfl, rfl, rfl, rfl, id⟩
      | true => exact ⟨rfl, rfl, rfl, rfl, Bool.noConfusion⟩
  | case9 outbuflen out more outbuf rest outbufs n answers chunk numSent some skipped
      inductionHypothesis => exact { inductionHypothesis with }
  | _ => exact ⟨rfl, rfl, rfl, rfl, id⟩

theorem Lossless.tail (lossless : Lossless out) (outbufs : out.outbufs = outbuf :: rest)
    (empty : outbuf.pending = []) (more : rest ≠ []) :
    Lossless { out with outbufs := out.outbufs.tail } where
  queue := by
    have queue := lossless.queue
    rw [outbufs, List.flatMap_cons, empty, List.nil_append] at queue
    rw [outbufs]
    exact queue
  total := by
    have total := lossless.total
    have len := Outbuf.len_eq (lossless.valid outbuf (outbufs ▸ List.mem_cons_self ..))
    rw [empty] at len
    rw [outbufs, List.map_cons, List.sum_cons, len] at total
    rw [outbufs]
    exact total.trans (zero_add _)
  last := by
    obtain ⟨buffer, last⟩ := lossless.last
    rw [outbufs, List.getLast?_cons_of_ne_nil more] at last
    exact ⟨buffer, outbufs ▸ last⟩
  valid other mem := by
    rw [outbufs] at mem
    exact lossless.valid other (outbufs ▸ List.mem_cons_of_mem _ mem)

theorem exec_flushLoop_succ (context : ChannelContext) (doClose : Bool) (count : Nat)
    (out : Output) :
    exec (flushLoop context doClose (count + 1)) out =
      match sendLoop context doClose out.socket ((out.outbufs.head?.map Outbuf.len).getD 0) out with
      | (.raised exc, after) => (.error exc, after)
      | (.blocked, after) => (.ok (), after)
      | (.emptied, after) =>
          if count = 0 then (.ok (), after)
          else
            exec (flushLoop context doClose count)
              { after with outbufs := after.outbufs.tail } := by
  rw [flushLoop, exec_get_bind]
  dsimp only
  generalize sendLoop context doClose out.socket
    ((out.outbufs.head?.map Outbuf.len).getD 0) out = outcome
  obtain ⟨sending, after⟩ := outcome
  rw [exec_modify_bind]
  cases sending with
  | raised exc => rfl
  | blocked => rfl
  | emptied =>
      dsimp only
      split
      · rfl
      · rw [exec_modify_bind]

/-- What every round of a flush respects, the flush respects. -/
theorem flushLoop_within {relation : Output → Output → Prop} [IsPreorder Output relation]
    {context : ChannelContext} {doClose : Bool}
    (sends : ∀ outbuflen out, relation out (sendLoop context doClose out.socket outbuflen out).2)
    (pops : ∀ out : Output, relation out { out with outbufs := out.outbufs.tail }) (count : Nat) :
    Within relation (flushLoop context doClose count) := by
  induction count with
  | zero => exact within_throw _
  | succ count inductionHypothesis =>
      intro out
      have sent := sends ((out.outbufs.head?.map Outbuf.len).getD 0) out
      rw [exec_flushLoop_succ]
      generalize sendLoop context doClose out.socket
        ((out.outbufs.head?.map Outbuf.len).getD 0) out = outcome at sent
      obtain ⟨sending, after⟩ := outcome
      cases sending with
      | raised exc => exact sent
      | blocked => exact sent
      | emptied =>
          dsimp only
          split
          · exact sent
          · exact IsTrans.trans _ _ _ sent
              (IsTrans.trans _ _ _ (pops after) (inductionHypothesis _))

theorem flushSome_within {relation : Output → Output → Prop} [IsPreorder Output relation]
    {context : ChannelContext} {doClose : Bool}
    (sends : ∀ outbuflen out, relation out (sendLoop context doClose out.socket outbuflen out).2)
    (pops : ∀ out : Output, relation out { out with outbufs := out.outbufs.tail }) :
    Within relation (flushSome context doClose) := by
  refine within_bind within_get fun _ => within_bind within_get fun _ => ?_
  exact within_bind (flushLoop_within sends pops _) fun _ =>
    within_bind within_get fun _ => within_pure _

/-- If a flush raises, the channel is going to be closed. -/
theorem flushException_within {relation : Output → Output → Prop} [IsPreorder Output relation]
    {context : ChannelContext} {doClose : Bool}
    (flushes : Within relation (flushSome context doClose))
    (closes : ∀ out : Output, relation out { out with willClose := true }) :
    Within relation (flushException context doClose) := by
  refine within_tryCatch (within_bind flushes fun _ => within_pure _) fun _ => ?_
  exact within_bind (within_modify closes) fun _ => within_pure _

theorem flushOutbufsBelowHighWatermark_within {relation : Output → Output → Prop}
    [IsPreorder Output relation] {context : ChannelContext}
    (flushes : Within relation (flushException context false)) :
    Within relation (flushOutbufsBelowHighWatermark context) := by
  refine within_bind within_get fun out => ?_
  split
  · exact within_bind flushes fun _ => within_bind within_get fun _ => within_pure _
  · exact within_pure _

theorem appendSoon_within {relation : Output → Output → Prop} [IsPreorder Output relation]
    {context : ChannelContext} {data : Payload}
    (flushes : Within relation (flushException context false))
    (appends : Within relation (appendPayload context data)) :
    Within relation (appendSoon context data) := by
  refine within_bind within_get fun out => ?_
  split
  · exact within_throw _
  refine within_bind appends fun _ => ?_
  refine within_bind within_get fun out => ?_
  split
  · exact within_bind flushes fun _ => within_pure _
  · exact within_pure _

/-- What flushing and appending respect, `write_soon` respects. -/
theorem writeSoonOutput_within {relation : Output → Output → Prop} [IsPreorder Output relation]
    {context : ChannelContext} {data : Payload}
    (flushes : Within relation (flushException context false))
    (appends : Within relation (appendPayload context data)) :
    Within relation (writeSoonOutput context data) := by
  refine within_bind within_get fun out => ?_
  split
  · exact within_throw _
  split
  · exact within_pure _
  refine within_bind (flushOutbufsBelowHighWatermark_within flushes) fun waits => ?_
  split
  · exact within_pure _
  · exact appendSoon_within flushes appends

/-- What flushing respects, the first part of `handle_write` respects. -/
theorem flushWrite_within {relation : Output → Output → Prop} [IsPreorder Output relation]
    {context : ChannelContext} {idle lockable : Bool}
    (flushes : Within relation (flushException context true))
    (notifies : ∀ out : Output, relation out { out with notified := true }) :
    Within relation (flushWrite context idle lockable) := by
  refine within_bind within_get fun out => ?_
  split
  · exact within_bind flushes fun _ => within_pure _
  split
  · refine within_bind flushes fun _ => within_modify fun out => ?_
    rw [notifyIfBelow]
    split
    · exact notifies out
    · exact refl out
  · exact within_pure _

theorem flushLoop_flushes (context : ChannelContext) (doClose : Bool) (count : Nat) :
    Within Flushes (flushLoop context doClose count) :=
  flushLoop_within (fun _ out => sendLoop_flushes context doClose out.socket _ out)
    (fun _ => ⟨rfl, rfl, rfl, rfl, id⟩) count

theorem flushLoop_lossless (context : ChannelContext) (doClose : Bool) {count : Nat}
    (lossless : Lossless out) (counted : out.outbufs.length = count)
    (stays : (exec (flushLoop context doClose count) out).2.connected = true) :
    Lossless (exec (flushLoop context doClose count) out).2 := by
  induction count generalizing out with
  | zero => exact lossless
  | succ count inductionHypothesis =>
      obtain ⟨outbuf, rest, outbufs⟩ := List.exists_cons_of_length_eq_add_one counted
      have sends := sendLoop_sends context doClose out.socket lossless outbufs
      rw [exec_flushLoop_succ, outbufs] at stays ⊢
      dsimp only [List.head?_cons, Option.map_some, Option.getD_some] at stays ⊢
      generalize sendLoop context doClose out.socket outbuf.len out = outcome at sends stays ⊢
      obtain ⟨sending, after⟩ := outcome
      dsimp only at sends stays ⊢
      cases sending with
      | raised exc => exact sends.lossless stays
      | blocked => exact sends.lossless stays
      | emptied =>
          dsimp only at stays ⊢
          by_cases last : count = 0
          · rw [if_pos last] at stays ⊢
            exact sends.lossless stays
          · rw [if_neg last] at stays ⊢
            have connected : ({ after with outbufs := after.outbufs.tail } : Output).connected =
                true := (flushLoop_flushes context doClose count _).connected stays
            obtain ⟨other, remaining, empty⟩ := sends.outbufs connected
            rw [outbufs, List.length_cons, Nat.add_right_cancel_iff] at counted
            have more : rest ≠ [] := fun none => last (by rw [← counted, none]; rfl)
            refine inductionHypothesis
              ((sends.lossless connected).tail remaining (empty rfl) more) ?_ stays
            rw [remaining]
            exact counted

theorem flushSome_flushes (context : ChannelContext) (doClose : Bool) :
    Within Flushes (flushSome context doClose) :=
  flushSome_within (fun _ out => sendLoop_flushes context doClose out.socket _ out)
    fun _ => ⟨rfl, rfl, rfl, rfl, id⟩

/-! ### What every operation keeps -/

variable (context : ChannelContext)

theorem Conserves.of_flushes {before after : Output} (flushes : Flushes before after)
    (lossless : Lossless before → after.connected = true → Lossless after) :
    Conserves before after :=
  fun connected => ⟨flushes.connected connected, fun start => lossless start connected⟩

theorem flushSome_conserves (doClose : Bool) : Within Conserves (flushSome context doClose) := by
  intro out
  refine Conserves.of_flushes (flushSome_flushes context doClose out) fun lossless connected => ?_
  rw [flushSome, exec_get_bind, exec_get_bind, exec_bind] at connected ⊢
  have kept := flushLoop_lossless context doClose lossless rfl
  generalize exec (flushLoop context doClose out.outbufs.length) out = outcome at kept connected ⊢
  rcases outcome with ⟨exc | ⟨⟩, after⟩
  · exact kept connected
  · exact kept connected

theorem within_conserves {update : Output → Output}
    (connected : ∀ out, (update out).connected = true → out.connected = true)
    (lossless : ∀ out, Lossless out → (update out).connected = true → Lossless (update out)) :
    Within Conserves (modify update : OutputM PUnit) :=
  within_modify fun out stays => ⟨connected out stays, fun start => lossless out start stays⟩

theorem flushException_conserves (doClose : Bool) :
    Within Conserves (flushException context doClose) :=
  flushException_within (flushSome_conserves context doClose)
    (within_conserves (fun _ => id) fun _ lossless _ => { lossless with })

theorem appendLast_spec {outbufs : List Outbuf} (valid : ∀ outbuf ∈ outbufs, outbuf.Valid)
    {buffer : OverflowableBuffer} (last : outbufs.getLast? = some (.overflowable buffer))
    (data : Bytes) :
    ∃ filled, appendLast data outbufs = .ok filled ∧
      filled.flatMap Outbuf.pending = outbufs.flatMap Outbuf.pending ++ data ∧
      (filled.map Outbuf.len).sum = (outbufs.map Outbuf.len).sum + data.length ∧
      (∃ buffer, filled.getLast? = some (.overflowable buffer)) ∧
      ∀ outbuf ∈ filled, outbuf.Valid := by
  induction outbufs with
  | nil => exact absurd last (by simp)
  | cons first rest inductionHypothesis =>
      cases rest with
      | nil =>
          obtain rfl := Option.some.inj last
          have bufferValid : buffer.Valid := valid _ (List.mem_singleton_self _)
          obtain ⟨filledValid, pending⟩ := OverflowableBuffer.append_spec bufferValid data
          have isOpen : ¬buffer.isClosed = true := by
            rw [OverflowableBuffer.isClosed_eq bufferValid]
            exact Bool.noConfusion
          refine ⟨[.overflowable (buffer.append data)], ?_, ?_, ?_, ⟨_, rfl⟩, ?_⟩
          · rw [appendLast, Outbuf.append, if_neg isOpen]
            rfl
          · simp only [List.flatMap_cons, List.flatMap_nil, List.append_nil, Outbuf.pending, pending]
          · simp only [List.map_cons, List.map_nil, List.sum_cons, List.sum_nil, Outbuf.len,
              OverflowableBuffer.len_eq filledValid, OverflowableBuffer.len_eq bufferValid, pending,
              List.length_append]
            omega
          · intro outbuf mem
            rw [List.mem_singleton.mp mem]
            exact filledValid
      | cons second rest =>
          obtain ⟨filled, appended, pending, total, filledLast, filledValid⟩ :=
            inductionHypothesis (fun outbuf mem => valid outbuf (List.mem_cons_of_mem _ mem))
              (by rw [List.getLast?_cons_cons] at last; exact last)
          refine ⟨first :: filled, ?_, ?_, ?_, ?_, ?_⟩
          · rw [appendLast, appended]
            rfl
          · change first.pending ++ filled.flatMap Outbuf.pending =
              (first.pending ++ (second :: rest).flatMap Outbuf.pending) ++ data
            rw [pending, List.append_assoc]
          · change first.len + (filled.map Outbuf.len).sum =
              first.len + ((second :: rest).map Outbuf.len).sum + data.length
            omega
          · obtain ⟨buffer, filledLast⟩ := filledLast
            have some : filled ≠ [] := by
              rintro rfl
              exact absurd filledLast (by simp)
            exact ⟨buffer, by rw [List.getLast?_cons_of_ne_nil some]; exact filledLast⟩
          · intro outbuf mem
            rcases List.mem_cons.mp mem with rfl | mem
            · exact valid _ (List.mem_cons_self ..)
            · exact filledValid outbuf mem

theorem Lossless.rotate (lossless : Lossless out) : Lossless (rotate context out) := by
  rw [Waitress.rotate]
  split
  · refine ⟨?_, ?_, ⟨{ overflow := context.adj.outbufOverflow }, by simp [newOutbuf]⟩, ?_⟩
    · refine Eq.trans ?_ lossless.queue
      simp [newOutbuf, Outbuf.pending]
    · refine lossless.total.trans ?_
      simp [newOutbuf, Outbuf.len, OverflowableBuffer.len]
    · intro outbuf mem
      rcases List.mem_append.mp mem with mem | mem
      · exact lossless.valid outbuf mem
      · rw [List.mem_singleton.mp mem]
        exact OverflowableBuffer.fresh_valid _
  · exact lossless

theorem Lossless.append (lossless : Lossless out) (data : Bytes) :
    ∃ filled, appendLast data out.outbufs = .ok filled ∧ ∀ latch : Bool, Lossless
      { out with
        outbufs := filled
        currentOutbufCount := out.currentOutbufCount + data.length
        totalOutbufsLen := out.totalOutbufsLen + data.length
        written := out.written ++ data
        sentContinue := latch } := by
  obtain ⟨buffer, last⟩ := lossless.last
  obtain ⟨filled, appended, pending, total, filledLast, valid⟩ :=
    appendLast_spec lossless.valid last data
  refine ⟨filled, appended, fun latch => ⟨?_, ?_, filledLast, valid⟩⟩
  · dsimp only
    rw [pending, ← List.append_assoc, lossless.queue]
  · dsimp only
    rw [total, lossless.total]

theorem Lossless.appendFile (lossless : Lossless out) {data : ReadOnlyFileBasedBuffer}
    (valid : data.Valid) :
    Lossless
      { out with
        outbufs := out.outbufs ++ [.readOnlyFile data, newOutbuf context]
        currentOutbufCount := 0
        totalOutbufsLen := out.totalOutbufsLen + data.remain
        written := out.written ++ (Payload.file data).content } where
  queue := by
    change out.accepted ++ (out.outbufs ++ [_, _]).flatMap Outbuf.pending = _
    rw [List.flatMap_append, ← List.append_assoc, lossless.queue]
    simp [newOutbuf, Outbuf.pending, Payload.content, ReadOnlyFileBasedBuffer.pending, File.pending]
  total := by
    change out.totalOutbufsLen + data.remain = ((out.outbufs ++ [_, _]).map Outbuf.len).sum
    rw [List.map_append, List.sum_append, ← lossless.total]
    simp [newOutbuf, Outbuf.len, OverflowableBuffer.len]
  last := ⟨{ overflow := context.adj.outbufOverflow }, by simp [newOutbuf]⟩
  valid outbuf mem := by
    rcases List.mem_append.mp mem with mem | mem
    · exact lossless.valid outbuf mem
    · rcases List.mem_cons.mp mem with rfl | mem
      · exact valid
      · rw [List.mem_singleton.mp mem]
        exact OverflowableBuffer.fresh_valid _

/-- The file of a payload holds the bytes that it promises. -/
def Backed : Payload → Prop
  | .bytes _ => True
  | .file data => data.remain ≤ data.file.pending.length

theorem appendPayload_conserves {data : Payload} (backed : Backed data) :
    Within Conserves (appendPayload context data) := by
  cases data with
  | bytes data =>
      refine within_bind (within_conserves ?_ fun _ lossless _ => lossless.rotate context) fun _ => ?_
      · intro out connected
        rw [rotate] at connected
        split at connected
        · exact connected
        · exact connected
      refine within_get_bind fun out => ?_
      rw [exec_bind, exec_ofExcept]
      cases appended : appendLast data out.outbufs with
      | error exc => exact fun connected => ⟨connected, id⟩
      | ok filled =>
          refine fun connected => ⟨connected, fun lossless => ?_⟩
          obtain ⟨_, same, kept⟩ := lossless.append data
          obtain rfl := Except.ok.inj (appended.symm.trans same)
          exact kept out.sentContinue
  | file data =>
      rw [appendPayload, Waitress.appendFile]
      split
      · exact within_throw _
      · next nonneg =>
          exact within_conserves (fun _ => id) fun _ lossless _ =>
            lossless.appendFile context ⟨Int.not_lt.mp nonneg, backed⟩

theorem appendSoon_conserves {data : Payload} (backed : Backed data) :
    Within Conserves (appendSoon context data) :=
  appendSoon_within (flushException_conserves context false) (appendPayload_conserves context backed)

theorem writeSoonOutput_conserves {data : Payload} (backed : Backed data) :
    Within Conserves (writeSoonOutput context data) :=
  writeSoonOutput_within (flushException_conserves context false)
    (appendPayload_conserves context backed)

theorem sendContinueOutput_conserves : Within Conserves (sendContinueOutput context) := by
  refine within_get_bind fun out => ?_
  rw [exec_bind, exec_ofExcept]
  cases appended : appendLast continueLine out.outbufs with
  | error exc => exact fun connected => ⟨connected, id⟩
  | ok filled =>
      dsimp only
      rw [exec_modify_bind]
      have flushed := within_bind (flushSome_conserves context true) fun _ =>
        within_pure ()
      have queued : Conserves out
          { out with
            outbufs := filled
            currentOutbufCount := out.currentOutbufCount + continueLine.length
            totalOutbufsLen := out.totalOutbufsLen + continueLine.length
            written := out.written ++ continueLine
            sentContinue := true } := by
        refine fun connected => ⟨connected, fun lossless => ?_⟩
        obtain ⟨_, same, kept⟩ := lossless.append continueLine
        obtain rfl := Except.ok.inj (appended.symm.trans same)
        exact kept true
      exact IsTrans.trans _ _ _ queued (flushed _)

theorem flushWrite_conserves (idle lockable : Bool) :
    Within Conserves (flushWrite context idle lockable) :=
  flushWrite_within (flushException_conserves context true)
    fun _ connected => ⟨connected, fun lossless => { lossless with }⟩

theorem handleWrite_conserves (idle lockable : Bool) :
    Within Conserves (handleWrite context idle lockable) := by
  refine within_bind (flushWrite_conserves context idle lockable) fun _ => within_bind ?_ fun _ => ?_
  · refine within_conserves (fun out connected => ?_) fun out lossless _ => ?_
    · rw [handOver] at connected
      split at connected
      · exact connected
      · exact connected
    · rw [handOver]
      split
      · exact { lossless with }
      · exact lossless
  · refine within_conserves (fun out connected => ?_) fun out lossless connected => ?_
    · rw [closeIfWillClose] at connected
      split at connected
      · exact Bool.noConfusion connected
      · exact connected
    · rw [closeIfWillClose] at connected ⊢
      split at connected
      · exact Bool.noConfusion connected
      · next other => rw [if_neg other]; exact lossless

/-! ### Runs -/

/-- An operation on the output path.  `resume` is the rest of a `write_soon` that
has waited; the last three are what a task, the maintenance and the service do. -/
inductive Operation where
  | writeSoon (data : Payload)
  | resume (data : Payload)
  | sendContinue
  | flushSome (doClose : Bool)
  | handleWrite (idle lockable : Bool)
  | closeWhenFlushed
  | willClose
  | nextOutbuf

def Operation.Backed : Operation → Prop
  | .writeSoon data => Output.Backed data
  | .resume data => Output.Backed data
  | _ => True

def Operation.perform : Operation → OutputM Unit
  | .writeSoon data => writeSoonOutput context data
  | .resume data => appendSoon context data
  | .sendContinue => sendContinueOutput context
  | .flushSome doClose => do
      let _flushed ← Waitress.flushSome context doClose
      pure ()
  | .handleWrite idle lockable => Waitress.handleWrite context idle lockable
  | .closeWhenFlushed => modify fun out => { out with closeWhenFlushed := true }
  | .willClose => modify fun out => { out with willClose := true }
  | .nextOutbuf =>
      modify fun out =>
        { out with
          currentOutbufCount :=
            if out.currentOutbufCount > 0 then context.adj.outbufHighWatermark
            else out.currentOutbufCount }

def afterOperation (operation : Operation) (out : Output) : Option Output :=
  some (exec (operation.perform context) out).2

theorem perform_conserves {operation : Operation} (backed : operation.Backed) :
    Within Conserves (operation.perform context) := by
  cases operation with
  | writeSoon data => exact writeSoonOutput_conserves context backed
  | resume data => exact appendSoon_conserves context backed
  | sendContinue => exact sendContinueOutput_conserves context
  | flushSome doClose => exact within_bind (flushSome_conserves context doClose) fun _ => within_pure _
  | handleWrite idle lockable => exact handleWrite_conserves context idle lockable
  | closeWhenFlushed => exact within_conserves (fun _ => id) fun _ lossless _ => { lossless with }
  | willClose => exact within_conserves (fun _ => id) fun _ lossless _ => { lossless with }
  | nextOutbuf => exact within_conserves (fun _ => id) fun _ lossless _ => { lossless with }

/-- A channel that hands over from `close_when_flushed` has sent everything. -/
theorem handOver_flushed (lossless : Lossless out) (empty : out.totalOutbufsLen = 0) :
    out.accepted = out.written := by
  have total := lossless.total
  rw [empty] at total
  have none : out.outbufs.flatMap Outbuf.pending = [] := by
    rw [List.flatMap_eq_nil_iff]
    intro outbuf mem
    have nonneg : ∀ len ∈ out.outbufs.map Outbuf.len, (0 : Int) ≤ len := by
      intro len inLens
      obtain ⟨other, otherMem, rfl⟩ := List.mem_map.mp inLens
      rw [Outbuf.len_eq (lossless.valid other otherMem)]
      exact Int.natCast_nonneg _
    have zero := List.single_le_sum nonneg outbuf.len (List.mem_map_of_mem mem)
    rw [← total, Outbuf.len_eq (lossless.valid outbuf mem)] at zero
    exact List.length_eq_zero_iff.mp (by omega)
  rw [← lossless.queue, none, List.append_nil]

theorem exec_flushException_eq (doClose : Bool) (out : Output) :
    exec (flushException context doClose) out =
      match exec (flushLoop context doClose out.outbufs.length) out with
      | (.ok (), after) => (.ok (decide (out.accepted.length < after.accepted.length), false), after)
      | (.error _, after) => (.ok (false, true), { after with willClose := true }) := by
  rw [flushException, exec_tryCatch, exec_bind, flushSome, exec_get_bind, exec_get_bind, exec_bind]
  generalize exec (flushLoop context doClose out.outbufs.length) out = outcome
  obtain ⟨exc | ⟨⟩, after⟩ := outcome
  · rfl
  · rfl

theorem exec_flushException (doClose : Bool) (out : Output) :
    ∃ result after, exec (flushException context doClose) out = (.ok result, after) := by
  rw [exec_flushException_eq]
  rcases exec (flushLoop context doClose out.outbufs.length) out with ⟨exc | ⟨⟩, after⟩
  · exact ⟨_, _, rfl⟩
  · exact ⟨_, _, rfl⟩

theorem exec_handleWrite (idle lockable : Bool) (out : Output) :
    exec (handleWrite context idle lockable) out =
      (.ok (), (exec (flushWrite context idle lockable) out).2.handOver.closeIfWillClose) := by
  have flushes : exec (flushWrite context idle lockable) out =
      (.ok (), (exec (flushWrite context idle lockable) out).2) := by
    obtain ⟨result, after, flushed⟩ := exec_flushException context true out
    rw [flushWrite, exec_get_bind]
    split
    · rw [exec_bind, flushed]
      rfl
    split
    · rw [exec_bind, flushed]
      rfl
    · rfl
  rw [handleWrite, exec_bind, flushes]
  rfl

/-! ### The payloads of a run -/

def waits (data : Payload) (out : Output) : Bool :=
  data.isTrue && decide ((exec (flushOutbufsBelowHighWatermark context) out).1 = .ok true)

/-- The payload that an operation on a connected channel queues: a `write_soon` that
raises or still waits has queued nothing, and `send_continue` sends behind its append. -/
def Operation.payload (operation : Operation) (out : Output) : Bytes :=
  match operation with
  | .writeSoon data =>
      if (exec (writeSoonOutput context data) out).1 = .ok () ∧ waits context data out = false then
        data.content
      else []
  | .resume data => if (exec (appendSoon context data) out).1 = .ok () then data.content else []
  | .sendContinue => continueLine
  | _ => []

def payloads : List Operation → Output → Bytes
  | [], _ => []
  | operation :: operations, out =>
      operation.payload context out ++ payloads operations (exec (operation.perform context) out).2

theorem flushSome_written (doClose : Bool) :
    Within (SameView Output.written) (flushSome context doClose) :=
  flushSome_within (fun _ out => (sendLoop_flushes context doClose out.socket _ out).written.symm)
    fun _ => rfl

theorem flushException_written (doClose : Bool) :
    Within (SameView Output.written) (flushException context doClose) :=
  flushException_within (flushSome_written context doClose) fun _ => rfl

/-- The payload is counted if the operation returns. -/
def Adds (data : Payload) (out : Output) (outcome : Except Exc Unit × Output) : Prop :=
  outcome.2.written = out.written ++ if outcome.1 = .ok () then data.content else []

theorem Adds.of_error {data : Payload} {exc : Exc} {after : Output}
    (same : after.written = out.written) : Adds data out (.error exc, after) :=
  same.trans (List.append_nil _).symm

theorem appendPayload_adds (data : Payload) (out : Output) :
    Adds data out (exec (appendPayload context data) out) := by
  cases data with
  | bytes data =>
      have rotated : (rotate context out).written = out.written := by
        rw [rotate]
        split
        · rfl
        · rfl
      rw [appendPayload, appendBytes, exec_modify_bind, exec_get_bind, exec_bind, exec_ofExcept]
      cases appendLast data (rotate context out).outbufs with
      | error exc => exact .of_error rotated
      | ok filled => exact congrArg (· ++ data) rotated
  | file data =>
      rw [appendPayload, Waitress.appendFile]
      split
      · exact .of_error rfl
      · rfl

theorem appendSoon_adds (data : Payload) (out : Output) :
    Adds data out (exec (appendSoon context data) out) := by
  rw [appendSoon, exec_get_bind]
  split
  · exact .of_error rfl
  have adds := appendPayload_adds context data out
  rw [exec_bind]
  generalize exec (appendPayload context data) out = outcome at adds ⊢
  obtain ⟨exc | ⟨⟩, after⟩ := outcome
  · exact adds
  dsimp only
  rw [exec_get_bind]
  split
  · have kept := flushException_written context false after
    obtain ⟨result, final, flushed⟩ := exec_flushException context false after
    rw [flushed] at kept
    rw [exec_bind, flushed]
    exact kept.symm.trans adds
  · exact adds

theorem writeSoonOutput_written (data : Payload) (out : Output) :
    (exec (writeSoonOutput context data) out).2.written =
      out.written ++ (Operation.writeSoon data).payload context out := by
  have nothing : out.written = out.written ++ [] := (List.append_nil _).symm
  rw [Operation.payload, waits, writeSoonOutput, exec_get_bind]
  by_cases gone : out.connected = false
  · rw [if_pos gone]
    exact nothing
  rw [if_neg gone]
  cases isTrue : data.isTrue with
  | false =>
      have empty : data.content = [] := by
        cases data with
        | bytes data => exact List.isEmpty_iff.mp ((Bool.not_eq_false' _).mp isTrue)
        | file data => cases isTrue
      rw [if_pos rfl, empty]
      exact nothing.trans (by rw [ite_self])
  | true =>
      have kept : SameView Output.written out
          (exec (flushOutbufsBelowHighWatermark context) out).2 :=
        flushOutbufsBelowHighWatermark_within (flushException_written context false) out
      rw [if_neg Bool.noConfusion, exec_bind]
      generalize exec (flushOutbufsBelowHighWatermark context) out = outcome at kept ⊢
      obtain ⟨exc | _ | _, after⟩ := outcome
      · exact kept.symm.trans nothing
      · have adds := appendSoon_adds context data after
        have looks : (true && decide ((.ok false : Except Exc Bool) = .ok true)) = false := rfl
        simp only [Bool.false_eq_true, if_false, looks, and_true]
        exact adds.trans (congrArg (· ++ _) kept.symm)
      · exact kept.symm.trans nothing

theorem perform_written {operation : Operation} (lossless : Lossless out) :
    (exec (operation.perform context) out).2.written =
      out.written ++ operation.payload context out := by
  have nothing : ∀ {after : Output}, SameView Output.written out after →
      after.written = out.written ++ [] := fun same => same.symm.trans (List.append_nil _).symm
  cases operation with
  | writeSoon data => exact writeSoonOutput_written context data out
  | resume data => exact appendSoon_adds context data out
  | sendContinue =>
      obtain ⟨filled, appended, -⟩ := lossless.append continueLine
      rw [Operation.perform, sendContinueOutput, exec_get_bind, appended]
      exact (within_bind (flushSome_written context true) (fun _ => within_pure ()) _).symm
  | flushSome doClose =>
      exact nothing (within_bind (flushSome_written context doClose) (fun _ => within_pure ()) out)
  | handleWrite idle lockable =>
      have flushed : SameView Output.written out
          (exec (flushWrite context idle lockable) out).2 :=
        flushWrite_within (flushException_written context true) (fun _ => rfl) out
      refine nothing (IsTrans.trans _ _ _ flushed ?_)
      rw [Operation.perform, exec_handleWrite, SameView]
      unfold closeIfWillClose handOver
      split
      · split
        · rfl
        · rfl
      · split
        · rfl
        · rfl
  | _ => exact nothing rfl

/-- While the channel is connected, the payloads of the run have been written. -/
theorem run_written {operations : List Operation}
    (backed : ∀ operation ∈ operations, operation.Backed) {final : Output}
    (lossless : out.connected = true → Lossless out)
    (ran : Transition.run (afterOperation context) operations out = some final)
    (connected : final.connected = true) :
    out.connected = true ∧ Lossless final ∧
      final.written = out.written ++ payloads context operations out := by
  induction operations generalizing out with
  | nil =>
      obtain rfl := Option.some.inj ran
      exact ⟨connected, lossless connected, (List.append_nil _).symm⟩
  | cons operation operations inductionHypothesis =>
      rw [List.forall_mem_cons] at backed
      obtain ⟨_, step, others⟩ := (Transition.run_cons_eq_some _).mp ran
      obtain rfl := Option.some.inj step
      have conserves := perform_conserves context backed.1 out
      obtain ⟨still, kept, written⟩ := inductionHypothesis backed.2
        (fun still => (conserves still).2 (lossless (conserves still).1)) others
      have before := (conserves still).1
      refine ⟨before, kept, ?_⟩
      rw [written, perform_written context (lossless before), List.append_assoc]
      rfl

/-- The output path behind operations with these payloads. -/
structure Fifo (payloads : Bytes) (out : Output) : Prop where
  queue : out.connected = true → out.accepted ++ out.outbufs.flatMap Outbuf.pending = payloads
  total : out.connected = true → out.totalOutbufsLen = (out.outbufs.map Outbuf.len).sum
  last : out.connected = true → ∃ buffer, out.outbufs.getLast? = some (.overflowable buffer)
  /-- A channel that closes because everything was flushed has sent everything. -/
  flushed : ∀ idle lockable,
    let ready := (exec (flushWrite context idle lockable) out).2
    ready.connected = true → ready.closeWhenFlushed = true → ready.totalOutbufsLen = 0 →
      (exec (handleWrite context idle lockable) out).2.connected = false ∧
        (exec (handleWrite context idle lockable) out).2.accepted = payloads

theorem run_fifo (socket : List SendResult) (operations : List Operation)
    (backed : ∀ operation ∈ operations, operation.Backed) {out : Output}
    (ran : Transition.run (afterOperation context) operations (Output.new context socket) =
      some out) :
    Fifo context (payloads context operations (Output.new context socket)) out := by
  have run := run_written context backed (fun _ => new_lossless context socket) ran
  refine
    { queue := fun connected => ?_
      total := fun connected => (run connected).2.1.total
      last := fun connected => (run connected).2.1.last
      flushed := fun idle lockable => ?_ }
  · obtain ⟨-, lossless, written⟩ := run connected
    exact lossless.queue.trans written
  · dsimp only
    intro connected closes empty
    obtain ⟨still, kept⟩ := flushWrite_conserves context idle lockable out connected
    obtain ⟨-, lossless, written⟩ := run still
    have flushed := handOver_flushed (kept lossless) empty
    have same : SameView Output.written out (exec (flushWrite context idle lockable) out).2 :=
      flushWrite_within (flushException_written context true) (fun _ => rfl) out
    rw [exec_handleWrite, handOver, if_pos ⟨closes, empty⟩]
    exact ⟨rfl, flushed.trans (same.symm.trans written)⟩

/-- Two payloads, of which the socket takes a part at a time, and the close behind them. -/
theorem run_fifo_sample :
    ∃ out, Transition.run (afterOperation {})
        [.writeSoon (.bytes (ascii "abc")), .sendContinue, .closeWhenFlushed,
          .handleWrite true false]
        (Output.new {} [.sent 2, .wouldBlock, .sent 100]) = some out ∧
      Fifo {} (ascii "abc" ++ continueLine) out := by
  have sent : payloads {}
      [.writeSoon (.bytes (ascii "abc")), .sendContinue, .closeWhenFlushed, .handleWrite true false]
      (Output.new {} [.sent 2, .wouldBlock, .sent 100]) = ascii "abc" ++ continueLine := by
    decide +kernel
  rw [← sent]
  refine ⟨_, rfl, run_fifo {} [.sent 2, .wouldBlock, .sent 100]
    [.writeSoon (.bytes (ascii "abc")), .sendContinue, .closeWhenFlushed, .handleWrite true false]
    ?_ rfl⟩
  simp [Operation.Backed, Backed]

end Output

end Waitress
