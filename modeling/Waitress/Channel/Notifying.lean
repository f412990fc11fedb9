import Waitress.Channel.Draining

/-!
# Notifications

What the operations on the output do to a thread that waits for a notification: which
of them notify it, and what they leave to send when they do not.
-/

namespace Waitress

open Raising

namespace Output

/-- Nothing happens to the connection, or it is closed and the waiter is notified. -/
def Announces (before after : Output) : Prop :=
  after.connected = before.connected ∧ after.closed = before.closed ∧
      after.notified = before.notified ∨
    after.connected = false ∧ after.closed = true ∧ after.notified = true

instance : IsPreorder Output Announces where
  refl _ := .inl ⟨rfl, rfl, rfl⟩
  trans _ _ _ first second := by
    rcases second with ⟨connected, closed, notified⟩ | lost
    · rcases first with ⟨connectedFirst, closedFirst, notifiedFirst⟩ | lost
      · exact .inl ⟨connected.trans connectedFirst, closed.trans closedFirst,
          notified.trans notifiedFirst⟩
      · exact .inr ⟨connected.trans lost.1, closed.trans lost.2.1, notified.trans lost.2.2⟩
    · exact .inr lost

variable (context : ChannelContext)

theorem sendLoop_announces (doClose : Bool) (socket : List SendResult) (outbuflen : Int)
    (out : Output) : Announces out (sendLoop context doClose socket outbuflen out).2 := by
  fun_induction sendLoop context doClose socket outbuflen out with
  | case5 outbuflen out more outbuf rest outbufs answers =>
      cases doClose with
      | false => exact .inl ⟨rfl, rfl, rfl⟩
      | true => exact .inr ⟨rfl, rfl, rfl⟩
  | case9 outbuflen out more outbuf rest outbufs n answers chunk numSent some skipped
      inductionHypothesis => exact inductionHypothesis
  | _ => exact .inl ⟨rfl, rfl, rfl⟩

theorem flushSome_announces (doClose : Bool) : Within Announces (flushSome context doClose) :=
  flushSome_within (fun _ out => sendLoop_announces context doClose out.socket _ out)
    fun _ => .inl ⟨rfl, rfl, rfl⟩

theorem flushException_announces (doClose : Bool) :
    Within Announces (flushException context doClose) :=
  flushException_within (flushSome_announces context doClose) fun _ => .inl ⟨rfl, rfl, rfl⟩

theorem flushUnderLock_announces : Within Announces (flushUnderLock context) := by
  refine within_bind (flushException_announces context false) fun _ => ?_
  refine within_bind within_get fun out => ?_
  repeat' split
  · exact within_pure _
  · exact within_pure _
  · exact within_pure _

theorem sendContinueOutput_announces : Within Announces (sendContinueOutput context) := by
  refine within_bind within_get fun out => within_bind (within_ofExcept _) fun outbufs => ?_
  refine within_bind (within_modify fun _ => .inl ⟨rfl, rfl, rfl⟩) fun _ => ?_
  exact within_bind (flushSome_announces context true) fun _ => within_pure _

theorem appendPayload_announces (data : Payload) :
    Within Announces (appendPayload context data) := by
  cases data with
  | bytes data =>
      refine within_bind (within_modify fun out => ?_) fun _ => ?_
      · rw [rotate]
        split
        · exact .inl ⟨rfl, rfl, rfl⟩
        · exact refl out
      refine within_bind within_get fun out => within_bind (within_ofExcept _) fun outbufs => ?_
      exact within_modify fun _ => .inl ⟨rfl, rfl, rfl⟩
  | file data =>
      rw [appendPayload, appendFile]
      split
      · exact within_throw _
      · exact within_modify fun _ => .inl ⟨rfl, rfl, rfl⟩

theorem writeSoonOutput_announces (data : Payload) :
    Within Announces (writeSoonOutput context data) :=
  writeSoonOutput_within (flushException_announces context false)
    (appendPayload_announces context data)

def Severs (before after : Output) : Prop :=
  after.connected = before.connected ∧ after.closed = before.closed ∨
    after.connected = false ∧ after.closed = true

instance : IsPreorder Output Severs where
  refl _ := .inl ⟨rfl, rfl⟩
  trans _ _ _ first second := by
    rcases second with ⟨connected, closed⟩ | lost
    · rcases first with ⟨connectedFirst, closedFirst⟩ | lost
      · exact .inl ⟨connected.trans connectedFirst, closed.trans closedFirst⟩
      · exact .inr ⟨connected.trans lost.1, closed.trans lost.2⟩
    · exact .inr lost

theorem Announces.severs {before after : Output} (announces : Announces before after) :
    Severs before after :=
  announces.imp (fun same => ⟨same.1, same.2.1⟩) fun lost => ⟨lost.1, lost.2.1⟩

theorem flushWrite_severs (idle lockable : Bool) :
    Within Severs (flushWrite context idle lockable) :=
  flushWrite_within (fun out => (flushException_announces context true out).severs)
    fun _ => .inl ⟨rfl, rfl⟩

/-! ### What a flush takes out -/

/-- As long as the channel is connected, what the socket accepts is taken off the total. -/
def Exchanges (before after : Output) : Prop :=
  after.connected = true →
    after.totalOutbufsLen + after.accepted.length = before.totalOutbufsLen + before.accepted.length

theorem sendLoop_exchanges (doClose : Bool) (socket : List SendResult) (outbuflen : Int)
    (out : Output) (returns : ∀ exc, (sendLoop context doClose socket outbuflen out).1 ≠ .raised exc) :
    Exchanges out (sendLoop context doClose socket outbuflen out).2 := by
  fun_induction sendLoop context doClose socket outbuflen out with
  | case5 outbuflen out more outbuf rest outbufs answers =>
      cases doClose with
      | false => exact fun _ => rfl
      | true => exact Bool.noConfusion
  | case8 outbuflen out more outbuf rest outbufs n answers chunk numSent some exc skipped =>
      exact absurd rfl (returns exc)
  | case9 outbuflen out more outbuf rest outbufs n answers chunk numSent some skipped
      inductionHypothesis =>
      intro connected
      refine (inductionHypothesis returns connected).trans ?_
      have enough : (chunk.take numSent).length = numSent :=
        List.length_take_of_le (min_le_right _ _)
      change out.totalOutbufsLen - numSent + (out.accepted ++ chunk.take numSent).length = _
      rw [List.length_append, enough]
      omega
  | _ => exact fun _ => rfl

theorem flushLoop_exchanges (doClose : Bool) (count : Nat) {out after : Output}
    (returns : exec (flushLoop context doClose count) out = (.ok (), after)) :
    Exchanges out after := by
  induction count generalizing out with
  | zero => cases returns
  | succ count inductionHypothesis =>
      have exchanges := sendLoop_exchanges context doClose out.socket
        ((out.outbufs.head?.map Outbuf.len).getD 0) out
      rw [exec_flushLoop_succ] at returns
      generalize sendLoop context doClose out.socket
        ((out.outbufs.head?.map Outbuf.len).getD 0) out = outcome at exchanges returns
      obtain ⟨sending, middle⟩ := outcome
      dsimp only at exchanges returns
      cases sending with
      | raised exc => cases returns
      | blocked =>
          cases returns
          exact exchanges fun _ => Sending.noConfusion
      | emptied =>
          have sent := exchanges fun _ => Sending.noConfusion
          by_cases last : count = 0
          · dsimp only at returns
            rw [if_pos last] at returns
            cases returns
            exact sent
          · dsimp only at returns
            rw [if_neg last] at returns
            intro connected
            have stays := flushLoop_flushes context doClose count
              { middle with outbufs := middle.outbufs.tail }
            rw [returns] at stays
            exact (inductionHypothesis returns connected).trans (sent (stays.connected connected))

theorem flushException_exchanges {doClose flushed : Bool} {out after : Output}
    (returns : exec (flushException context doClose) out = (.ok (flushed, false), after)) :
    Exchanges out after := by
  rw [exec_flushException_eq] at returns
  have sent := @flushLoop_exchanges context doClose out.outbufs.length out
  generalize exec (flushLoop context doClose out.outbufs.length) out = outcome at sent returns
  obtain ⟨exc | ⟨⟩, middle⟩ := outcome
  · cases returns
  · cases returns
    exact sent rfl

/-! ### What the main thread does meanwhile -/

/-- What the main thread does to the output of a channel with requests. -/
structure Attends (before after : Output) : Prop where
  notified : before.notified = true → after.notified = true
  silent : after.notified = false → after.connected = before.connected
  woken : after.notified = true → before.notified = true ∨
    (after.connected = true → after.totalOutbufsLen < context.adj.outbufHighWatermark)
  drains : Drains before after
  willClose : before.willClose = true → after.willClose = true
  total : after.notified = false → context.adj.outbufHighWatermark ≤ before.totalOutbufsLen →
    context.adj.outbufHighWatermark ≤ after.totalOutbufsLen ∨ after.willClose = true
  exchanges : after.willClose = false → Exchanges before after

theorem attends_refl (out : Output) : Attends context out out where
  notified := id
  silent _ := rfl
  woken := .inl
  drains := refl out
  willClose := id
  total _ := .inl
  exchanges _ _ := rfl

theorem Attends.of_answering {out after : Output} (attends : Attends context out.answering after) :
    Attends context out after :=
  { attends with }

theorem handleClose_attends (out : Output) : Attends context out out.handleClose where
  notified _ := rfl
  silent := Bool.noConfusion
  woken _ := .inr Bool.noConfusion
  drains := Bool.noConfusion
  willClose := id
  total := Bool.noConfusion
  exchanges _ := Bool.noConfusion

/-- A flush that leaves less than the watermark notifies, unless it raises. -/
theorem flushWrite_attends (lockable : Bool) (out : Output) :
    Attends context out (exec (flushWrite context false lockable) out).2 := by
  rw [flushWrite, exec_get_bind, if_neg Bool.false_ne_true]
  split
  · have announces := flushException_announces context true out
    have drains := flushException_drains context true out
    have flags := flushException_keepsFlags context true out
    obtain ⟨flushed, exception, ok⟩ := exec_flushException_ok context true out
    have raised := @flushException_raised context true flushed out
    have exchanges := @flushException_exchanges context true flushed out
    rw [exec_bind]
    generalize exec (flushException context true) out = outcome
      at announces drains flags ok raised exchanges ⊢
    obtain ⟨result, after⟩ := outcome
    obtain rfl : result = _ := ok
    dsimp only at announces drains flags raised exchanges ⊢
    have exchanged : after.willClose = false → Exchanges out after := by
      intro stays
      cases exception with
      | false => exact exchanges rfl
      | true => exact absurd (raised rfl) (Bool.eq_false_iff.mp stays)
    rw [exec_modify, notifyIfBelow]
    split
    · rename_i below
      exact ⟨fun _ => rfl, Bool.noConfusion, fun _ => .inr fun _ => below.2, drains,
        flags.willClose, Bool.noConfusion, exchanged⟩
    · rename_i silent
      refine ⟨?_, ?_, ?_, drains, flags.willClose, fun _ _ => ?_, exchanged⟩
      · intro notified
        rcases announces with ⟨-, -, same⟩ | ⟨-, -, lost⟩
        · exact same.trans notified
        · exact lost
      · intro unnoticed
        rcases announces with ⟨same, -, -⟩ | ⟨-, -, lost⟩
        · exact same
        · exact Bool.noConfusion (unnoticed.symm.trans lost)
      · intro notified
        rcases announces with ⟨-, -, same⟩ | ⟨lost, -, -⟩
        · exact .inl (same.symm.trans notified)
        · exact .inr fun connected => Bool.noConfusion (lost.symm.trans connected)
      · cases exception with
        | true => exact .inr (raised rfl)
        | false => exact .inl (Int.not_lt.mp fun below => silent ⟨rfl, below⟩)
  · exact attends_refl context out

/-! ### What the call has found -/

/-- What the look at the outbufs has found in front of a wait. -/
theorem flushUnderLock_waits {out after : Output} {raised : Bool}
    (waits : exec (flushUnderLock context) out = (.ok (.waits raised), after)) :
    if raised = true then after.willClose = true
    else after.connected = true ∧ after.totalOutbufsLen > context.adj.outbufHighWatermark := by
  obtain ⟨flushed, exception, ok⟩ := exec_flushException_ok context false out
  have closes := @flushException_raised context false flushed out
  rw [flushUnderLock, exec_bind] at waits
  generalize exec (flushException context false) out = outcome at ok closes waits
  obtain ⟨result, middle⟩ := outcome
  obtain rfl : result = _ := ok
  dsimp only at waits
  rw [exec_get_bind] at waits
  cases exception with
  | true =>
      cases waits
      exact closes rfl
  | false =>
      rw [if_neg Bool.false_ne_true] at waits
      by_cases more : middle.connected = true ∧
          middle.totalOutbufsLen > context.adj.outbufHighWatermark
      · rw [if_pos more] at waits
        cases waits
        exact more
      · rw [if_neg more] at waits
        cases waits

def IsEmptied (out : Output) : Prop :=
  out.outbufs ≠ [] ∧ ∀ outbuf ∈ out.outbufs, outbuf.len ≤ 0

/-- The first send raises, if there is one. -/
theorem flushLoop_unanswered (doClose : Bool) (exc : Exc) {out : Output} {count : Nat}
    (counted : out.outbufs.length = count) (socket : out.socket = [.raises exc]) :
    (exec (flushLoop context doClose count) out).1 = .ok () ↔ out.IsEmptied := by
  induction count generalizing out with
  | zero =>
      refine ⟨fun returns => ?_, fun emptied => ?_⟩
      · cases returns
      · exact absurd (List.length_eq_zero_iff.mp counted) emptied.1
  | succ count inductionHypothesis =>
      obtain ⟨first, rest, outbufs⟩ := List.exists_cons_of_length_eq_add_one counted
      rw [outbufs, List.length_cons, Nat.add_right_cancel_iff] at counted
      rw [exec_flushLoop_succ, socket, outbufs]
      dsimp only [List.head?_cons, Option.map_some, Option.getD_some]
      rw [sendLoop]
      by_cases empty : first.len ≤ 0
      · rw [if_pos empty]
        dsimp only
        split
        · rename_i last
          obtain rfl := List.length_eq_zero_iff.mp (counted.trans last)
          refine iff_of_true rfl ⟨by rw [outbufs]; exact List.cons_ne_nil _ _, ?_⟩
          rw [outbufs]
          exact List.forall_mem_singleton.mpr empty
        · rename_i more
          rw [inductionHypothesis (by rwa [outbufs]) rfl, IsEmptied, IsEmptied, outbufs]
          rw [List.forall_mem_cons]
          have others : rest ≠ [] := fun none => more (by rw [← counted, none]; rfl)
          exact ⟨fun emptied => ⟨List.cons_ne_nil _ _, empty, emptied.2⟩,
            fun emptied => ⟨others, emptied.2.2⟩⟩
      · rw [if_neg empty, outbufs]
        refine iff_of_false ?_ fun emptied => ?_
        · rintro ⟨⟩
        · rw [IsEmptied, outbufs] at emptied
          exact empty (emptied.2 first List.mem_cons_self)

/-- On a closed channel the call gets to a wait exactly if a byte is left in an outbuf. -/
theorem flushUnderLock_closed {out : Output} (closed : out.closed = true)
    (lost : out.connected = false) :
    (∃ raised after, exec (flushUnderLock context) out.answering = (.ok (.waits raised), after)) ↔
      ¬ out.IsEmptied := by
  have socket : out.answering.socket = [.raises .attributeError] := if_pos closed
  have flushes := @flushLoop_unanswered context false .attributeError out.answering _ rfl socket
  have stays : (exec (flushException context false) out.answering).2.connected = false :=
    (flushException_connected context out.answering).symm.trans lost
  change _ ↔ ¬ out.answering.IsEmptied
  rw [flushUnderLock, exec_bind]
  rw [exec_flushException_eq] at stays ⊢
  generalize exec (flushLoop context false out.answering.outbufs.length) out.answering = outcome
    at flushes stays ⊢
  obtain ⟨exc | ⟨⟩, middle⟩ := outcome
  · refine iff_of_true ⟨true, _, rfl⟩ fun emptied => ?_
    cases flushes.mpr emptied
  · refine iff_of_false ?_ (not_not_intro (flushes.mp rfl))
    have goesOn : ¬ (middle.connected = true ∧
        middle.totalOutbufsLen > context.adj.outbufHighWatermark) :=
      fun more => Bool.noConfusion (stays.symm.trans more.1)
    rintro ⟨raised, after, waits⟩
    dsimp only at waits
    rw [exec_get_bind, if_neg Bool.false_ne_true, if_neg goesOn] at waits
    cases waits

end Output

end Waitress
