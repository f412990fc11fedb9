import Waitress.Channel.Lossless

/-!
# The flags of a channel

What the operations on the output do to the flags.  A decision to close is
never taken back, and a connection that is lost does not come back.
-/

namespace Waitress

open Raising

namespace Output

/-- What an operation in a task or in a flush does to the flags. -/
structure KeepsFlags (before after : Output) : Prop where
  connected : after.connected = true → before.connected = true
  willClose : before.willClose = true → after.willClose = true
  closeWhenFlushed : after.closeWhenFlushed = before.closeWhenFlushed
  sentContinue : after.sentContinue = before.sentContinue

instance : IsPreorder Output KeepsFlags where
  refl _ := ⟨id, id, rfl, rfl⟩
  trans _ _ _ first second :=
    { connected := first.connected ∘ second.connected
      willClose := second.willClose ∘ first.willClose
      closeWhenFlushed := second.closeWhenFlushed.trans first.closeWhenFlushed
      sentContinue := second.sentContinue.trans first.sentContinue }

theorem Flushes.keepsFlags {before after : Output} (flushes : Flushes before after) :
    KeepsFlags before after where
  connected := flushes.connected
  willClose closes := flushes.willClose.trans closes
  closeWhenFlushed := flushes.closeWhenFlushed
  sentContinue := flushes.sentContinue

variable (context : ChannelContext)

theorem flushSome_keepsFlags (doClose : Bool) : Within KeepsFlags (flushSome context doClose) :=
  fun out => (flushSome_flushes context doClose out).keepsFlags

theorem flushException_keepsFlags (doClose : Bool) :
    Within KeepsFlags (flushException context doClose) :=
  flushException_within (flushSome_keepsFlags context doClose) fun _ => ⟨id, fun _ => rfl, rfl, rfl⟩

theorem rotate_keepsFlags (out : Output) : KeepsFlags out (rotate context out) := by
  rw [rotate]
  split
  · exact ⟨id, id, rfl, rfl⟩
  · exact refl out

theorem appendPayload_keepsFlags (data : Payload) :
    Within KeepsFlags (appendPayload context data) := by
  cases data with
  | bytes data =>
      refine within_bind (within_modify (rotate_keepsFlags context)) fun _ => ?_
      refine within_bind within_get fun out => ?_
      refine within_bind (within_ofExcept _) fun outbufs => ?_
      exact within_modify fun _ => ⟨id, id, rfl, rfl⟩
  | file data =>
      rw [appendPayload, appendFile]
      split
      · exact within_throw _
      · exact within_modify fun _ => ⟨id, id, rfl, rfl⟩

theorem writeSoonOutput_keepsFlags (data : Payload) :
    Within KeepsFlags (writeSoonOutput context data) :=
  writeSoonOutput_within (flushException_keepsFlags context false)
    (appendPayload_keepsFlags context data)

/-! ### A task does not close the channel -/

/-- Only a flush by the main thread or of the line may close it. -/
theorem sendLoop_connected (socket : List SendResult) (outbuflen : Int) (out : Output) :
    (sendLoop context false socket outbuflen out).2.connected = out.connected := by
  fun_induction sendLoop context false socket outbuflen out with
  | case9 outbuflen out more outbuf rest outbufs n answers chunk numSent some skipped
      inductionHypothesis => exact inductionHypothesis
  | _ => rfl

theorem flushException_connected :
    Within (SameView Output.connected) (flushException context false) := by
  refine flushException_within (flushSome_within (fun outbuflen out => ?_) fun _ => rfl) fun _ => rfl
  exact (sendLoop_connected context out.socket outbuflen out).symm

structure Relieves (before after : Output) : Prop extends KeepsFlags before after where
  stays : after.connected = before.connected
  written : after.written = before.written

instance : IsPreorder Output Relieves where
  refl out := ⟨refl out, rfl, rfl⟩
  trans _ _ _ first second :=
    { toKeepsFlags := IsTrans.trans _ _ _ first.toKeepsFlags second.toKeepsFlags
      stays := second.stays.trans first.stays
      written := second.written.trans first.written }

theorem flushUnderLock_relieves : Within Relieves (flushUnderLock context) := by
  have sends : ∀ outbuflen (out : Output),
      Relieves out (sendLoop context false out.socket outbuflen out).2 := by
    intro outbuflen out
    have flushes := sendLoop_flushes context false out.socket outbuflen out
    exact
      { toKeepsFlags := flushes.keepsFlags
        stays := sendLoop_connected context out.socket outbuflen out
        written := flushes.written }
  have flushed : Within Relieves (flushException context false) :=
    flushException_within (flushSome_within sends fun _ => ⟨⟨id, id, rfl, rfl⟩, rfl, rfl⟩)
      fun _ => ⟨⟨id, fun _ => rfl, rfl, rfl⟩, rfl, rfl⟩
  refine within_bind flushed fun _ => within_bind within_get fun out => ?_
  repeat' split
  · exact within_pure _
  · exact within_pure _
  · exact within_pure _

theorem appendPayload_connected (data : Payload) :
    Within (SameView Output.connected) (appendPayload context data) := by
  cases data with
  | bytes data =>
      refine within_bind (within_modify fun out => ?_) fun _ => ?_
      · rw [SameView, rotate]
        split
        · rfl
        · rfl
      refine within_bind within_get fun out => ?_
      exact within_bind (within_ofExcept _) fun outbufs => within_modify fun _ => rfl
  | file data =>
      rw [appendPayload, appendFile]
      split
      · exact within_throw _
      · exact within_modify fun _ => rfl

theorem writeSoonOutput_connected (data : Payload) :
    Within (SameView Output.connected) (writeSoonOutput context data) :=
  writeSoonOutput_within (flushException_connected context) (appendPayload_connected context data)

theorem flushWrite_keepsFlags (idle lockable : Bool) :
    Within KeepsFlags (flushWrite context idle lockable) :=
  flushWrite_within (flushException_keepsFlags context true) fun _ => ⟨id, id, rfl, rfl⟩

/-! ### The flags as an operation finds them -/

theorem KeepsFlags.of_answering {out after : Output} (keeps : KeepsFlags out.answering after) :
    KeepsFlags out after :=
  ⟨keeps.connected, keeps.willClose, keeps.closeWhenFlushed, keeps.sentContinue⟩

theorem Relieves.of_answering {out after : Output} (relieves : Relieves out.answering after) :
    Relieves out after :=
  ⟨relieves.toKeepsFlags.of_answering, relieves.stays, relieves.written⟩

structure ContinueSent (before after : Output) : Prop where
  connected : after.connected = true → before.connected = true
  willClose : after.willClose = before.willClose
  closeWhenFlushed : after.closeWhenFlushed = before.closeWhenFlushed
  sentContinue : after.sentContinue = true
  written : after.written = before.written ++ continueLine

theorem ContinueSent.of_answering {out after : Output} (sent : ContinueSent out.answering after) :
    ContinueSent out after :=
  ⟨sent.connected, sent.willClose, sent.closeWhenFlushed, sent.sentContinue, sent.written⟩

theorem exec_sendContinueOutput (out : Output) :
    (∃ exc, exec (sendContinueOutput context) out = (.error exc, out)) ∨
      ContinueSent out (exec (sendContinueOutput context) out).2 := by
  rw [sendContinueOutput, exec_get_bind, exec_bind, exec_ofExcept]
  cases appendLast continueLine out.outbufs with
  | error exc => exact .inl ⟨exc, rfl⟩
  | ok outbufs =>
      right
      dsimp only
      rw [exec_modify_bind]
      have flushed := within_bind (flushSome_flushes context true) fun _ => within_pure ()
      obtain ⟨willClose, closeWhenFlushed, sentContinue, written, connected⟩ := flushed
        { out with
          outbufs
          currentOutbufCount := out.currentOutbufCount + continueLine.length
          totalOutbufsLen := out.totalOutbufsLen + continueLine.length
          written := out.written ++ continueLine
          sentContinue := true }
      exact ⟨connected, willClose, closeWhenFlushed, sentContinue, written⟩

end Output

end Waitress
