import Waitress.Task.Writing

/-!
# Clipped responses

Against a length the parts that are written are cut off, so that no more than
the announced bytes are sent.
-/

namespace Waitress

open Raising

section Clipping

variable {context : TaskContext}

theorem payload_clipped {task : Task} {data : Bytes} {cl : Int} (body : task.hasBody = true)
    (plain : task.chunkedResponse = false) (known : task.contentLength = some cl)
    (bounded : task.contentBytesWritten ≤ cl) :
    task.payload data = data.take (cl - task.contentBytesWritten).toNat ∧
      task.counted data = task.contentBytesWritten + (task.payload data).length := by
  constructor
  · rw [Task.payload, body, plain, known]
    by_cases empty : data = []
    · simp [empty]
    · rw [if_neg (by simp [empty]), if_neg Bool.false_ne_true]
      dsimp only
      rw [Bytes.sliceTo, if_neg (by omega)]
  · rw [Task.counted, if_neg (by simp [body]), if_pos (by simp [plain, known])]

theorem writeAll_chunks_kept {task after : Task} {writes : List Bytes}
    (wrote : exec (writeAll context writes) task = (.ok (), after))
    (plain : after.chunkedResponse = false) : task.chunkedResponse = false := by
  induction writes generalizing task with
  | nil =>
      obtain rfl := (Prod.mk.inj wrote).2
      exact plain
  | cons data writes inductionHypothesis =>
      obtain ⟨middle, first, rest⟩ := writeAll_cons_ok context wrote
      obtain ⟨-, -, still, -⟩ := write_wrote context first
      have plainThen := inductionHypothesis rest
      rw [still] at plainThen
      cases chunked : task.chunkedResponse with
      | false => rfl
      | true =>
          rw [task.chunked_behindHeader context chunked] at plainThen
          exact plainThen

theorem writeAll_clips {task after : Task} {writes : List Bytes} {cl : Int}
    (wrote : exec (writeAll context writes) task = (.ok (), after))
    (body : task.hasBody = true) (plain : after.chunkedResponse = false)
    (known : task.contentLength = some cl) (bounded : task.contentBytesWritten ≤ cl) :
    task.Wrote after (writes.flatten.take (cl - task.contentBytesWritten).toNat) ∧
      after.contentBytesWritten = task.contentBytesWritten +
        (writes.flatten.take (cl - task.contentBytesWritten).toNat).length := by
  induction writes generalizing task with
  | nil =>
      obtain rfl := (Prod.mk.inj wrote).2
      rw [List.flatten_nil, List.take_nil]
      exact ⟨.refl task, (Int.add_zero _).symm⟩
  | cons data writes inductionHypothesis =>
      obtain ⟨middle, first, rest⟩ := writeAll_cons_ok context wrote
      obtain ⟨part, -, still, counts⟩ := write_wrote context first
      obtain ⟨-, -, status, length, written, -⟩ := task.frame_behindHeader context
      have plainThen := writeAll_chunks_kept rest plain
      rw [still] at plainThen
      obtain ⟨clipped, counted⟩ := @payload_clipped _ data _
        ((Task.hasBody_of_status status).trans body) plainThen (length.trans known)
        (by rw [written]; exact bounded)
      rw [clipped, written] at part counted
      rw [counted, List.length_take] at counts
      obtain ⟨more, countsMore⟩ := inductionHypothesis rest (part.hasBody.trans body)
        (part.length.trans known) (by omega)
      have room : (cl - middle.contentBytesWritten).toNat =
          (cl - task.contentBytesWritten).toNat - data.length := by omega
      rw [room] at more countsMore
      rw [List.flatten_cons, List.take_append]
      refine ⟨part.trans more, ?_⟩
      simp only [List.length_append, List.length_take] at countsMore ⊢
      omega

theorem writeAll_drops {task after : Task} {writes : List Bytes}
    (wrote : exec (writeAll context writes) task = (.ok (), after))
    (noBody : task.hasBody = false) : task.Wrote after [] := by
  induction writes generalizing task with
  | nil =>
      obtain rfl := (Prod.mk.inj wrote).2
      exact .refl task
  | cons data writes inductionHypothesis =>
      obtain ⟨middle, first, rest⟩ := writeAll_cons_ok context wrote
      obtain ⟨part, -⟩ := write_wrote context first
      have noBodyThen := (Task.hasBody_of_status (task.frame_behindHeader context).2.2.1).trans noBody
      rw [Task.payload, if_pos (.inr noBodyThen)] at part
      exact part.trans (inductionHypothesis rest (part.hasBody.trans noBody))

/-- No header gives an empty length; `int` refuses it. -/
def NonemptyLengths (headers : List (Str × Str)) : Prop :=
  ∀ value ∈ Task.lengthValues headers, value ≠ []

theorem checkHeader_headers (header : Str × Str) :
    Within (SameView Task.responseHeaders) (checkHeader header) := by
  rw [checkHeader]
  repeat' split
  · exact within_throw _
  · exact within_throw _
  · exact within_bind (within_ofExcept _) fun length => within_modify fun task => rfl
  · exact within_throw _
  · exact within_pure _

theorem checkHeader_ok {header : Str × Str} {task after : Task}
    (checked : exec (checkHeader header) task = (.ok (), after)) (isLength : Task.IsLength header.1) :
    header.2 ≠ [] := by
  intro empty
  rw [checkHeader] at checked
  split at checked
  · cases checked
  · split at checked
    · cases checked
    · rw [if_pos (show Str.lower header.1 = _ from isLength), empty] at checked
      obtain ⟨length, middle, converted, -⟩ := exec_bind_ok checked
      rw [exec_ofExcept, show intOfStr [] = .error .valueError from rfl] at converted
      cases converted

theorem checkHeaders_ok {headers : List (Str × Str)} {task after : Task}
    (checked : exec (forM headers checkHeader) task = (.ok (), after)) :
    NonemptyLengths headers := by
  induction headers generalizing task with
  | nil => simp [NonemptyLengths]
  | cons header headers inductionHypothesis =>
      rw [List.forM_cons] at checked
      obtain ⟨⟨⟩, middle, first, rest⟩ := exec_bind_ok checked
      intro value mem
      rw [Task.lengthValues_cons] at mem
      split at mem
      · next isLength =>
          rcases List.mem_cons.mp mem with rfl | later
          · exact checkHeader_ok first isLength
          · exact inductionHypothesis rest value later
      · exact inductionHypothesis rest value mem

theorem setResponse_nonemptyLengths (status : Str) (headers : List (Str × Str)) :
    Within (Keeps fun task => NonemptyLengths task.responseHeaders)
      (setResponse status headers) := by
  intro task given
  rw [setResponse, exec_modify_bind]
  split
  · exact given
  rw [exec_modify_bind, exec_bind]
  have same := within_forM headers (fun header _ => checkHeader_headers header)
    { task with complete := true, status }
  rcases outcome : exec (forM headers checkHeader)
      { task with complete := true, status } with ⟨exc | ⟨⟩, middle⟩
  · rw [outcome] at same
    exact same ▸ given
  · rw [outcome] at same
    have others := checkHeaders_ok outcome
    dsimp only
    rw [exec_modify]
    dsimp only
    intro value mem
    rw [Task.lengthValues_append] at mem
    rcases List.mem_append.mp mem with earlier | added
    · exact given value (same.symm ▸ earlier)
    · exact others value added

/-- `start_response` lets no empty length pass. -/
theorem startResponse_nonemptyLengths (status : Str) (headers : List (Str × Str))
    (excInfo : Option Exc) :
    Within (Keeps fun task => NonemptyLengths task.responseHeaders)
      (startResponse status headers excInfo) := by
  intro task given
  rw [startResponse, exec_get_bind]
  cases excInfo with
  | none =>
      dsimp only
      split
      · exact given
      · exact setResponse_nonemptyLengths status headers task given
  | some exc =>
      dsimp only
      split
      · exact given
      · rw [exec_modify_bind]
        exact setResponse_nonemptyLengths status headers _ (by simp [NonemptyLengths])

theorem chunked_decideConnection_announced (task : Task) (connection : Str) :
    (task.decideConnection connection true).chunkedResponse = task.chunkedResponse := by
  rw [Task.decideConnection]
  dsimp only
  repeat' split
  all_goals first
    | rfl
    | contradiction

theorem chunked_decideConnection_noBody {task : Task} (noBody : task.hasBody = false)
    (connection : Str) (announced : Bool) :
    (task.decideConnection connection announced).chunkedResponse = task.chunkedResponse := by
  have none : ∀ other : Task, other.hasBody = false →
      other.decideChunked.chunkedResponse = other.chunkedResponse := by
    intro other without
    simp only [Task.decideChunked, without, Bool.false_eq_true, if_false]
    split
    · rfl
    · rfl
  rw [Task.decideConnection]
  dsimp only
  repeat' split
  all_goals first
    | rfl
    | exact none _ noBody

theorem intStr_ne_nil (n : Int) : intStr n ≠ [] := by
  cases n with
  | ofNat n => exact (natStr_isDecimal n).1
  | negSucc n => exact List.cons_ne_nil _ _

/-- With a length the block does not decide upon chunks. -/
theorem chunked_behindHeader_known {task : Task} {cl : Int} (known : task.contentLength = some cl)
    (nonempty : NonemptyLengths task.responseHeaders) :
    (task.behindHeader context).chunkedResponse = task.chunkedResponse := by
  rw [Task.behindHeader]
  split
  · rfl
  change (task.headerBlock context).chunkedResponse = task.chunkedResponse
  rw [Task.headerBlock, (Task.flags_addDate _ _ _).2, (Task.flags_addServer _ _ _).2]
  cases body : task.hasBody with
  | false =>
      have status : task.normalizeHeaders.addContentLength.status = task.status :=
        (congrArg Task.status (Task.frame_addContentLength task.normalizeHeaders) :)
      have without := (Task.hasBody_of_status status).trans body
      rw [chunked_decideConnection_noBody without, (Task.flags_addContentLength _).2]
      rfl
  | true =>
      have announced : Task.falsy task.normalizeHeaders.contentLengthHeader = false := by
        have values := Task.lengthValues_normalizeHeaders task
        rw [body, if_pos rfl] at values
        rw [Task.contentLengthHeader, Task.lastValue_normalizeHeaders, values]
        cases last : (Task.lengthValues task.responseHeaders).getLast? with
        | some value =>
            have given := nonempty value (List.mem_of_getLast? last)
            simpa [Task.falsy] using given
        | none =>
            have bodyThen : task.normalizeHeaders.hasBody = true := body
            have knownThen : task.normalizeHeaders.contentLength = some cl := known
            dsimp only
            rw [if_pos bodyThen, knownThen]
            simpa [Task.falsy] using intStr_ne_nil cl
      rw [announced, Bool.not_false, chunked_decideConnection_announced,
        (Task.flags_addContentLength _).2]
      rfl

theorem writeAll_plain {task after : Task} {writes : List Bytes} {cl : Int}
    (wrote : exec (writeAll context writes) task = (.ok (), after))
    (plain : task.chunkedResponse = false) (known : task.contentLength = some cl)
    (nonempty : task.wroteHeader = false → NonemptyLengths task.responseHeaders) :
    after.chunkedResponse = false := by
  induction writes generalizing task with
  | nil =>
      obtain rfl := (Prod.mk.inj wrote).2
      exact plain
  | cons data writes inductionHypothesis =>
      obtain ⟨middle, first, rest⟩ := writeAll_cons_ok context wrote
      obtain ⟨part, written, still, -⟩ := write_wrote context first
      refine inductionHypothesis rest ?_ (part.length.trans known)
        (fun unwritten => by rw [written] at unwritten; cases unwritten)
      rw [still]
      cases already : task.wroteHeader with
      | true =>
          rw [Task.behindHeader, if_pos already]
          exact plain
      | false => rw [chunked_behindHeader_known known (nonempty already), plain]

/-- Behind the header block comes as much as the length announces, or nothing
if the status permits no body.  The second part says which tasks send no
chunks, the third that the writes return unless the channel or the header
block fails. -/
theorem writeAll_clipped {task : Task} {cl : Int} (nonneg : 0 ≤ cl)
    (known : task.contentLength = some cl) (unwritten : task.contentBytesWritten = 0)
    (writes : List Bytes) :
    (∀ after, exec (writeAll context writes) task = (.ok (), after) →
      after.chunkedResponse = false →
        (task.hasBody = true → after.bodySoFar = task.bodySoFar ++ writes.flatten.take cl.toNat ∧
          after.contentBytesWritten = (writes.flatten.take cl.toNat).length) ∧
        (task.hasBody = false → after.bodySoFar = task.bodySoFar)) ∧
      (task.chunkedResponse = false →
        (task.wroteHeader = false → NonemptyLengths task.responseHeaders) →
        ∀ after, exec (writeAll context writes) task = (.ok (), after) →
          after.chunkedResponse = false) ∧
      (context.Connected → task.complete = true → task.HeaderReady context →
        ∃ after, exec (writeAll context writes) task = (.ok (), after)) := by
  refine ⟨fun after wrote plain => ⟨fun body => ?_, fun noBody => ?_⟩,
    fun plain nonempty after wrote => writeAll_plain wrote plain known nonempty,
    fun connected complete ready => ?_⟩
  · obtain ⟨part, counts⟩ := writeAll_clips wrote body plain known (by omega)
    rw [unwritten, Int.sub_zero] at part counts
    exact ⟨part.body, by rw [counts, Int.zero_add]⟩
  · rw [(writeAll_drops wrote noBody).body, List.append_nil]
  · obtain ⟨after, wrote, -⟩ := writeAll_returns connected complete ready writes
    exact ⟨after, wrote⟩

end Clipping

theorem writeAll_clipped_sample :
    ∃ after, exec (writeAll { date := [] } [ascii "ab", [], ascii "cd", ascii "e"])
        { Task.new { version := "1.1".toList } with
          complete := true, wroteHeader := true, contentLength := some 3 } = (.ok (), after) ∧
      after.bodySoFar = ascii "abc" ∧ after.contentBytesWritten = 3 := by
  obtain ⟨clips, stays, returns⟩ := @writeAll_clipped { date := [] }
    { Task.new { version := "1.1".toList } with
      complete := true, wroteHeader := true, contentLength := some 3 }
    3 (by decide) rfl rfl [ascii "ab", [], ascii "cd", ascii "e"]
  obtain ⟨after, wrote⟩ := returns (fun _ => rfl) rfl (.inl rfl)
  exact ⟨after, wrote, (clips after wrote (stays rfl nofun after wrote)).1 (by decide)⟩

end Waitress
