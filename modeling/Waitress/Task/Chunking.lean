import Waitress.Receiver.Framing
import Waitress.Task.Writing

/-!
# Chunked responses

A task with chunks writes messages of the grammar that the receiver reads, so
that the one undoes the other.
-/

namespace Waitress

open Raising

/-! ### Chunk sizes -/

theorem hexUpper_digit {n : Nat} (small : n < 16) :
    hexUpper n = [Bytes.upperByte (UInt8.ofNat n.digitChar.toNat)] := by
  rw [hexUpper, Nat.toDigits_of_lt_base small]
  rfl

theorem hexUpper_step {n : Nat} (large : 16 ≤ n) :
    hexUpper n = hexUpper (n / 16) ++ hexUpper (n % 16) := by
  rw [hexUpper_digit (Nat.mod_lt n (by decide)), hexUpper, hexUpper,
    Nat.toDigits_of_base_le (by decide) large, List.map_append, Bytes.upper, List.map_append]
  rfl

theorem hexDigit_spec : ∀ n < 16,
    hexdig (Bytes.upperByte (UInt8.ofNat n.digitChar.toNat)).toNat = true ∧
      hexValue? (Bytes.upperByte (UInt8.ofNat n.digitChar.toNat)) = some n := by
  decide +kernel

theorem hexNumber_append (digits more : Bytes) :
    hexNumber (digits ++ more) =
      more.foldl (fun value x => 16 * value + (hexValue? x).getD 0) (hexNumber digits) := by
  rw [hexNumber, List.foldl_append]
  rfl

/-- A chunk size is written with the digits that the decoder reads. -/
theorem hexUpper_spec (n : Nat) : IsChunkSize (hexUpper n) ∧ hexNumber (hexUpper n) = n := by
  induction n using Nat.strongRecOn with
  | _ n inductionHypothesis =>
      by_cases small : n < 16
      · obtain ⟨digit, value⟩ := hexDigit_spec n small
        rw [hexUpper_digit small]
        refine ⟨⟨List.cons_ne_nil _ _, by simpa using digit⟩, ?_⟩
        rw [hexNumber, List.foldl_cons, List.foldl_nil, value, Option.getD_some, Nat.mul_zero,
          Nat.zero_add]
      · have large : 16 ≤ n := Nat.le_of_not_lt small
        obtain ⟨⟨nonempty, digits⟩, number⟩ :=
          inductionHypothesis (n / 16) (Nat.div_lt_self (by omega) (by decide))
        obtain ⟨digit, value⟩ := hexDigit_spec (n % 16) (Nat.mod_lt n (by decide))
        rw [hexUpper_step large, hexUpper_digit (Nat.mod_lt n (by decide))]
        refine ⟨⟨by simp, fun x mem => ?_⟩, ?_⟩
        · rcases List.mem_append.mp mem with earlier | last
          · exact digits x earlier
          · exact List.mem_singleton.mp last ▸ digit
        · rw [hexNumber_append, number, List.foldl_cons, List.foldl_nil, value, Option.getD_some]
          exact Nat.div_add_mod n 16

def Chunk.ofData (data : Bytes) (nonempty : data ≠ []) : Chunk where
  size := hexUpper data.length
  extension := []
  content := data
  isSize := (hexUpper_spec data.length).1
  isExtension := isChunkExt_nil
  announced := (hexUpper_spec data.length).2
  nonempty := nonempty

def writtenChunks : List Bytes → List Chunk
  | [] => []
  | data :: writes =>
      if nonempty : data ≠ [] then Chunk.ofData data nonempty :: writtenChunks writes
      else writtenChunks writes

/-- The message that a sequence of writes makes, with its last chunk. -/
def ChunkedEncoding.ofWrites (writes : List Bytes) : ChunkedEncoding where
  chunks := writtenChunks writes
  zeros := ascii "0"
  extension := []
  trailer := []
  isSize := ⟨by decide, by simp [ascii]⟩
  isExtension := isChunkExt_nil
  isTrailer := .inl rfl

theorem writtenChunks_spec (writes : List Bytes) :
    (writtenChunks writes).flatMap Chunk.wire = writes.flatMap chunkWire ∧
      (writtenChunks writes).flatMap Chunk.content = writes.flatten := by
  induction writes with
  | nil => exact ⟨rfl, rfl⟩
  | cons data writes inductionHypothesis =>
      obtain ⟨wires, contents⟩ := inductionHypothesis
      rw [List.flatMap_cons, List.flatten_cons, chunkWire, writtenChunks]
      by_cases empty : data = []
      · rw [dif_neg (not_not_intro empty), if_pos empty, wires, contents, empty]
        exact ⟨rfl, rfl⟩
      · rw [dif_pos empty, if_neg empty, List.flatMap_cons, List.flatMap_cons, wires, contents]
        exact ⟨by simp only [Chunk.wire, Chunk.ofData, List.append_nil], rfl⟩

section Runs

variable {context : TaskContext}

/-! ### Chunks -/

theorem writeAll_chunked {task after : Task} {writes : List Bytes}
    (chunked : task.chunkedResponse = true) (body : task.hasBody = true)
    (wrote : exec (writeAll context writes) task = (.ok (), after)) :
    task.Wrote after (writes.flatMap chunkWire) ∧ after.chunkedResponse = true := by
  induction writes generalizing task with
  | nil =>
      obtain rfl := (Prod.mk.inj wrote).2
      exact ⟨.refl task, chunked⟩
  | cons data writes inductionHypothesis =>
      obtain ⟨middle, first, rest⟩ := writeAll_cons_ok context wrote
      obtain ⟨part, -, still, -⟩ := write_wrote context first
      have inChunks := task.chunked_behindHeader context chunked
      have bodyThen := Task.hasBody_of_status (task.frame_behindHeader context).2.2.1
      rw [inChunks] at still
      have isChunk : (task.behindHeader context).payload data = chunkWire data := by
        rw [Task.payload, bodyThen, body, inChunks]
        by_cases empty : data = []
        · simp [empty, chunkWire]
        · simp [empty]
      rw [isChunk] at part
      obtain ⟨more, last⟩ := inductionHypothesis still (part.hasBody.trans body) rest
      rw [List.flatMap_cons]
      exact ⟨part.trans more, last⟩

theorem finish_chunked {task after : Task} (chunked : task.chunkedResponse = true)
    (finished : exec (finish context) task = (.ok (), after)) :
    after.bodySoFar = task.bodySoFar ++ ascii "0\r\n\r\n" := by
  have last : ∀ {middle : Task}, middle.wroteHeader = true → middle.chunkedResponse = true →
      exec (do
        if (← get).chunkedResponse = true then
          writeSoon context fun task => { task with sentBody := task.sentBody ++ ascii "0\r\n\r\n" }
        else pure () : TaskM Unit) middle = (.ok (), after) →
      after.bodySoFar = middle.bodySoFar ++ ascii "0\r\n\r\n" := by
    intro middle written inChunks rest
    rw [exec_get_bind, if_pos inChunks] at rest
    rw [writeSoon_ok rest, Task.bodySoFar, Task.bodySoFar, if_pos written, if_pos written]
  rw [finish, exec_get_bind] at finished
  split at finished
  · next unwritten =>
      obtain ⟨⟨⟩, middle, wrote, rest⟩ := exec_bind_ok finished
      obtain ⟨part, written, still, -⟩ := write_wrote context wrote
      rw [task.chunked_behindHeader context chunked] at still
      rw [last written still rest, part.body, Task.payload, if_pos (.inl rfl), List.append_nil]
  · next written => exact last (by simpa using written) chunked finished

theorem respondWith_chunked {task after : Task} {writes : List Bytes}
    (chunked : task.chunkedResponse = true) (body : task.hasBody = true)
    (ran : exec (respondWith context writes) task = (.ok (), after)) :
    after.bodySoFar = task.bodySoFar ++ (ChunkedEncoding.ofWrites writes).wire := by
  obtain ⟨⟨⟩, middle, wrote, finished⟩ := exec_bind_ok ran
  obtain ⟨part, still⟩ := writeAll_chunked chunked body wrote
  rw [finish_chunked still finished, part.body,
    ChunkedEncoding.wire, ChunkedEncoding.ofWrites, (writtenChunks_spec writes).1,
    List.append_assoc]
  rfl

/-- The receiver finished with this content, and took all that it was fed. -/
structure ChunkedReceiver.Decodes (overflow : Int) (segments : List Bytes) (content : Bytes) :
    Prop where
  completed : (consumer.feed (fresh overflow) segments).1.completed = true
  accepted : (consumer.feed (fresh overflow) segments).1.error = none
  consumed : (consumer.feed (fresh overflow) segments).2 = segments.flatten.length
  content_eq : (consumer.feed (fresh overflow) segments).1.buf.pending = content

/-- The receiver decodes what a task with chunks sent, however it is cut; and
the task sends it unless the channel or the header block fails. -/
theorem respondWith_decodes {task : Task} (chunked : task.chunkedResponse = true)
    (body : task.hasBody = true) (writes : List Bytes) :
    (∀ after, exec (respondWith context writes) task = (.ok (), after) →
      ∀ overflow segments, after.bodySoFar = task.bodySoFar ++ segments.flatten →
        ChunkedReceiver.Decodes overflow segments writes.flatten) ∧
      (context.Connected → task.complete = true → task.HeaderReady context →
        ∃ after, exec (respondWith context writes) task = (.ok (), after)) := by
  refine ⟨fun after ran overflow segments cut => ?_,
    fun connected complete ready => respondWith_returns connected complete ready writes⟩
  rw [respondWith_chunked chunked body ran] at cut
  have whole : segments.flatten = (ChunkedEncoding.ofWrites writes).wire ++ [] := by
    rw [List.append_nil]
    exact (List.append_cancel_left cut).symm
  obtain ⟨completed, accepted, holds, consumed⟩ :=
    ChunkedReceiver.feed_encoding overflow (ChunkedEncoding.ofWrites writes) [] segments whole
  refine ⟨completed, accepted, ?_, ?_⟩
  · rw [consumed, whole, List.append_nil]
  · rw [holds.pending, ChunkedEncoding.content]
    exact (writtenChunks_spec writes).2

end Runs

theorem respondWith_decodes_sample :
    ∃ after, exec (respondWith { date := [] } [ascii "ab", [], ascii "c"])
        { Task.new { version := "1.1".toList } with
          complete := true, wroteHeader := true, chunkedResponse := true } = (.ok (), after) ∧
      ChunkedReceiver.Decodes 0 [after.bodySoFar.take 4, after.bodySoFar.drop 4] (ascii "abc") := by
  obtain ⟨decodes, returns⟩ := @respondWith_decodes { date := [] }
    { Task.new { version := "1.1".toList } with
      complete := true, wroteHeader := true, chunkedResponse := true }
    rfl (by decide) [ascii "ab", [], ascii "c"]
  obtain ⟨after, ran⟩ := returns (fun _ => rfl) rfl (.inl rfl)
  refine ⟨after, ran, decodes after ran 0 _ ?_⟩
  rw [List.flatten_cons, List.flatten_singleton, List.take_append_drop]
  rfl

/-- An application whose status cannot be encoded replaces it by one without a body. -/
def emptiedResponse : TaskM Unit := do
  startResponse ('2' :: '0' :: '0' :: ' ' :: [Char.ofNat 256]) [] none
  let _outcome ← attempt (write { date := [] } (ascii "x"))
  startResponse "204 No Content".toList [] (some .unicodeError)

/-- Chunks stay decided upon, but a response without a body drops the data. -/
theorem not_respondWith_decodes :
    ∃ task after, exec emptiedResponse (Task.new { version := "1.1".toList }) = (.ok (), task) ∧
      task.chunkedResponse = true ∧
      exec (respondWith { date := [] } [ascii "x"]) task = (.ok (), after) ∧
      ¬ ChunkedReceiver.Decodes 0 [after.bodySoFar] (ascii "x") := by
  refine ⟨(exec emptiedResponse (Task.new { version := "1.1".toList })).2,
    (exec (respondWith { date := [] } [ascii "x"])
      (exec emptiedResponse (Task.new { version := "1.1".toList })).2).2,
    Prod.ext (by decide +kernel) rfl, by decide +kernel, Prod.ext (by decide +kernel) rfl, ?_⟩
  intro decodes
  have content := decodes.content_eq
  revert content
  decide +kernel

end Waitress
