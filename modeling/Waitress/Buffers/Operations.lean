import Waitress.Buffers.Fifo

/-!
# Runs of a buffer

The operations of an `OverflowableBuffer` beside those of a queue of bytes.
Whatever is done to them, the two give the same answers and keep the same content.
-/

namespace Waitress

inductive Operation where
  | append (s : Bytes)
  | skip (numbytes : Nat) (allowPrune : Bool)
  /-- `get(-1)` -/
  | getAll
  /-- `get(numbytes, skip=True)` -/
  | getSkip (numbytes : Nat)
  | getfile
  deriving DecidableEq, Repr

/-- What the operation does to a queue, and what it answers.  A file answers
with its bytes from the position on. -/
def Operation.onQueue (queue : Bytes) : Operation → Except Exc Bytes × Bytes
  | .append s => (.ok [], queue ++ s)
  | .skip numbytes _ =>
      if numbytes ≤ queue.length then (.ok [], queue.drop numbytes) else (.error .valueError, queue)
  | .getAll => (.ok queue, queue)
  | .getSkip numbytes => (.ok (queue.take numbytes), queue.drop numbytes)
  | .getfile => (.ok queue, queue)

theorem FileBasedBuffer.getSkip_spec {buf : FileBasedBuffer} (valid : buf.Valid) (numbytes : Nat) :
    (buf.get numbytes true).1 = buf.file.pending.take numbytes ∧
      (buf.get numbytes true).2.Valid ∧
      (buf.get numbytes true).2.file.pending = buf.file.pending.drop numbytes := by
  have taken : (buf.file.read numbytes).1 = buf.file.pending.take numbytes := by
    rw [File.read_fst, if_neg (by omega), Int.toNat_natCast]
  have rest : (buf.file.read numbytes).2.pending = buf.file.pending.drop numbytes := by
    have whole := File.read_append_pending buf.file numbytes
    rw [taken] at whole
    exact List.append_cancel_left (whole.trans (List.take_append_drop _ _).symm)
  have bound := valid.bound
  have remain := valid.remain
  refine ⟨by rw [get_fst, taken], ⟨?_, ?_, valid.isOpen⟩, rest⟩
  · change (buf.file.read numbytes).2.pos ≤ (buf.file.read numbytes).2.data.length
    rw [File.read_pos, File.read_data, taken, List.length_take, File.pending, List.length_drop]
    omega
  · change buf.remain - ((buf.file.read numbytes).1.length : Int) =
      ((buf.file.read numbytes).2.pending.length : Int)
    rw [rest, taken, remain, List.length_take, List.length_drop]
    omega

namespace OverflowableBuffer

def perform (buffer : OverflowableBuffer) : Operation → Except Exc Bytes × OverflowableBuffer
  | .append s => (.ok [], buffer.append s)
  | .skip numbytes allowPrune =>
      ((buffer.skip numbytes allowPrune).1.map fun _ => [], (buffer.skip numbytes allowPrune).2)
  | .getAll => (.ok (buffer.get (-1) false).1, (buffer.get (-1) false).2)
  | .getSkip numbytes => (.ok (buffer.get numbytes true).1, (buffer.get numbytes true).2)
  | .getfile => (.ok buffer.getfile.1.pending, buffer.getfile.2)

/-- The content as a whole is shown, and nothing changes. -/
theorem getAll_spec (buffer : OverflowableBuffer) :
    buffer.get (-1) false = (buffer.pending, buffer) := by
  cases storage : buffer.buf with
  | none => simp [get, storage, pending]
  | some buf =>
      have held : buffer.withBuffer = buffer := by simp [withBuffer, storage]
      simp only [get, storage, held, reduceCtorEq, false_and, if_false, pending,
        FileBasedBuffer.get_snd_of_not_skip, FileBasedBuffer.get_fst]
      rw [← storage, File.read_fst, if_pos (by decide)]

theorem getSkip_spec {buffer : OverflowableBuffer} (valid : buffer.Valid) (numbytes : Nat) :
    (buffer.get numbytes true).1 = buffer.pending.take numbytes ∧
      (buffer.get numbytes true).2.Valid ∧
      (buffer.get numbytes true).2.pending = buffer.pending.drop numbytes := by
  obtain ⟨buf, storage, created, same⟩ := withBuffer_spec valid
  obtain ⟨bufValid, -, -⟩ := created.file storage
  have content : buf.file.pending = buffer.pending := by
    rw [← same]
    simp only [pending, storage]
  have result : buffer.get numbytes true = ((buf.get numbytes true).1,
      { buffer.withBuffer with buf := some (buf.get numbytes true).2 }) := by
    simp only [get, reduceCtorEq, and_false, if_false, storage]
  obtain ⟨taken, validNext, rest⟩ := FileBasedBuffer.getSkip_spec bufValid numbytes
  rw [result, ← content]
  exact ⟨taken, setBuf_valid created storage validNext rfl, rest⟩

/-- More than there is cannot be skipped, and nothing is lost in the attempt. -/
theorem skip_beyond {buffer : OverflowableBuffer} (valid : buffer.Valid) {numbytes : Nat}
    (beyond : buffer.pending.length < numbytes) (allowPrune : Bool) :
    (buffer.skip numbytes allowPrune).1 = .error .valueError ∧
      (buffer.skip numbytes allowPrune).2.Valid ∧
      (buffer.skip numbytes allowPrune).2.pending = buffer.pending := by
  have notWhole : ¬ (buffer.buf = none ∧ allowPrune = true ∧ numbytes = buffer.strbuf.length) := by
    rintro ⟨unset, -, rfl⟩
    simp only [pending, unset, Nat.lt_irrefl] at beyond
  obtain ⟨buf, storage, created, same⟩ := withBuffer_spec valid
  obtain ⟨bufValid, -, -⟩ := created.file storage
  have content : buf.file.pending = buffer.pending := by
    rw [← same]
    simp only [pending, storage]
  have refused : buf.skip numbytes = (.error .valueError, buf) := by
    rw [FileBasedBuffer.skip, if_pos]
    rw [bufValid.remain, content]
    omega
  have result : buffer.skip numbytes allowPrune = (.error .valueError, buffer.withBuffer) := by
    rw [skip, if_neg notWhole]
    simp only [storage, refused]
    rw [← storage]
  rw [result]
  exact ⟨rfl, created, same⟩

theorem getfile_spec {buffer : OverflowableBuffer} (valid : buffer.Valid) :
    buffer.getfile.1.pending = buffer.pending ∧ buffer.getfile.2.Valid ∧
      buffer.getfile.2.pending = buffer.pending := by
  obtain ⟨-, -, created, same⟩ := withBuffer_spec valid
  exact ⟨getfile_pending valid, created, same⟩

theorem perform_spec {buffer : OverflowableBuffer} (valid : buffer.Valid) (operation : Operation) :
    (buffer.perform operation).2.Valid ∧
      operation.onQueue buffer.pending =
        ((buffer.perform operation).1, (buffer.perform operation).2.pending) := by
  cases operation with
  | append s =>
      obtain ⟨validNext, content⟩ := append_spec valid s
      exact ⟨validNext, by rw [perform, content]; rfl⟩
  | skip numbytes allowPrune =>
      by_cases enough : numbytes ≤ buffer.pending.length
      · obtain ⟨skipped, validNext, content⟩ := skip_spec valid enough allowPrune
        refine ⟨validNext, ?_⟩
        rw [perform, skipped, content, Operation.onQueue, if_pos enough]
        rfl
      · obtain ⟨refused, validNext, content⟩ :=
          skip_beyond valid (Nat.lt_of_not_le enough) allowPrune
        refine ⟨validNext, ?_⟩
        rw [perform, refused, content, Operation.onQueue, if_neg enough]
        rfl
  | getAll =>
      rw [perform, getAll_spec]
      exact ⟨valid, rfl⟩
  | getSkip numbytes =>
      obtain ⟨taken, validNext, content⟩ := getSkip_spec valid numbytes
      exact ⟨validNext, by rw [perform, taken, content]; rfl⟩
  | getfile =>
      obtain ⟨shown, validNext, content⟩ := getfile_spec valid
      exact ⟨validNext, by rw [perform, shown, content]; rfl⟩

/-! ### Runs -/

def run {State : Type} (step : State → Operation → Except Exc Bytes × State) (state : State) :
    List Operation → List (Except Exc Bytes) × State
  | [] => ([], state)
  | operation :: rest =>
      ((step state operation).1 :: (run step (step state operation).2 rest).1,
        (run step (step state operation).2 rest).2)

theorem run_spec {buffer : OverflowableBuffer} (valid : buffer.Valid)
    (operations : List Operation) :
    (run perform buffer operations).2.Valid ∧
      run Operation.onQueue buffer.pending operations =
        ((run perform buffer operations).1, (run perform buffer operations).2.pending) := by
  induction operations generalizing buffer with
  | nil => exact ⟨valid, rfl⟩
  | cons operation rest inductionHypothesis =>
      obtain ⟨validNext, step⟩ := perform_spec valid operation
      obtain ⟨validAfter, steps⟩ := inductionHypothesis validNext
      refine ⟨validAfter, ?_⟩
      rw [run, step, steps]
      rfl

/-- Through every change of the storage a new buffer is a queue of bytes. -/
theorem run_isQueue (overflow : Int) (operations : List Operation) :
    let queue := run Operation.onQueue [] operations
    let buffer := (run perform { overflow } operations).2
    (run perform { overflow } operations).1 = queue.1 ∧ buffer.pending = queue.2 ∧
      buffer.len = queue.2.length ∧ (buffer.buf ≠ none → buffer.strbuf = []) ∧
      (buffer.overflowed = true ↔ ∃ buf, buffer.buf = some buf ∧ buf.kind = .tempfile) ∧
      buffer.getfile.1.pending = queue.2 ∧
      ∀ numbytes, queue.2.length < numbytes → ∀ allowPrune,
        (buffer.skip numbytes allowPrune).1 = .error .valueError ∧
          (buffer.skip numbytes allowPrune).2.pending = queue.2 := by
  intro queue buffer
  obtain ⟨valid, agrees⟩ := run_spec (fresh_valid overflow) operations
  rw [fresh_pending] at agrees
  have answers : queue.1 = (run perform { overflow } operations).1 := congrArg Prod.fst agrees
  have content : queue.2 = buffer.pending := congrArg Prod.snd agrees
  have valid : buffer.Valid := valid
  rw [content]
  refine ⟨answers.symm, rfl, len_eq valid, fun used => ?_, ?_, getfile_pending valid,
    fun numbytes beyond allowPrune => ?_⟩
  · obtain ⟨buf, storage⟩ := Option.ne_none_iff_exists'.mp used
    exact (valid.file storage).2.1
  · cases storage : buffer.buf with
    | none => simp [valid.string storage]
    | some buf => simp [(valid.file storage).2.2]
  · obtain ⟨refused, -, kept⟩ := skip_beyond valid beyond allowPrune
    exact ⟨refused, kept⟩

example : (run perform { overflow := 2 }
    [.append [1, 2, 3], .getSkip 1, .skip 3 false, .append [4], .getfile]).1 =
      [.ok [], .ok [1], .error .valueError, .ok [], .ok [2, 3, 4]] := by decide +kernel

end OverflowableBuffer

end Waitress
