import Waitress.Buffers.Operations

/-!
# Pruning and peeking

`prune` is left at the end of the file that it has copied to, and a string is shown
whole whatever was asked for.
-/

namespace Waitress

namespace FileBasedBuffer

theorem prune_eq {buf : FileBasedBuffer} (some : ¬ (buf.remain = 0 ∧ buf.file.data = [])) :
    buf.prune =
      { buf with file := { data := buf.file.pending, pos := buf.file.pending.length } } := by
  have copied := File.copyLoop_eq buf.file (show ({} : File).pos = _ from rfl)
  rw [prune, if_neg some, copied, List.nil_append, Nat.zero_add]

/-- Nothing can be read any more, since the new file is not rewound. -/
theorem prune_pending (buf : FileBasedBuffer) : buf.prune.file.pending = [] := by
  by_cases none : buf.remain = 0 ∧ buf.file.data = []
  · rw [prune, if_pos none, File.pending, none.2, List.drop_nil]
  · rw [prune_eq none]
    exact List.drop_length

theorem prune_remain (buf : FileBasedBuffer) : buf.prune.remain = buf.remain := by
  rw [prune]
  split
  · rfl
  · rfl

/-- The recorded length only stays right if there was nothing to read before. -/
theorem prune_valid {buf : FileBasedBuffer} (valid : buf.Valid) (empty : buf.file.pending = []) :
    buf.prune.Valid := by
  have pruned := prune_pending buf
  refine ⟨?_, ?_, ?_⟩
  · by_cases none : buf.remain = 0 ∧ buf.file.data = []
    · rw [prune, if_pos none]
      exact valid.bound
    · rw [prune_eq none]
  · rw [prune_remain, pruned, valid.remain, empty]
  · by_cases none : buf.remain = 0 ∧ buf.file.data = []
    · rw [prune, if_pos none]
      exact valid.isOpen
    · rw [prune_eq none]
      exact valid.isOpen

end FileBasedBuffer

namespace OverflowableBuffer

theorem setSmallBuffer_pending {buffer : OverflowableBuffer} {buf : FileBasedBuffer}
    (storage : buffer.buf = some buf) : buffer.setSmallBuffer.pending = buffer.pending := by
  simp only [setSmallBuffer, pending, storage, (FileBasedBuffer.new_some .bytesio buf).1]

/-- In every storage the pending bytes are lost. -/
theorem prune_pending (buffer : OverflowableBuffer) : buffer.prune.pending = [] := by
  cases storage : buffer.buf with
  | none => simp [prune, pending, storage]
  | some buf =>
      have pruned := FileBasedBuffer.prune_pending buf
      simp only [prune, storage]
      split
      · rw [setSmallBuffer_pending rfl]
        exact pruned
      · exact pruned

theorem prune_len {buffer : OverflowableBuffer} (valid : buffer.Valid)
    (empty : buffer.pending = []) : buffer.prune.len = 0 := by
  cases storage : buffer.buf with
  | none => simp [prune, len, storage]
  | some buf =>
      have nothing : buf.file.pending = [] := by rwa [pending, storage] at empty
      have bufValid := (valid.file storage).1
      have prunedValid := FileBasedBuffer.prune_valid bufValid nothing
      have remain : buf.prune.remain = 0 := by
        rw [prunedValid.remain, FileBasedBuffer.prune_pending]
        rfl
      simp only [prune, storage]
      split
      · have copied := FileBasedBuffer.new_some_valid .bytesio prunedValid
        change (FileBasedBuffer.new .bytesio (some buf.prune)).remain = 0
        rw [copied.remain, (FileBasedBuffer.new_some .bytesio buf.prune).1,
          FileBasedBuffer.prune_pending]
        rfl
      · exact remain

/-- Pruning discards all that is pending, so that it changes nothing only if that is nothing. -/
theorem run_prune_iff (overflow : Int) (operations : List Operation) :
    let buffer := (run perform { overflow } operations).2
    (buffer.prune.len = buffer.len ∧
        (buffer.prune.get (-1) false).1 = (buffer.get (-1) false).1) ↔ buffer.len = 0 := by
  intro buffer
  have valid : buffer.Valid := (run_spec (fresh_valid overflow) operations).1
  rw [getAll_spec, getAll_spec, prune_pending, len_eq valid]
  constructor
  · rintro ⟨-, content⟩
    have empty : [] = buffer.pending := content
    rw [← empty]
    rfl
  · intro length
    have empty : buffer.pending = [] := List.length_eq_zero_iff.mp (Int.natCast_eq_zero.mp length)
    rw [empty]
    exact ⟨prune_len valid empty, rfl⟩

/-- A string is lost, and so is the unread rest of a temporary file with its length. -/
theorem not_prune_keeps :
    let inString := (run perform { overflow := 2 } [.append [1, 2]]).2
    let inFile := (run perform { overflow := 2 } [.append [1, 2, 3], .getSkip 2]).2
    (inString.len = 2 ∧ inString.prune.len = 0) ∧
      (inFile.len = 1 ∧ (inFile.get (-1) false).1 = [3]) ∧
      inFile.prune.len = 0 ∧ (inFile.prune.get (-1) false).1 = [] := by
  decide +kernel

/-- What is shown of the content, in each storage. -/
theorem peek_eq (buffer : OverflowableBuffer) (numbytes : Nat) :
    buffer.get numbytes false =
      (if buffer.buf = none then buffer.pending else buffer.pending.take numbytes, buffer) := by
  cases storage : buffer.buf with
  | none => simp [get, storage, pending]
  | some buf =>
      have held : buffer.withBuffer = buffer := by simp [withBuffer, storage]
      have taken : (buf.file.read numbytes).1 = buf.file.pending.take numbytes := by
        rw [File.read_fst, if_neg (by omega), Int.toNat_natCast]
      simp only [get, storage, held, reduceCtorEq, false_and, if_false,
        FileBasedBuffer.get_snd_of_not_skip, FileBasedBuffer.get_fst, taken, pending]
      rw [← storage]

/-- The first bytes are shown exactly if the content is in a file or is not longer than that. -/
theorem run_peek_iff (overflow : Int) (operations : List Operation) (numbytes : Nat) :
    let buffer := (run perform { overflow } operations).2
    let shown := buffer.get numbytes false
    (shown.1 = buffer.pending.take numbytes ∧ shown.2.len = buffer.len ∧
        shown.2.pending = buffer.pending) ↔
      (buffer.buf ≠ none ∨ buffer.len ≤ numbytes) := by
  intro buffer shown
  have valid : buffer.Valid := (run_spec (fresh_valid overflow) operations).1
  have result : shown = _ := peek_eq buffer numbytes
  rw [result, len_eq valid, Int.ofNat_le]
  cases storage : buffer.buf with
  | none =>
      rw [if_pos rfl, eq_comm, List.take_eq_self_iff]
      simp
  | some buf => simp

/-- Two bytes are shown although one was asked for. -/
theorem not_peek :
    let buffer := (run perform { overflow := 2 } [.append [1, 2]]).2
    buffer.buf = none ∧ buffer.pending.take 1 = [1] ∧ (buffer.get 1 false).1 = [1, 2] := by
  decide +kernel

end OverflowableBuffer

end Waitress
