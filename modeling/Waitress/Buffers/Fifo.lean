import Waitress.Buffers

/-!
# Buffers are byte queues

The pending content of a buffer is what a reader would get from it.  Through
every change of its storage an `OverflowableBuffer` behaves as a queue of bytes.
-/

namespace Waitress

namespace File

/-- The bytes from the read position to the end. -/
def pending (file : File) : Bytes := file.data.drop file.pos

@[simp] theorem seek_data (file : File) (pos : Nat) : (file.seek pos).data = file.data := rfl

@[simp] theorem seek_pos (file : File) (pos : Nat) : (file.seek pos).pos = pos := rfl

@[simp] theorem seekEnd_data (file : File) : file.seekEnd.data = file.data := rfl

@[simp] theorem seekEnd_pos (file : File) : file.seekEnd.pos = file.data.length := rfl

@[simp] theorem read_data (file : File) (numbytes : Int) :
    (file.read numbytes).2.data = file.data := rfl

@[simp] theorem read_pos (file : File) (numbytes : Int) :
    (file.read numbytes).2.pos = file.pos + (file.read numbytes).1.length := rfl

theorem read_fst (file : File) (numbytes : Int) :
    (file.read numbytes).1 =
      if numbytes < 0 then file.pending else file.pending.take numbytes.toNat := rfl

/-- What is read and what stays pending make up what was pending. -/
theorem read_append_pending (file : File) (numbytes : Int) :
    (file.read numbytes).1 ++ (file.read numbytes).2.pending = file.pending := by
  have rest : (file.read numbytes).2.pending =
      file.pending.drop (file.read numbytes).1.length := by
    simp only [pending, read_data, read_pos, List.drop_drop]
  rw [rest, read_fst]
  by_cases all : numbytes < 0
  · simp [all]
  · simp only [all, if_false, List.length_take]
    rcases Nat.le_total numbytes.toNat file.pending.length with inside | beyond
    · rw [Nat.min_eq_left inside, List.take_append_drop]
    · rw [Nat.min_eq_right beyond, List.take_of_length_le beyond, List.drop_length,
        List.append_nil]

theorem write_at_end {file : File} (atEnd : file.pos = file.data.length) (s : Bytes) :
    file.write s = { data := file.data ++ s, pos := file.pos + s.length } := by
  by_cases empty : s = []
  · simp [write, empty]
  · simp [write, empty, atEnd]

/-- A copy to the end of a file adds everything that was pending. -/
theorem copyLoop_eq (source : File) {target : File} (atEnd : target.pos = target.data.length) :
    copyLoop source target =
      { data := target.data ++ source.pending
        pos := target.pos + source.pending.length } := by
  fun_induction copyLoop source target with
  | case1 source target finished =>
      have empty : source.pending = [] := by
        have limit : (source.read copyBytes).1 = source.pending.take copyBytes := by
          rw [read_fst, if_neg (by simp [copyBytes]), Int.toNat_natCast]
        rw [limit, List.take_eq_nil_iff] at finished
        exact finished.resolve_left (by simp [copyBytes])
      simp [empty]
  | case2 source target more inductionHypothesis =>
      rw [write_at_end atEnd] at inductionHypothesis ⊢
      rw [inductionHypothesis (by simp [atEnd])]
      have split := read_append_pending source copyBytes
      simp only [List.append_assoc, split, Nat.add_assoc, ← List.length_append]

end File

namespace FileBasedBuffer

/-- The recorded length is that of the pending part of the file. -/
structure Valid (buf : FileBasedBuffer) : Prop where
  bound : buf.file.pos ≤ buf.file.data.length
  remain : buf.remain = buf.file.pending.length
  isOpen : buf.closed = false

theorem new_none_valid (kind : FileKind) : (new kind none).Valid :=
  ⟨Nat.le_refl _, rfl, rfl⟩

theorem new_some (kind : FileKind) (buf : FileBasedBuffer) :
    (new kind (some buf)).file = buf.file ∧
      (new kind (some buf)).remain = (buf.file.data.length : Int) - buf.file.pos := by
  have copied := File.copyLoop_eq (buf.file.seek 0) (show ({} : File).pos = _ from rfl)
  constructor
  · simp only [new, copied]
    cases file : buf.file
    simp [File.seek, File.pending]
  · simp [new, copied, File.pending]

theorem new_some_valid (kind : FileKind) {buf : FileBasedBuffer} (valid : buf.Valid) :
    (new kind (some buf)).Valid := by
  obtain ⟨file, remain⟩ := new_some kind buf
  refine ⟨by rw [file]; exact valid.bound, ?_, rfl⟩
  rw [remain, file, File.pending, List.length_drop]
  have bound := valid.bound
  omega

@[simp]
theorem new_kind (kind : FileKind) (buf : Option FileBasedBuffer) : (new kind buf).kind = kind := by
  cases buf <;> rfl

theorem append_pending {buf : FileBasedBuffer} (valid : buf.Valid) (s : Bytes) :
    (buf.append s).file.pending = buf.file.pending ++ s := by
  simp only [append, File.write_at_end (File.seekEnd_pos _), File.pending, File.seek_data,
    File.seek_pos, File.seekEnd_data]
  rw [List.drop_append_of_le_length valid.bound]

theorem append_valid {buf : FileBasedBuffer} (valid : buf.Valid) (s : Bytes) :
    (buf.append s).Valid := by
  refine ⟨?_, ?_, valid.isOpen⟩
  · simp only [append, File.write_at_end (File.seekEnd_pos _), File.seek_data, File.seek_pos,
      File.seekEnd_data, List.length_append]
    exact Nat.le_add_right_of_le valid.bound
  · rw [append_pending valid, List.length_append]
    simp only [append, valid.remain, Int.natCast_add]

theorem get_fst (buf : FileBasedBuffer) (numbytes : Int) (skip : Bool) :
    (buf.get numbytes skip).1 = (buf.file.read numbytes).1 := by
  cases skip <;> rfl

theorem get_snd_of_not_skip (buf : FileBasedBuffer) (numbytes : Int) :
    (buf.get numbytes false).2 = buf := by
  cases buf
  rfl

theorem skip_eq {buf : FileBasedBuffer} (valid : buf.Valid) {numbytes : Nat}
    (enough : numbytes ≤ buf.file.pending.length) :
    buf.skip numbytes = (.ok (), { buf with
      file := buf.file.seek (buf.file.pos + numbytes)
      remain := buf.remain - numbytes }) := by
  have possible : ¬ buf.remain < numbytes := by rw [valid.remain]; omega
  rw [skip, if_neg possible]

theorem skip_pending {buf : FileBasedBuffer} (valid : buf.Valid) {numbytes : Nat}
    (enough : numbytes ≤ buf.file.pending.length) :
    (buf.skip numbytes).2.file.pending = buf.file.pending.drop numbytes := by
  simp [skip_eq valid enough, File.pending, List.drop_drop]

theorem skip_valid {buf : FileBasedBuffer} (valid : buf.Valid) {numbytes : Nat}
    (enough : numbytes ≤ buf.file.pending.length) : (buf.skip numbytes).2.Valid := by
  have bound := valid.bound
  refine ⟨?_, ?_, ?_⟩
  · rw [skip_eq valid enough]
    simp only [File.pending, List.length_drop] at enough
    simp only [File.seek_pos, File.seek_data]
    omega
  · rw [skip_pending valid enough, List.length_drop, skip_eq valid enough]
    simp only [valid.remain]
    omega
  · rw [skip_eq valid enough]
    exact valid.isOpen

end FileBasedBuffer

namespace ReadOnlyFileBasedBuffer

def pending (buf : ReadOnlyFileBasedBuffer) : Bytes := buf.file.pending.take buf.remain.toNat

/-- The file holds at least `remain` bytes. -/
structure Valid (buf : ReadOnlyFileBasedBuffer) : Prop where
  nonneg : 0 ≤ buf.remain
  bound : buf.remain ≤ buf.file.pending.length

theorem remain_eq {buf : ReadOnlyFileBasedBuffer} (valid : buf.Valid) :
    buf.remain = buf.pending.length := by
  have nonneg := valid.nonneg
  have bound := valid.bound
  rw [pending, List.length_take]
  omega

theorem get_spec {buf : ReadOnlyFileBasedBuffer} (valid : buf.Valid) (numbytes : Nat) :
    (buf.get numbytes false).2 = buf ∧ (buf.get numbytes false).1 <+: buf.pending := by
  refine ⟨rfl, ?_⟩
  have nonneg := valid.nonneg
  change (buf.file.read (if (numbytes : Int) = -1 ∨ (numbytes : Int) > buf.remain
    then buf.remain else numbytes)).1 <+: _
  rw [File.read_fst]
  split
  · rw [if_neg (by omega)]
    exact List.prefix_refl _
  · rw [if_neg (by omega)]
    exact List.take_prefix_take_left (by omega)

/-- Skipping drops bytes from the front. -/
theorem skip_spec {buf : ReadOnlyFileBasedBuffer} (valid : buf.Valid) {numbytes : Nat}
    (enough : numbytes ≤ buf.pending.length) :
    (buf.skip numbytes).1 = .ok () ∧ (buf.skip numbytes).2.Valid ∧
      (buf.skip numbytes).2.pending = buf.pending.drop numbytes := by
  have nonneg := valid.nonneg
  have bound := valid.bound
  have remain := remain_eq valid
  rw [skip, if_neg (by omega)]
  refine ⟨rfl, ⟨by simp only; omega, ?_⟩, ?_⟩
  · simp only [File.pending, File.seek_data, File.seek_pos, List.length_drop] at bound ⊢
    omega
  · simp only [pending, File.pending, File.seek_data, File.seek_pos, List.drop_take,
      List.drop_drop]
    congr 1
    omega

end ReadOnlyFileBasedBuffer

namespace OverflowableBuffer

/-- The bytes a reader would get, in whatever storage they are. -/
def pending (buffer : OverflowableBuffer) : Bytes :=
  match buffer.buf with
  | some buf => buf.file.pending
  | none => buffer.strbuf

/-- One storage is in use at a time, and its books are right. -/
structure Valid (buffer : OverflowableBuffer) : Prop where
  file : ∀ {buf}, buffer.buf = some buf →
    buf.Valid ∧ buffer.strbuf = [] ∧ (buffer.overflowed = true ↔ buf.kind = .tempfile)
  string : buffer.buf = none → buffer.overflowed = false

theorem fresh_valid (overflow : Int) : ({ overflow } : OverflowableBuffer).Valid :=
  ⟨by simp, by simp⟩

@[simp]
theorem fresh_pending (overflow : Int) : ({ overflow } : OverflowableBuffer).pending = [] := rfl

theorem isClosed_eq {buffer : OverflowableBuffer} (valid : buffer.Valid) :
    buffer.isClosed = false := by
  cases storage : buffer.buf with
  | none => simp [isClosed, storage]
  | some buf => simp [isClosed, storage, (valid.file storage).1.isOpen]

theorem len_eq {buffer : OverflowableBuffer} (valid : buffer.Valid) :
    buffer.len = buffer.pending.length := by
  cases storage : buffer.buf with
  | none => simp [len, pending, storage]
  | some buf => simp [len, pending, storage, (valid.file storage).1.remain]

def firstKind (buffer : OverflowableBuffer) : FileKind :=
  if (buffer.strbuf.length : Int) ≥ buffer.overflow then .tempfile else .bytesio

theorem createBuffer_eq {buffer : OverflowableBuffer} (unset : buffer.buf = none) :
    buffer.createBuffer =
      { overflow := buffer.overflow
        overflowed := decide (buffer.firstKind = .tempfile)
        buf := some ((FileBasedBuffer.new buffer.firstKind none).append buffer.strbuf)
        strbuf := [] } := by
  obtain ⟨overflow, overflowed, buf, strbuf⟩ := buffer
  subst unset
  by_cases empty : strbuf = []
  · subst empty
    by_cases large : overflow ≤ 0 <;>
      simp [createBuffer, firstKind, setLargeBuffer, setSmallBuffer, FileBasedBuffer.new,
        FileBasedBuffer.append, File.seekEnd, File.write, File.seek, large]
  · by_cases large : (strbuf.length : Int) ≥ overflow <;>
      simp only [createBuffer, firstKind, large, if_true, if_false, empty] <;>
      simp [setLargeBuffer, setSmallBuffer, FileBasedBuffer.new, FileBasedBuffer.append,
        File.seekEnd, File.write, File.seek, empty]

theorem withBuffer_spec {buffer : OverflowableBuffer} (valid : buffer.Valid) :
    ∃ buf, buffer.withBuffer.buf = some buf ∧ buffer.withBuffer.Valid ∧
      buffer.withBuffer.pending = buffer.pending := by
  cases storage : buffer.buf with
  | some buf =>
      have same : buffer.withBuffer = buffer := by simp [withBuffer, storage]
      rw [same]
      exact ⟨buf, storage, valid, rfl⟩
  | none =>
      have created : buffer.withBuffer = buffer.createBuffer := by simp [withBuffer, storage]
      have empty := FileBasedBuffer.new_none_valid buffer.firstKind
      rw [created, createBuffer_eq storage]
      refine ⟨_, rfl, ⟨?_, by simp⟩, ?_⟩
      · rintro _ ⟨⟩
        refine ⟨FileBasedBuffer.append_valid empty _, rfl, ?_⟩
        simp [FileBasedBuffer.append]
      · simp only [pending, storage, FileBasedBuffer.append_pending empty]
        rfl

theorem setBuf_valid {buffer : OverflowableBuffer} (valid : buffer.Valid)
    {before after : FileBasedBuffer} (storage : buffer.buf = some before)
    (afterValid : after.Valid) (kind : after.kind = before.kind) :
    ({ buffer with buf := some after } : OverflowableBuffer).Valid := by
  obtain ⟨-, unused, overflowed⟩ := valid.file storage
  refine ⟨?_, by simp⟩
  rintro _ ⟨⟩
  exact ⟨afterValid, unused, by rw [kind]; exact overflowed⟩

theorem setLargeBuffer_valid {buffer : OverflowableBuffer} {buf : FileBasedBuffer}
    (valid : buffer.Valid) (storage : buffer.buf = some buf) : buffer.setLargeBuffer.Valid := by
  obtain ⟨bufValid, unused, -⟩ := valid.file storage
  refine ⟨?_, by simp [setLargeBuffer]⟩
  intro after stored
  simp only [setLargeBuffer, storage, Option.some.injEq] at stored
  subst stored
  exact ⟨FileBasedBuffer.new_some_valid _ bufValid, unused, by simp [setLargeBuffer]⟩

theorem setLargeBuffer_pending {buffer : OverflowableBuffer} {buf : FileBasedBuffer}
    (storage : buffer.buf = some buf) : buffer.setLargeBuffer.pending = buffer.pending := by
  simp only [setLargeBuffer, pending, storage, (FileBasedBuffer.new_some .tempfile buf).1]

/-- Appended bytes are queued behind the pending ones. -/
theorem append_spec {buffer : OverflowableBuffer} (valid : buffer.Valid) (s : Bytes) :
    (buffer.append s).Valid ∧ (buffer.append s).pending = buffer.pending ++ s := by
  by_cases short : buffer.buf = none ∧ buffer.strbuf.length + s.length < strbufLimit
  · rw [append, if_pos short]
    refine ⟨⟨by simp [short.1], fun _ => valid.string short.1⟩, ?_⟩
    simp [pending, short.1]
  · obtain ⟨buf, storage, created, same⟩ := withBuffer_spec valid
    obtain ⟨bufValid, -, -⟩ := created.file storage
    let filled : OverflowableBuffer := { buffer.withBuffer with buf := some (buf.append s) }
    have filledValid : filled.Valid :=
      setBuf_valid created storage (FileBasedBuffer.append_valid bufValid s) rfl
    have filledPending : filled.pending = buffer.pending ++ s := by
      rw [← same]
      simp only [filled, pending, storage, FileBasedBuffer.append_pending bufValid]
    have result : buffer.append s =
        if filled.overflowed = false ∧ filled.len ≥ filled.overflow then filled.setLargeBuffer
        else filled := by
      rw [append, if_neg short]
      simp only [storage, Option.map_some, filled]
    rw [result]
    split
    · exact ⟨setLargeBuffer_valid filledValid rfl,
        by rw [setLargeBuffer_pending rfl, filledPending]⟩
    · exact ⟨filledValid, filledPending⟩

/-- `getfile` hands out a file positioned at the pending bytes. -/
theorem getfile_pending {buffer : OverflowableBuffer} (valid : buffer.Valid) :
    buffer.getfile.1.pending = buffer.pending := by
  obtain ⟨buf, storage, -, same⟩ := withBuffer_spec valid
  rw [← same]
  simp [getfile, pending, storage]

theorem get_spec (buffer : OverflowableBuffer) (numbytes : Nat) :
    (buffer.get numbytes false).2 = buffer ∧ (buffer.get numbytes false).1 <+: buffer.pending ∧
      (0 < numbytes → (buffer.get numbytes false).1 = [] → buffer.pending = []) := by
  cases storage : buffer.buf with
  | none => simp [get, storage, pending]
  | some buf =>
      have held : buffer.withBuffer = buffer := by simp [withBuffer, storage]
      have result : buffer.get numbytes false = ((buf.file.read numbytes).1, buffer) := by
        simp only [get, storage, held, reduceCtorEq, false_and, if_false,
          FileBasedBuffer.get_snd_of_not_skip, FileBasedBuffer.get_fst]
        rw [← storage]
      have taken : (buf.file.read numbytes).1 = buf.file.pending.take numbytes := by
        rw [File.read_fst, if_neg (by omega), Int.toNat_natCast]
      rw [result, taken]
      simp only [pending, storage, true_and]
      refine ⟨List.take_prefix _ _, fun positive none => ?_⟩
      exact (List.take_eq_nil_iff.mp none).resolve_left (by omega)

/-- Skipping drops bytes from the front. -/
theorem skip_spec {buffer : OverflowableBuffer} (valid : buffer.Valid) {numbytes : Nat}
    (enough : numbytes ≤ buffer.pending.length) (allowPrune : Bool) :
    (buffer.skip numbytes allowPrune).1 = .ok () ∧
      (buffer.skip numbytes allowPrune).2.Valid ∧
      (buffer.skip numbytes allowPrune).2.pending = buffer.pending.drop numbytes := by
  by_cases whole : buffer.buf = none ∧ allowPrune = true ∧ numbytes = buffer.strbuf.length
  · rw [skip, if_pos whole]
    refine ⟨rfl, ⟨by simp [whole.1], fun _ => valid.string whole.1⟩, ?_⟩
    simp [pending, whole.1, whole.2.2]
  · obtain ⟨buf, storage, created, same⟩ := withBuffer_spec valid
    obtain ⟨bufValid, -, -⟩ := created.file storage
    have content : buf.file.pending = buffer.pending := by
      rw [← same]
      simp only [pending, storage]
    rw [← content] at enough
    have result : buffer.skip numbytes allowPrune =
        (.ok (), { buffer.withBuffer with buf := some (buf.skip numbytes).2 }) := by
      rw [skip, if_neg whole]
      simp only [storage, FileBasedBuffer.skip_eq bufValid enough]
    rw [result]
    refine ⟨rfl, ?_, ?_⟩
    · refine setBuf_valid created storage (FileBasedBuffer.skip_valid bufValid enough) ?_
      rw [FileBasedBuffer.skip_eq bufValid enough]
    · rw [← content]
      simp only [pending, FileBasedBuffer.skip_pending bufValid enough]

end OverflowableBuffer

end Waitress
