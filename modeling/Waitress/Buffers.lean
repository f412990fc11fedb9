import Waitress.Python

/-!
# Buffers

`BytesIO` objects and temporary files behave alike here: a byte string with a
read position.  An `OverflowableBuffer` keeps its data first in a byte string,
then in a `BytesIO` and finally in a temporary file.
-/

namespace Waitress

def copyBytes : Nat := 2 ^ 18

def strbufLimit : Nat := 8192

/-- An open file; `pos` is what `tell()` returns. -/
structure File where
  data : Bytes := []
  pos : Nat := 0
  deriving DecidableEq, Repr

namespace File

/-- `read(numbytes)`; a negative count reads to the end. -/
def read (file : File) (numbytes : Int) : Bytes × File :=
  let res :=
    if numbytes < 0 then file.data.drop file.pos
    else (file.data.drop file.pos).take numbytes.toNat
  (res, { file with pos := file.pos + res.length })

/-- `write(s)` at the position; a gap behind the end is filled with zeros. -/
def write (file : File) (s : Bytes) : File :=
  if s = [] then file
  else
    { data := file.data.take file.pos ++ List.replicate (file.pos - file.data.length) 0 ++
        s ++ file.data.drop (file.pos + s.length)
      pos := file.pos + s.length }

def seek (file : File) (pos : Nat) : File := { file with pos }

def seekEnd (file : File) : File := { file with pos := file.data.length }

def copyLoop (source target : File) : File :=
  if (source.read copyBytes).1 = [] then target
  else copyLoop (source.read copyBytes).2 (target.write (source.read copyBytes).1)
termination_by source.data.length - source.pos
decreasing_by
  rename_i more
  have positive := List.length_pos_iff.mpr more
  have bound : ¬ (copyBytes : Int) < 0 := by simp [copyBytes]
  simp only [read, bound, if_false, List.length_take, List.length_drop] at positive ⊢
  omega

end File

/-- The classes of buffers that `OverflowableBuffer` puts its data in. -/
inductive FileKind where
  | bytesio
  | tempfile
  deriving DecidableEq, Repr

/-- Every access to a closed file raises; what follows is about open ones. -/
structure FileBasedBuffer where
  kind : FileKind
  file : File := {}
  remain : Int := 0
  closed : Bool := false
  deriving DecidableEq, Repr

namespace FileBasedBuffer

def new (kind : FileKind) : Option FileBasedBuffer → FileBasedBuffer
  | none => { kind }
  | some fromBuffer =>
      let readPos := fromBuffer.file.pos
      let file := File.copyLoop (fromBuffer.file.seek 0) {}
      { kind, remain := (file.pos : Int) - readPos, file := file.seek readPos }

def append (buf : FileBasedBuffer) (s : Bytes) : FileBasedBuffer :=
  let readPos := buf.file.pos
  { buf with
    file := ((buf.file.seekEnd).write s).seek readPos
    remain := buf.remain + s.length }

def get (buf : FileBasedBuffer) (numbytes : Int) (skip : Bool) : Bytes × FileBasedBuffer :=
  let readPos := buf.file.pos
  let (res, file) := buf.file.read numbytes
  if skip then (res, { buf with file, remain := buf.remain - res.length })
  else (res, { buf with file := file.seek readPos })

def skip (buf : FileBasedBuffer) (numbytes : Nat) : Except Exc Unit × FileBasedBuffer :=
  if buf.remain < numbytes then (.error .valueError, buf)
  else
    (.ok (), { buf with
      file := buf.file.seek (buf.file.pos + numbytes)
      remain := buf.remain - numbytes })

/-- The new file is not rewound after the copy. -/
def prune (buf : FileBasedBuffer) : FileBasedBuffer :=
  if buf.remain = 0 ∧ buf.file.data = [] then buf
  else { buf with file := File.copyLoop buf.file {} }

def close (buf : FileBasedBuffer) : FileBasedBuffer := { buf with remain := 0, closed := true }

end FileBasedBuffer

/-- `ReadOnlyFileBasedBuffer`, the `wsgi.file_wrapper`, behind `prepare`. -/
structure ReadOnlyFileBasedBuffer where
  file : File
  remain : Int
  deriving DecidableEq, Repr

namespace ReadOnlyFileBasedBuffer

/-- Never more than `remain` is read. -/
def get (buf : ReadOnlyFileBasedBuffer) (numbytes : Int) (skip : Bool) :
    Bytes × ReadOnlyFileBasedBuffer :=
  let numbytes := if numbytes = -1 ∨ numbytes > buf.remain then buf.remain else numbytes
  let readPos := buf.file.pos
  let (res, file) := buf.file.read numbytes
  if skip then (res, { file, remain := buf.remain - res.length })
  else (res, { buf with file := file.seek readPos })

def skip (buf : ReadOnlyFileBasedBuffer) (numbytes : Nat) :
    Except Exc Unit × ReadOnlyFileBasedBuffer :=
  if buf.remain < numbytes then (.error .valueError, buf)
  else
    (.ok (), { file := buf.file.seek (buf.file.pos + numbytes), remain := buf.remain - numbytes })

def close (buf : ReadOnlyFileBasedBuffer) : ReadOnlyFileBasedBuffer := { buf with remain := 0 }

end ReadOnlyFileBasedBuffer

structure OverflowableBuffer where
  overflow : Int
  overflowed : Bool := false
  buf : Option FileBasedBuffer := none
  strbuf : Bytes := []
  deriving DecidableEq, Repr

namespace OverflowableBuffer

def len (buffer : OverflowableBuffer) : Int :=
  match buffer.buf with
  | some buf => buf.remain
  | none => buffer.strbuf.length

def setSmallBuffer (buffer : OverflowableBuffer) : OverflowableBuffer :=
  { buffer with buf := some (.new .bytesio buffer.buf), overflowed := false }

def setLargeBuffer (buffer : OverflowableBuffer) : OverflowableBuffer :=
  { buffer with buf := some (.new .tempfile buffer.buf), overflowed := true }

/-- `_create_buffer`, which also moves the string buffer into the new one. -/
def createBuffer (buffer : OverflowableBuffer) : OverflowableBuffer :=
  let created :=
    if (buffer.strbuf.length : Int) ≥ buffer.overflow then buffer.setLargeBuffer
    else buffer.setSmallBuffer
  if buffer.strbuf = [] then created
  else
    { created with
      buf := created.buf.map fun buf => buf.append buffer.strbuf
      strbuf := [] }

/-- The buffer object in use, created on demand. -/
def withBuffer (buffer : OverflowableBuffer) : OverflowableBuffer :=
  if buffer.buf = none then buffer.createBuffer else buffer

def append (buffer : OverflowableBuffer) (s : Bytes) : OverflowableBuffer :=
  if buffer.buf = none ∧ buffer.strbuf.length + s.length < strbufLimit then
    { buffer with strbuf := buffer.strbuf ++ s }
  else
    let created := buffer.withBuffer
    let filled : OverflowableBuffer :=
      { created with buf := created.buf.map fun buf => buf.append s }
    if filled.overflowed = false ∧ filled.len ≥ filled.overflow then filled.setLargeBuffer
    else filled

def get (buffer : OverflowableBuffer) (numbytes : Int) (skip : Bool) :
    Bytes × OverflowableBuffer :=
  if buffer.buf = none ∧ skip = false then (buffer.strbuf, buffer)
  else
    let buffer := buffer.withBuffer
    match buffer.buf with
    | none => ([], buffer)
    | some buf => ((buf.get numbytes skip).1, { buffer with buf := (buf.get numbytes skip).2 })

def skip (buffer : OverflowableBuffer) (numbytes : Nat) (allowPrune : Bool) :
    Except Exc Unit × OverflowableBuffer :=
  if buffer.buf = none ∧ allowPrune = true ∧ numbytes = buffer.strbuf.length then
    (.ok (), { buffer with strbuf := [] })
  else
    let buffer := buffer.withBuffer
    match buffer.buf with
    | none => (.ok (), buffer)
    | some buf => ((buf.skip numbytes).1, { buffer with buf := (buf.skip numbytes).2 })

def prune (buffer : OverflowableBuffer) : OverflowableBuffer :=
  match buffer.buf with
  | none => { buffer with strbuf := [] }
  | some buf =>
      let pruned : OverflowableBuffer := { buffer with buf := some buf.prune }
      if pruned.overflowed = true ∧ pruned.len < pruned.overflow then pruned.setSmallBuffer
      else pruned

def getfile (buffer : OverflowableBuffer) : File × OverflowableBuffer :=
  let buffer := buffer.withBuffer
  ((buffer.buf.map FileBasedBuffer.file).getD {}, buffer)

def close (buffer : OverflowableBuffer) : OverflowableBuffer :=
  { buffer with buf := buffer.buf.map FileBasedBuffer.close }

def isClosed (buffer : OverflowableBuffer) : Bool := buffer.buf.any FileBasedBuffer.closed

end OverflowableBuffer

end Waitress
