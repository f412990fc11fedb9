import Waitress.Parser

/-!
# Tasks

A task answers one request.  The application is a tree: what it does next may
depend on how its calls ended.  The channel is seen through `transport`, which
says of every call of `write_soon` whether it raises.
-/

namespace Waitress

/-- What a task reads of its surroundings. -/
structure TaskContext where
  adj : Adjustments := {}
  /-- `build_http_date(self.start_time)` -/
  date : Str
  /-- `traceback.format_exc()` -/
  traceback : Str := []
  /-- The traceback quotes no lone surrogate. -/
  tracebackEncodable : Bool := true
  transport : Nat → Option Exc := fun _ => none

structure Task where
  request : HTTPRequestParser
  version : Str
  closeOnFinish : Bool := false
  status : Str := "200 OK".toList
  wroteHeader : Bool := false
  contentLength : Option Int := none
  contentBytesWritten : Int := 0
  complete : Bool := false
  chunkedResponse : Bool := false
  responseHeaders : List (Str × Str) := []
  /-- The number of calls of `write_soon` so far. -/
  calls : Nat := 0
  /-- The headers of the last header block that was handed to `write_soon`. -/
  sentHeaders : Option (List (Str × Str)) := none
  /-- The bytes that were handed to `write_soon` behind that block. -/
  sentBody : Bytes := []
  deriving DecidableEq, Repr

abbrev TaskM := Raising Exc Task

/-- `"HTTP/1.0"` stands in for a version that is not supported. -/
def Task.new (request : HTTPRequestParser) : Task :=
  { request
    version :=
      if request.version ∈ ["1.0".toList, "1.1".toList] then request.version
      else "1.0".toList }

def hopByHop : List Str :=
  ["connection".toList, "keep-alive".toList, "proxy-authenticate".toList,
    "proxy-authorization".toList, "te".toList, "trailer".toList, "transfer-encoding".toList,
    "upgrade".toList]

namespace Task

def hasBody (task : Task) : Bool :=
  !("1".toList.isPrefixOf task.status || "204".toList.isPrefixOf task.status ||
    "304".toList.isPrefixOf task.status)

def lastValue (name : Str) (headers : List (Str × Str)) : Option Str :=
  ((headers.filter fun header => header.1 = name).getLast?).map Prod.snd

/-- A value that is missing or empty counts as false. -/
def falsy : Option Str → Bool
  | none => true
  | some value => value.isEmpty

/-- `"-".join([x.capitalize() for x in headername.split("-")])` -/
def headerName (name : Str) : Str :=
  Str.join "-".toList ((Str.split '-' name).map Str.capitalize)

/-- If the headers have not been written yet, the client is told. -/
def setCloseOnFinish (task : Task) : Task :=
  { task with
    responseHeaders :=
      if task.wroteHeader = false ∧
          task.responseHeaders.all (fun header => Str.capitalize header.1 ≠ "Connection".toList) then
        task.responseHeaders ++ [("Connection".toList, "close".toList)]
      else task.responseHeaders
    closeOnFinish := true }

/-- Capitalizes the names and leaves a length out that must not be sent. -/
def normalizeHeaders (task : Task) : Task :=
  { task with
    responseHeaders :=
      (task.responseHeaders.map fun header => (headerName header.1, header.2)).filter fun header =>
        !(header.1 = "Content-Length".toList && !task.hasBody) }

def addHeader (task : Task) (name value : Str) : Task :=
  { task with responseHeaders := task.responseHeaders ++ [(name, value)] }

def contentLengthHeader (task : Task) : Option Str :=
  match lastValue "Content-Length".toList task.responseHeaders with
  | some value => some value
  | none => if task.hasBody then task.contentLength.map intStr else none

def addContentLength (task : Task) : Task :=
  if lastValue "Content-Length".toList task.responseHeaders = none ∧ task.hasBody = true then
    match task.contentLength with
    | some length => task.addHeader "Content-Length".toList (intStr length)
    | none => task
  else task

def decideChunked (task : Task) : Task :=
  let task :=
    if task.hasBody = true then
      { task.addHeader "Transfer-Encoding".toList "chunked".toList with chunkedResponse := true }
    else task
  if task.closeOnFinish = false then task.setCloseOnFinish else task

/-- Figures out whether the connection is to be closed. -/
def decideConnection (task : Task) (connection : Str) (announced : Bool) : Task :=
  if task.version = "1.0".toList then
    if connection = "keep-alive".toList then
      if announced = false then task.setCloseOnFinish
      else task.addHeader "Connection".toList "Keep-Alive".toList
    else task.setCloseOnFinish
  else
    let task := if connection = "close".toList then task.setCloseOnFinish else task
    if announced = false then task.decideChunked else task

def addServer (task : Task) (ident : Option Str) (serverHeader : Option Str) : Task :=
  if falsy serverHeader then
    if falsy ident then task else task.addHeader "Server".toList (ident.getD [])
  else
    task.addHeader "Via".toList (if falsy ident then "waitress".toList else ident.getD [])

def addDate (task : Task) (date : Str) (dateHeader : Option Str) : Task :=
  if falsy dateHeader then task.addHeader "Date".toList date else task

/-- The text of a header block; the headers are sorted by name, the sort being stable. -/
def renderHeader (task : Task) : Str :=
  let firstLine := "HTTP/".toList ++ task.version ++ " ".toList ++ task.status
  let nextLines :=
    (task.responseHeaders.insertionSort fun first second => first.1 ≤ second.1).map
      fun header => header.1 ++ ": ".toList ++ header.2
  Str.join "\r\n".toList (firstLine :: nextLines) ++ "\r\n\r\n".toList

end Task

section Writing

variable (context : TaskContext)

def writeSoon (record : Task → Task) : TaskM Unit := do
  let calls := (← get).calls
  modify fun task => { record task with calls := calls + 1 }
  match context.transport calls with
  | some exc => throw exc
  | none => pure ()

def buildResponseHeader : TaskM Bytes := do
  modify Task.normalizeHeaders
  let task ← get
  let connection := Str.lower (task.request.headers.getD "CONNECTION".toList [])
  let dateHeader := Task.lastValue "Date".toList task.responseHeaders
  let serverHeader := Task.lastValue "Server".toList task.responseHeaders
  let announced := !Task.falsy task.contentLengthHeader
  modify Task.addContentLength
  if task.version ≠ "1.0".toList ∧ task.version ≠ "1.1".toList then throw .assertionError
  modify fun task => task.decideConnection connection announced
  modify fun task => task.addServer context.adj.ident serverHeader
  modify fun task => task.addDate context.date dateHeader
  MonadExcept.ofExcept (encodeLatin1 (← get).renderHeader)

/-- The header block, at the first write. -/
def writeHeader : TaskM Unit := do
  if (← get).wroteHeader = false then
    let _block ← buildResponseHeader context
    writeSoon context fun task =>
      { task with sentHeaders := some task.responseHeaders, sentBody := [] }
    modify fun task => { task with wroteHeader := true }
  else pure ()

def writeData (data : Bytes) : TaskM Unit := do
  let task ← get
  if data = [] then pure ()
  else if task.hasBody = true then
    if task.chunkedResponse = true then
      let towrite := hexUpper data.length ++ crlf ++ (data ++ crlf)
      writeSoon context fun task => { task with sentBody := task.sentBody ++ towrite }
    else
      match task.contentLength with
      | some cl =>
          let towrite := Bytes.sliceTo data (cl - task.contentBytesWritten)
          modify fun task =>
            { task with contentBytesWritten := task.contentBytesWritten + towrite.length }
          if towrite = [] then pure ()
          else writeSoon context fun task => { task with sentBody := task.sentBody ++ towrite }
      | none => writeSoon context fun task => { task with sentBody := task.sentBody ++ data }
  else
    -- The response has no body, but the application is told that all was written.
    modify fun task =>
      { task with contentBytesWritten := task.contentBytesWritten + data.length }

def write (data : Bytes) : TaskM Unit := do
  if (← get).complete = false then throw .runtimeError
  else do
    writeHeader context
    writeData context data

def finish : TaskM Unit := do
  if (← get).wroteHeader = false then write context []
  else pure ()
  if (← get).chunkedResponse = true then
    writeSoon context fun task => { task with sentBody := task.sentBody ++ ascii "0\r\n\r\n" }
  else pure ()

/-- `Task.service`, around the `execute` of a subclass. -/
def serviceTask (execute : TaskM Unit) : TaskM Unit :=
  tryCatch (do
    execute
    finish context) fun exc =>
    if exc = .osError then do
      modify fun task => { task with closeOnFinish := true }
      if context.adj.logSocketErrors = true then throw exc
      else pure ()
    else throw exc

/-- `ErrorTask.execute`; the class sets `complete`. -/
def executeError : TaskM Unit := do
  match (← get).request.error with
  | none => throw .attributeError
  | some error =>
      if error.encodable = false then throw .unicodeError
      else do
        let (status, headers, body) := error.toResponse context.adj.ident
        modify fun task =>
          { task with complete := true, status, responseHeaders := task.responseHeaders ++ headers }
        modify Task.setCloseOnFinish
        modify fun task => { task with contentLength := some (body.length : Int) }
        write context body

end Writing

/-! ### Applications -/

/-- An application's code up to the point where it returns.  `next` is told
which exception the call raised, if any. -/
inductive Call (Result : Type) where
  | startResponse (status : Str) (headers : List (Str × Str)) (excInfo : Option Exc)
      (next : Option Exc → Call Result)
  | write (data : Bytes) (next : Option Exc → Call Result)
  | raises (exc : Exc)
  | returns (result : Result)

/-- An iteration over byte strings, whose code may make calls in between. -/
inductive Iterator where
  | startResponse (status : Str) (headers : List (Str × Str)) (excInfo : Option Exc)
      (next : Option Exc → Iterator)
  | write (data : Bytes) (next : Option Exc → Iterator)
  | raises (exc : Exc)
  | yields (chunk : Bytes) (next : Iterator)
  | stops

/-- A `ReadOnlyFileBasedBuffer` as the application returns it. -/
structure FileWrapper where
  file : File
  seekable : Bool
  blockSize : Int := 32768

inductive AppIter where
  | iterable (len : Option Nat) (iterator : Iterator) (close : Option (Call Unit))
  | fileWrapper (wrapper : FileWrapper)

namespace FileWrapper

def prepare (wrapper : FileWrapper) (size : Option Int) : Int :=
  let fsize : Int := wrapper.file.data.length - wrapper.file.pos
  if wrapper.seekable = true then
    match size with
    | none => fsize
    | some size => min fsize size
  else 0

/-- The iteration over the blocks of the file, of which there are at most `fuel`. -/
def blocks (blockSize : Int) : Nat → File → Iterator
  | 0, _ => .stops
  | fuel + 1, file =>
      if (file.read blockSize).1 = [] then .stops
      else .yields (file.read blockSize).1 (blocks blockSize fuel (file.read blockSize).2)

def iterator (wrapper : FileWrapper) : Iterator :=
  blocks wrapper.blockSize wrapper.file.data.length wrapper.file

end FileWrapper

section Execution

variable (context : TaskContext)

/-- The header checks of `start_response`, in order. -/
def checkHeader (header : Str × Str) : TaskM Unit :=
  if '\n' ∈ header.2 ∨ '\r' ∈ header.2 then throw .valueError
  else if '\n' ∈ header.1 ∨ '\r' ∈ header.1 then throw .valueError
  else if Str.lower header.1 = "content-length".toList then do
    let length ← MonadExcept.ofExcept (intOfStr header.2)
    modify fun task => { task with contentLength := some length }
  else if Str.lower header.1 ∈ hopByHop then throw .assertionError
  else pure ()

/-- `start_response` without the handling of `exc_info`. -/
def setResponse (status : Str) (headers : List (Str × Str)) : TaskM Unit := do
  modify fun task => { task with complete := true }
  if '\n' ∈ status ∨ '\r' ∈ status then throw .valueError
  else do
    modify fun task => { task with status }
    forM headers checkHeader
    modify fun task => { task with responseHeaders := task.responseHeaders ++ headers }

def startResponse (status : Str) (headers : List (Str × Str)) (excInfo : Option Exc) :
    TaskM Unit := do
  let task ← get
  match excInfo with
  | none => if task.complete = true then throw .assertionError else setResponse status headers
  | some exc =>
      if task.wroteHeader = true then throw exc
      else do
        modify fun task => { task with responseHeaders := [] }
        setResponse status headers

/-- What the caller learns of a call. -/
def attempt (action : TaskM Unit) : TaskM (Option Exc) :=
  tryCatch (do
    action
    pure none) fun exc => pure (some exc)

def Call.run {Result : Type} : Call Result → TaskM Result
  | .startResponse status headers excInfo next => do
      let outcome ← attempt (Waitress.startResponse status headers excInfo)
      (next outcome).run
  | .write data next => do
      let outcome ← attempt (Waitress.write context data)
      (next outcome).run
  | .raises exc => throw exc
  | .returns result => pure result

/-- The length of the only chunk, if no length is known and there is only one. -/
def firstChunk (len : Option Nat) (chunk : Bytes) : TaskM Unit := do
  if (← get).contentLength = none ∧ len = some 1 then
    modify fun task => { task with contentLength := some (chunk.length : Int) }
  else pure ()

def takeChunk (len : Option Nat) (first : Bool) (chunk : Bytes) : TaskM Unit := do
  if first = true then firstChunk len chunk
  if chunk ≠ [] then Waitress.write context chunk

/-- The loop over `app_iter`; `first` says that no chunk has come yet. -/
def iterate (len : Option Nat) (first : Bool) : Iterator → TaskM Unit
  | .startResponse status headers excInfo next => do
      let outcome ← attempt (Waitress.startResponse status headers excInfo)
      iterate len first (next outcome)
  | .write data next => do
      let outcome ← attempt (Waitress.write context data)
      iterate len first (next outcome)
  | .raises exc => throw exc
  | .yields chunk next => do
      takeChunk context len first chunk
      iterate len false next
  | .stops => pure ()

def checkLength : TaskM Unit := do
  let task ← get
  match task.contentLength with
  | none => pure ()
  | some cl =>
      if task.contentBytesWritten ≠ cl ∧ task.request.command ≠ some "HEAD".toList then
        modify Task.setCloseOnFinish
      else pure ()

def Task.removeContentLengthHeader (task : Task) : Task :=
  { task with
    responseHeaders :=
      task.responseHeaders.filter fun header => Str.lower header.1 ≠ "content-length".toList }

/-- The length is the one of the file, whatever the application said. -/
def Task.setFileLength (task : Task) (size : Int) : Task :=
  if task.contentLength ≠ some size then
    { (if task.contentLength = none then task else task.removeContentLengthHeader) with
      contentLength := some size }
  else task

/-- The shortcut for a file whose size is known to be `size`. -/
def writeFile (wrapper : FileWrapper) (size : Int) : TaskM Unit := do
  modify fun task => task.setFileLength size
  Waitress.write context []
  -- `len` of a negative size raises.
  if size < 0 then throw .valueError
  else
    writeSoon context fun task =>
      { task with
        sentBody := task.sentBody ++ (wrapper.file.data.drop wrapper.file.pos).take size.toNat }

def iterateAll (len : Option Nat) (iterator : Iterator) : TaskM Unit := do
  iterate context len true iterator
  checkLength

/-- `try: … finally: app_iter.close()` -/
def closing (action : TaskM Unit) (close : Option (Call Unit)) : TaskM Unit :=
  match close with
  | none => action
  | some close => do
      let outcome ← attempt action
      close.run context
      match outcome with
      | none => pure ()
      | some exc => throw exc

def respond : AppIter → TaskM Unit
  | .iterable len iterator close => closing context (iterateAll context len iterator) close
  | .fileWrapper wrapper => do
      let size := wrapper.prepare (← get).contentLength
      if size ≠ 0 then writeFile context wrapper size
      else iterateAll context (some 0) wrapper.iterator

def executeWsgi (application : Call AppIter) : TaskM Unit := do
  let appIter ← application.run context
  respond context appIter

end Execution

end Waitress
