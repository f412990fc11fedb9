import Waitress.Task.Header

/-!
# Writing a body

Every `write` hands a part of the body to the channel, behind the header block:
a chunk, a clipped part or the data as they are.
-/

namespace Waitress

open Raising

/-- What `write` hands over while chunks are sent. -/
def chunkWire (data : Bytes) : Bytes :=
  if data = [] then [] else hexUpper data.length ++ crlf ++ (data ++ crlf)

/-! ### One write -/

namespace Task

def bodySoFar (task : Task) : Bytes := if task.wroteHeader = true then task.sentBody else []

/-- The part of the body that `write` hands over. -/
def payload (task : Task) (data : Bytes) : Bytes :=
  if data = [] ∨ task.hasBody = false then []
  else if task.chunkedResponse = true then chunkWire data
  else
    match task.contentLength with
    | some cl => Bytes.sliceTo data (cl - task.contentBytesWritten)
    | none => data

def counted (task : Task) (data : Bytes) : Int :=
  if data ≠ [] ∧ task.hasBody = false then task.contentBytesWritten + data.length
  else if task.chunkedResponse = false ∧ task.contentLength ≠ none then
    task.contentBytesWritten + (task.payload data).length
  else task.contentBytesWritten

end Task

section Writing

variable (context : TaskContext)

/-- The task once the header block has been written. -/
def Task.behindHeader (task : Task) : Task :=
  if task.wroteHeader = true then task
  else { (task.headerBlock context).sendHeader with wroteHeader := true }

theorem writeData_ok {task after : Task} {data : Bytes}
    (wrote : exec (writeData context data) task = (.ok (), after)) :
    ∃ calls, after =
      { task with
        calls, contentBytesWritten := task.counted data
        sentBody := task.sentBody ++ task.payload data } := by
  rw [writeData, exec_get_bind] at wrote
  split at wrote
  · next empty =>
      obtain rfl := (Prod.mk.inj wrote).2
      exact ⟨task.calls, by simp [Task.counted, Task.payload, empty]⟩
  · next nonempty =>
      split at wrote
      · next body =>
          split at wrote
          · next chunked =>
              rw [writeSoon_ok wrote]
              exact ⟨task.calls + 1, by
                simp [Task.counted, Task.payload, nonempty, body, chunked, chunkWire]⟩
          · next plain =>
              split at wrote
              · next cl known =>
                  rw [exec_modify_bind] at wrote
                  split at wrote
                  · next nothing =>
                      obtain rfl := (Prod.mk.inj wrote).2
                      exact ⟨task.calls, by
                        simp [Task.counted, Task.payload, nonempty, body, plain, known, nothing]⟩
                  · rw [writeSoon_ok wrote]
                    exact ⟨task.calls + 1, by
                      simp [Task.counted, Task.payload, nonempty, body, plain, known]⟩
              · next unknown =>
                  rw [writeSoon_ok wrote]
                  exact ⟨task.calls + 1, by
                    simp [Task.counted, Task.payload, nonempty, body, plain, unknown]⟩
      · next noBody =>
          rw [exec_modify] at wrote
          obtain rfl := (Prod.mk.inj wrote).2
          exact ⟨task.calls, by simp [Task.counted, Task.payload, nonempty, noBody]⟩

theorem writeHeader_ok {task after : Task}
    (wrote : exec (writeHeader context) task = (.ok (), after)) :
    after = task.behindHeader context := by
  rw [Task.behindHeader]
  cases pending : task.wroteHeader with
  | true =>
      rw [exec_writeHeader_again context task pending] at wrote
      exact (Prod.mk.inj wrote).2.symm
  | false =>
      rcases exec_writeHeader context task pending with ⟨exc, outcome⟩ | ⟨exc, outcome⟩ |
        ⟨exc, outcome⟩ | outcome <;> rw [outcome] at wrote
      · exact absurd (congrArg Prod.fst wrote) (by simp)
      · exact absurd (congrArg Prod.fst wrote) (by simp)
      · exact absurd (congrArg Prod.fst wrote) (by simp)
      · exact (Prod.mk.inj wrote).2.symm

theorem Task.frame_behindHeader (task : Task) :
    (task.behindHeader context).wroteHeader = true ∧
      (task.behindHeader context).sentBody = task.bodySoFar ∧
      (task.behindHeader context).status = task.status ∧
      (task.behindHeader context).contentLength = task.contentLength ∧
      (task.behindHeader context).contentBytesWritten = task.contentBytesWritten ∧
      (task.behindHeader context).complete = task.complete := by
  rw [behindHeader, bodySoFar]
  split
  · next wrote => exact ⟨wrote, rfl, rfl, rfl, rfl, rfl⟩
  · have same := frame_headerBlock context task
    have status : (task.headerBlock context).status = task.status :=
      (congrArg Task.status same :)
    have length : (task.headerBlock context).contentLength = task.contentLength :=
      (congrArg Task.contentLength same :)
    have written : (task.headerBlock context).contentBytesWritten = task.contentBytesWritten :=
      (congrArg Task.contentBytesWritten same :)
    have complete : (task.headerBlock context).complete = task.complete :=
      (congrArg Task.complete same :)
    exact ⟨rfl, rfl, status, length, written, complete⟩

theorem write_ok {task after : Task} {data : Bytes}
    (wrote : exec (write context data) task = (.ok (), after)) :
    ∃ calls, after =
      { task.behindHeader context with
        calls
        contentBytesWritten := (task.behindHeader context).counted data
        sentBody := task.bodySoFar ++ (task.behindHeader context).payload data } := by
  rw [write, exec_get_bind] at wrote
  split at wrote
  · exact absurd (congrArg Prod.fst wrote) (by simp)
  · obtain ⟨⟨⟩, middle, block, rest⟩ := exec_bind_ok wrote
    obtain rfl := writeHeader_ok context block
    rw [← (task.frame_behindHeader context).2.1]
    exact writeData_ok context rest

theorem Task.hasBody_of_status {task other : Task} (same : other.status = task.status) :
    other.hasBody = task.hasBody := by
  rw [hasBody, hasBody, same]

theorem Task.chunked_decideConnection {task : Task} (chunked : task.chunkedResponse = true)
    (connection : Str) (announced : Bool) :
    (task.decideConnection connection announced).chunkedResponse = true := by
  have chunks : ∀ other : Task, other.chunkedResponse = true →
      other.decideChunked.chunkedResponse = true := by
    intro other inChunks
    unfold decideChunked
    dsimp only
    repeat' split
    all_goals first
      | rfl
      | exact inChunks
  rw [decideConnection]
  dsimp only
  repeat' split
  all_goals first
    | exact chunked
    | exact chunks _ chunked

/-- Once chunks are sent, they are sent to the end. -/
theorem Task.chunked_behindHeader {task : Task} (chunked : task.chunkedResponse = true) :
    (task.behindHeader context).chunkedResponse = true := by
  rw [behindHeader]
  split
  · exact chunked
  · change (task.headerBlock context).chunkedResponse = true
    rw [headerBlock, (flags_addDate _ _ _).2, (flags_addServer _ _ _).2]
    refine chunked_decideConnection ?_ _ _
    rw [(flags_addContentLength _).2]
    exact chunked

/-- What a `write` that returns leaves behind. -/
structure Task.Wrote (task after : Task) (part : Bytes) : Prop where
  body : after.bodySoFar = task.bodySoFar ++ part
  status : after.status = task.status
  length : after.contentLength = task.contentLength
  complete : after.complete = task.complete

theorem Task.Wrote.hasBody {task after : Task} {part : Bytes} (wrote : task.Wrote after part) :
    after.hasBody = task.hasBody := Task.hasBody_of_status wrote.status

theorem Task.Wrote.refl (task : Task) : task.Wrote task [] :=
  ⟨(List.append_nil _).symm, rfl, rfl, rfl⟩

theorem Task.Wrote.trans {task middle after : Task} {part more : Bytes}
    (first : task.Wrote middle part) (second : middle.Wrote after more) :
    task.Wrote after (part ++ more) :=
  ⟨by rw [second.body, first.body, List.append_assoc], second.status.trans first.status,
    second.length.trans first.length, second.complete.trans first.complete⟩

theorem write_wrote {task after : Task} {data : Bytes}
    (wrote : exec (write context data) task = (.ok (), after)) :
    task.Wrote after ((task.behindHeader context).payload data) ∧
      after.wroteHeader = true ∧
      after.chunkedResponse = (task.behindHeader context).chunkedResponse ∧
      after.contentBytesWritten = (task.behindHeader context).counted data := by
  obtain ⟨calls, rfl⟩ := write_ok context wrote
  obtain ⟨written, -, status, length, -, complete⟩ := task.frame_behindHeader context
  exact ⟨⟨if_pos written, status, length, complete⟩, written, rfl, rfl⟩

/-- The calls of `write`, one after the other. -/
def writeAll (writes : List Bytes) : TaskM Unit := forM writes (write context)

theorem writeAll_cons_ok {task after : Task} {data : Bytes} {writes : List Bytes}
    (wrote : exec (writeAll context (data :: writes)) task = (.ok (), after)) :
    ∃ middle, exec (write context data) task = (.ok (), middle) ∧
      exec (writeAll context writes) middle = (.ok (), after) := by
  rw [writeAll, List.forM_cons] at wrote
  obtain ⟨⟨⟩, middle, first, rest⟩ := exec_bind_ok wrote
  exact ⟨middle, first, rest⟩

/-- `write` in order and `finish`. -/
def respondWith (writes : List Bytes) : TaskM Unit := do
  writeAll context writes
  finish context

/-! ### Runs that return -/

def TaskContext.Connected : Prop := ∀ call, context.transport call = none

def Task.HeaderReady (task : Task) : Prop :=
  task.wroteHeader = true ∨ ∃ block, (exec (buildResponseHeader context) task).1 = .ok block

variable {context}

theorem exec_writeSoon_connected (connected : context.Connected) (record : Task → Task)
    (task : Task) :
    exec (writeSoon context record) task = (.ok (), { record task with calls := task.calls + 1 }) := by
  rw [writeSoon, exec_get_bind, exec_modify_bind, connected]
  rfl

theorem exec_writeHeader_connected (connected : context.Connected) {task : Task}
    (ready : task.HeaderReady context) :
    exec (writeHeader context) task = (.ok (), task.behindHeader context) := by
  rw [Task.behindHeader]
  cases pending : task.wroteHeader with
  | true => exact exec_writeHeader_again context task pending
  | false =>
      rcases ready with wrote | ⟨block, built⟩
      · rw [pending] at wrote
        cases wrote
      · rw [writeHeader, exec_get_bind, if_pos pending, exec_bind]
        rw [exec_buildResponseHeader] at built ⊢
        split at built
        · cases built
        · rw [if_neg ‹_›]
          dsimp only at built ⊢
          rw [built]
          dsimp only
          rw [exec_bind, exec_writeSoon_connected connected]
          rfl

theorem writeData_returns (connected : context.Connected) (data : Bytes) (task : Task) :
    ∃ after, exec (writeData context data) task = (.ok (), after) := by
  rw [writeData, exec_get_bind]
  split
  · exact ⟨_, rfl⟩
  · split
    · split
      · exact ⟨_, exec_writeSoon_connected connected _ _⟩
      · split
        · rw [exec_modify_bind]
          split
          · exact ⟨_, rfl⟩
          · exact ⟨_, exec_writeSoon_connected connected _ _⟩
        · exact ⟨_, exec_writeSoon_connected connected _ _⟩
    · exact ⟨_, rfl⟩

theorem write_returns (connected : context.Connected) {task : Task}
    (complete : task.complete = true) (ready : task.HeaderReady context) (data : Bytes) :
    ∃ after, exec (write context data) task = (.ok (), after) := by
  rw [write, exec_get_bind, if_neg (by rw [complete]; exact Bool.noConfusion), exec_bind,
    exec_writeHeader_connected connected ready]
  exact writeData_returns connected data _

theorem writeAll_returns (connected : context.Connected) {task : Task}
    (complete : task.complete = true) (ready : task.HeaderReady context) (writes : List Bytes) :
    ∃ after, exec (writeAll context writes) task = (.ok (), after) ∧ after.complete = true ∧
      after.HeaderReady context := by
  induction writes generalizing task with
  | nil => exact ⟨task, rfl, complete, ready⟩
  | cons data writes inductionHypothesis =>
      obtain ⟨middle, wrote⟩ := write_returns connected complete ready data
      obtain ⟨part, written, -⟩ := write_wrote context wrote
      obtain ⟨after, rest, ends⟩ :=
        inductionHypothesis (part.complete.trans complete) (.inl written)
      refine ⟨after, ?_, ends⟩
      rw [writeAll, List.forM_cons, exec_bind, wrote]
      exact rest

theorem finish_returns (connected : context.Connected) {task : Task}
    (complete : task.complete = true) (ready : task.HeaderReady context) :
    ∃ after, exec (finish context) task = (.ok (), after) := by
  have last : ∀ middle : Task, ∃ after, exec (do
        if (← get).chunkedResponse = true then
          writeSoon context fun task => { task with sentBody := task.sentBody ++ ascii "0\r\n\r\n" }
        else pure () : TaskM Unit) middle = (.ok (), after) := by
    intro middle
    rw [exec_get_bind]
    split
    · exact ⟨_, exec_writeSoon_connected connected _ _⟩
    · exact ⟨_, rfl⟩
  rw [finish, exec_get_bind]
  split
  · obtain ⟨middle, wrote⟩ := write_returns connected complete ready []
    rw [exec_bind, wrote]
    exact last middle
  · exact last task

theorem respondWith_returns (connected : context.Connected) {task : Task}
    (complete : task.complete = true) (ready : task.HeaderReady context) (writes : List Bytes) :
    ∃ after, exec (respondWith context writes) task = (.ok (), after) := by
  obtain ⟨middle, wrote, completeThen, readyThen⟩ :=
    writeAll_returns connected complete ready writes
  obtain ⟨after, finished⟩ := finish_returns connected completeThen readyThen
  exact ⟨after, by rw [respondWith, exec_bind, wrote]; exact finished⟩

end Writing

end Waitress
