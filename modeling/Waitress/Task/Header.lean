import Waitress.Decimal
import Waitress.Task.Application
import Waitress.Task.Names

/-!
# The header block

The block announces a length, or the connection is going to be closed.
-/

namespace Waitress

open Raising

namespace Task

/-- The header gives the length of the body. -/
def IsLength (name : Str) : Prop := Str.lower name = "content-length".toList

instance (name : Str) : Decidable (IsLength name) :=
  inferInstanceAs (Decidable (_ = _))

def lengthValues (headers : List (Str × Str)) : List Str :=
  (headers.filter fun header => IsLength header.1).map Prod.snd

@[simp]
theorem lengthValues_nil : lengthValues [] = [] := rfl

theorem lengthValues_append (first second : List (Str × Str)) :
    lengthValues (first ++ second) = lengthValues first ++ lengthValues second := by
  rw [lengthValues, List.filter_append, List.map_append]
  rfl

theorem lengthValues_cons (header : Str × Str) (headers : List (Str × Str)) :
    lengthValues (header :: headers) =
      if IsLength header.1 then header.2 :: lengthValues headers else lengthValues headers := by
  by_cases named : IsLength header.1
  · simp [lengthValues, named]
  · simp [lengthValues, named]

theorem lengthValues_addHeader {task : Task} {name : Str} (value : Str)
    (other : ¬ IsLength name) :
    lengthValues (task.addHeader name value).responseHeaders =
      lengthValues task.responseHeaders := by
  rw [addHeader, lengthValues_append, lengthValues_cons, if_neg other, lengthValues_nil,
    List.append_nil]

theorem lengthValues_setCloseOnFinish (task : Task) :
    lengthValues task.setCloseOnFinish.responseHeaders = lengthValues task.responseHeaders := by
  rw [setCloseOnFinish]
  dsimp only
  split
  · exact lengthValues_addHeader _ (by decide)
  · rfl

theorem lengthValues_removeContentLengthHeader (task : Task) :
    lengthValues task.removeContentLengthHeader.responseHeaders = [] := by
  rw [lengthValues, List.map_eq_nil_iff, List.filter_eq_nil_iff]
  intro header mem named
  have other : Str.lower header.1 ≠ "content-length".toList :=
    of_decide_eq_true (List.mem_filter.mp mem).2
  exact other (of_decide_eq_true named)

theorem isLength_headerName (name : Str) : IsLength (headerName name) ↔ IsLength name := by
  rw [IsLength, IsLength, ← headerName_eq_contentLength, ← headerName_eq_contentLength,
    headerName_headerName]

theorem lengthValues_normalizeHeaders (task : Task) :
    lengthValues task.normalizeHeaders.responseHeaders =
      if task.hasBody = true then lengthValues task.responseHeaders else [] := by
  rw [normalizeHeaders]
  dsimp only
  generalize task.responseHeaders = headers
  induction headers with
  | nil => exact (ite_self _).symm
  | cons header rest inductionHypothesis =>
      rw [List.map_cons]
      by_cases named : IsLength header.1
      · have normal := (headerName_eq_contentLength header.1).mpr named
        cases body : task.hasBody with
        | true =>
            rw [body] at inductionHypothesis
            rw [List.filter_cons_of_pos (by rw [Bool.not_true, Bool.and_false]; rfl),
              lengthValues_cons, if_pos ((isLength_headerName _).mpr named), inductionHypothesis,
              lengthValues_cons, if_pos named]
            rfl
        | false =>
            rw [body] at inductionHypothesis
            rw [List.filter_cons_of_neg (by rw [decide_eq_true normal]; decide),
              inductionHypothesis]
            rfl
      · have normal := mt (headerName_eq_contentLength header.1).mp named
        rw [List.filter_cons_of_pos (by rw [decide_eq_false normal]; rfl), lengthValues_cons,
          if_neg (mt (isLength_headerName _).mp named), inductionHypothesis,
          lengthValues_cons, if_neg named]

theorem lastValue_normalizeHeaders (task : Task) :
    lastValue "Content-Length".toList task.normalizeHeaders.responseHeaders =
      (lengthValues task.normalizeHeaders.responseHeaders).getLast? := by
  rw [lastValue, lengthValues, List.getLast?_map]
  congr 2
  refine List.filter_congr fun header mem => ?_
  obtain ⟨original, -, rfl⟩ := List.mem_map.mp (List.mem_of_mem_filter mem)
  refine decide_eq_decide.mpr ?_
  rw [isLength_headerName]
  exact headerName_eq_contentLength original.1

/-! ### Building the block -/

/-- What the block is built from but not changed. -/
def frame (task : Task) : Task :=
  { task with responseHeaders := [], closeOnFinish := false, chunkedResponse := false }

theorem frame_addContentLength (task : Task) : task.addContentLength.frame = task.frame := by
  rw [addContentLength]
  split
  · cases task.contentLength with
    | none => rfl
    | some length => rfl
  · rfl

theorem flags_addContentLength (task : Task) :
    task.addContentLength.closeOnFinish = task.closeOnFinish ∧
      task.addContentLength.chunkedResponse = task.chunkedResponse := by
  rw [addContentLength]
  split
  · cases task.contentLength with
    | none => exact ⟨rfl, rfl⟩
    | some length => exact ⟨rfl, rfl⟩
  · exact ⟨rfl, rfl⟩

theorem frame_decideChunked (task : Task) : task.decideChunked.frame = task.frame := by
  rw [decideChunked]
  dsimp only
  repeat' split
  all_goals rfl

theorem closeOnFinish_decideChunked (task : Task) : task.decideChunked.closeOnFinish = true := by
  have closed : ∀ other : Task,
      (if other.closeOnFinish = false then other.setCloseOnFinish else other).closeOnFinish =
        true := by
    intro other
    split
    · rfl
    · next still => exact eq_true_of_ne_false still
  exact closed _

theorem frame_decideConnection (task : Task) (connection : Str) (announced : Bool) :
    (task.decideConnection connection announced).frame = task.frame := by
  rw [decideConnection]
  dsimp only
  repeat' split
  all_goals first
    | rfl
    | exact frame_decideChunked _

theorem frame_addServer (task : Task) (ident serverHeader : Option Str) :
    (task.addServer ident serverHeader).frame = task.frame := by
  rw [addServer]
  repeat' split
  all_goals rfl

theorem frame_addDate (task : Task) (date : Str) (dateHeader : Option Str) :
    (task.addDate date dateHeader).frame = task.frame := by
  rw [addDate]
  split
  · rfl
  · rfl

theorem flags_addServer (task : Task) (ident serverHeader : Option Str) :
    (task.addServer ident serverHeader).closeOnFinish = task.closeOnFinish ∧
      (task.addServer ident serverHeader).chunkedResponse = task.chunkedResponse := by
  rw [addServer]
  repeat' split
  all_goals exact ⟨rfl, rfl⟩

theorem flags_addDate (task : Task) (date : Str) (dateHeader : Option Str) :
    (task.addDate date dateHeader).closeOnFinish = task.closeOnFinish ∧
      (task.addDate date dateHeader).chunkedResponse = task.chunkedResponse := by
  rw [addDate]
  split
  · exact ⟨rfl, rfl⟩
  · exact ⟨rfl, rfl⟩

theorem lengthValues_addServer (task : Task) (ident serverHeader : Option Str) :
    lengthValues (task.addServer ident serverHeader).responseHeaders =
      lengthValues task.responseHeaders := by
  rw [addServer]
  repeat' split
  · rfl
  · exact lengthValues_addHeader _ (by decide)
  · exact lengthValues_addHeader _ (by decide)
  · exact lengthValues_addHeader _ (by decide)

theorem lengthValues_addDate (task : Task) (date : Str) (dateHeader : Option Str) :
    lengthValues (task.addDate date dateHeader).responseHeaders =
      lengthValues task.responseHeaders := by
  rw [addDate]
  split
  · exact lengthValues_addHeader _ (by decide)
  · rfl

theorem lengthValues_decideChunked (task : Task) :
    lengthValues task.decideChunked.responseHeaders = lengthValues task.responseHeaders := by
  have rest : ∀ other : Task,
      lengthValues
          (if other.closeOnFinish = false then other.setCloseOnFinish else other).responseHeaders =
        lengthValues other.responseHeaders := by
    intro other
    split
    · exact lengthValues_setCloseOnFinish other
    · rfl
  unfold decideChunked
  dsimp only
  split
  · exact (rest _).trans (lengthValues_addHeader _ (by decide))
  · exact rest task

theorem lengthValues_decideConnection (task : Task) (connection : Str) (announced : Bool) :
    lengthValues (task.decideConnection connection announced).responseHeaders =
      lengthValues task.responseHeaders := by
  have closed := lengthValues_setCloseOnFinish task
  have chunked := lengthValues_decideChunked
  unfold decideConnection
  dsimp only
  repeat' split
  · exact closed
  · exact lengthValues_addHeader _ (by decide)
  · exact closed
  · exact (chunked _).trans closed
  · exact chunked task
  · exact closed
  · rfl

/-- The connection only stays open for a response that announces its length. -/
theorem decideConnection_open {task : Task} {connection : Str} {announced : Bool}
    (stays : (task.decideConnection connection announced).closeOnFinish = false) :
    task.closeOnFinish = false ∧ announced = true ∧
      (task.decideConnection connection announced).chunkedResponse = task.chunkedResponse := by
  have closed : ∀ other : Task, other.setCloseOnFinish.closeOnFinish = false → False :=
    fun other contrary => Bool.noConfusion contrary
  rw [decideConnection] at stays ⊢
  by_cases old : task.version = "1.0".toList
  · rw [if_pos old] at stays ⊢
    by_cases keeps : connection = "keep-alive".toList
    · rw [if_pos keeps] at stays ⊢
      cases announced with
      | false => exact (closed _ stays).elim
      | true => exact ⟨stays, rfl, rfl⟩
    · rw [if_neg keeps] at stays
      exact (closed _ stays).elim
  · rw [if_neg old] at stays ⊢
    cases announced with
    | false =>
        have contrary := (closeOnFinish_decideChunked _).symm.trans stays
        exact Bool.noConfusion contrary
    | true =>
        by_cases closes : connection = "close".toList
        · rw [if_pos closes] at stays
          exact (closed _ stays).elim
        · rw [if_neg closes] at stays ⊢
          exact ⟨stays, rfl, rfl⟩

end Task

section Block

variable (context : TaskContext)

def Task.headerBlock (task : Task) : Task :=
  let connection := Str.lower (task.request.headers.getD "CONNECTION".toList [])
  let announced := !Task.falsy task.normalizeHeaders.contentLengthHeader
  let serverHeader := Task.lastValue "Server".toList task.normalizeHeaders.responseHeaders
  let dateHeader := Task.lastValue "Date".toList task.normalizeHeaders.responseHeaders
  ((task.normalizeHeaders.addContentLength.decideConnection connection announced).addServer
    context.adj.ident serverHeader).addDate context.date dateHeader

theorem exec_buildResponseHeader (task : Task) :
    exec (buildResponseHeader context) task =
      if task.version ≠ "1.0".toList ∧ task.version ≠ "1.1".toList then
        (.error .assertionError, task.normalizeHeaders.addContentLength)
      else (encodeLatin1 (task.headerBlock context).renderHeader, task.headerBlock context) := by
  simp only [buildResponseHeader, exec_bind, exec_get, exec_modify]
  have version : task.normalizeHeaders.version = task.version := rfl
  rw [version]
  split
  · rw [exec_bind, exec_throw]
  · simp only [exec_bind, exec_get, exec_modify, exec_ofExcept]
    rfl

theorem Task.frame_headerBlock (task : Task) : (task.headerBlock context).frame = task.frame := by
  rw [headerBlock, frame_addDate, frame_addServer, frame_decideConnection, frame_addContentLength]
  rfl

theorem Task.lengthValues_headerBlock (task : Task) :
    lengthValues (task.headerBlock context).responseHeaders =
      lengthValues task.normalizeHeaders.addContentLength.responseHeaders := by
  rw [headerBlock, lengthValues_addDate, lengthValues_addServer, lengthValues_decideConnection]

/-- A block that leaves the connection open announces a length. -/
theorem Task.headerBlock_open {task : Task}
    (stays : (task.headerBlock context).closeOnFinish = false) :
    task.closeOnFinish = false ∧ falsy task.normalizeHeaders.contentLengthHeader = false ∧
      (task.headerBlock context).chunkedResponse = task.chunkedResponse := by
  rw [headerBlock, (flags_addDate _ _ _).1, (flags_addServer _ _ _).1] at stays
  obtain ⟨still, announced, chunked⟩ := decideConnection_open stays
  refine ⟨?_, ?_, ?_⟩
  · rw [(flags_addContentLength _).1] at still
    exact still
  · simpa using announced
  · rw [headerBlock, (flags_addDate _ _ _).2, (flags_addServer _ _ _).2, chunked,
      (flags_addContentLength _).2]
    rfl

/-! ### Writing the block -/

def Task.sendHeader (task : Task) : Task :=
  { task with
    calls := task.calls + 1, sentHeaders := some task.responseHeaders, sentBody := [] }

/-- How an attempt to write the block can end. -/
theorem exec_writeHeader (task : Task) (pending : task.wroteHeader = false) :
    (∃ exc, exec (writeHeader context) task = (.error exc, task.normalizeHeaders.addContentLength))
    ∨ (∃ exc, exec (writeHeader context) task = (.error exc, task.headerBlock context))
    ∨ (∃ exc, exec (writeHeader context) task = (.error exc, (task.headerBlock context).sendHeader))
    ∨ exec (writeHeader context) task =
        (.ok (), { (task.headerBlock context).sendHeader with wroteHeader := true }) := by
  simp only [writeHeader, exec_bind, exec_get]
  rw [if_pos pending, exec_bind, exec_buildResponseHeader]
  by_cases unsupported : task.version ≠ "1.0".toList ∧ task.version ≠ "1.1".toList
  · rw [if_pos unsupported]
    exact .inl ⟨_, rfl⟩
  · rw [if_neg unsupported]
    cases encodeLatin1 (task.headerBlock context).renderHeader with
    | error exc => exact .inr (.inl ⟨exc, rfl⟩)
    | ok block =>
        simp only [writeSoon, exec_bind, exec_get, exec_modify]
        cases context.transport (task.headerBlock context).calls with
        | some exc => exact .inr (.inr (.inl ⟨exc, rfl⟩))
        | none => exact .inr (.inr (.inr rfl))

theorem exec_writeHeader_again (task : Task) (wrote : task.wroteHeader = true) :
    exec (writeHeader context) task = (.ok (), task) := by
  simp only [writeHeader, exec_bind, exec_get]
  rw [if_neg (by rw [wrote]; exact Bool.noConfusion), exec_pure]

/-- What `writeData` may change. -/
theorem within_writeData (relation : Task → Task → Prop) [IsPreorder Task relation]
    (records : ∀ task calls written body, task.calls ≤ calls → relation task
      { task with calls, contentBytesWritten := written, sentBody := body })
    (data : Bytes) : Within relation (writeData context data) := by
  have soon : ∀ towrite, Within relation
      (writeSoon context fun task => { task with sentBody := task.sentBody ++ towrite }) :=
    fun towrite => within_writeSoon fun task =>
      records task _ task.contentBytesWritten _ (Nat.le_succ _)
  have counts : ∀ written : Task → Int, Within relation
      (modify fun task => { task with contentBytesWritten := written task } : TaskM Unit) :=
    fun written => within_modify fun task =>
      records task task.calls _ task.sentBody (Nat.le_refl _)
  refine within_get_bind fun task => ?_
  split
  · exact within_pure _ task
  split
  · split
    · exact soon _ task
    · cases task.contentLength with
      | none => exact soon _ task
      | some cl =>
          refine within_bind (counts _) (fun _ => ?_) task
          split
          · exact within_pure _
          · exact soon _
  · exact counts _ task

/-- What `finish` may change, from what a write may change. -/
theorem within_finish (relation : Task → Task → Prop) [IsPreorder Task relation]
    (writing : Within relation (write context []))
    (ends : ∀ task body, relation task { task with calls := task.calls + 1, sentBody := body }) :
    Within relation (finish context) := by
  have chunkEnd : ∀ task : Task, Within relation
      (if task.chunkedResponse = true then
        writeSoon context fun task => { task with sentBody := task.sentBody ++ ascii "0\r\n\r\n" }
      else pure ()) := by
    intro task
    split
    · exact within_writeSoon fun task => ends task _
    · exact within_pure _
  refine within_bind within_get fun task => ?_
  split
  · exact within_bind writing fun _ => within_bind within_get chunkEnd
  · exact within_bind within_get chunkEnd

/-- A write that returns has written the block. -/
theorem wroteHeader_of_write {task after : Task} {data : Bytes}
    (written : exec (write context data) task = (.ok (), after)) : after.wroteHeader = true := by
  rw [write, exec_get_bind] at written
  split at written
  · exact absurd (congrArg Prod.fst written) (by simp)
  obtain ⟨⟨⟩, middle, block, rest⟩ := exec_bind_ok written
  have wrote : middle.wroteHeader = true := by
    cases pending : task.wroteHeader with
    | true =>
        rw [exec_writeHeader_again context task pending] at block
        rw [← (Prod.mk.inj block).2]
        exact pending
    | false =>
        rcases exec_writeHeader context task pending with ⟨exc, outcome⟩ | ⟨exc, outcome⟩ |
          ⟨exc, outcome⟩ | outcome <;> rw [outcome] at block
        · exact absurd (congrArg Prod.fst block) (by simp)
        · exact absurd (congrArg Prod.fst block) (by simp)
        · exact absurd (congrArg Prod.fst block) (by simp)
        · exact (congrArg Task.wroteHeader (Prod.mk.inj block).2).symm
  have same := within_writeData context (SameView Task.wroteHeader)
    (fun _ _ _ _ _ => rfl) data middle
  rw [rest] at same
  exact same.symm.trans wrote

/-- Writing no data leaves the body empty. -/
theorem write_silent : Within (Keeps fun task => task.sentBody = []) (write context []) := by
  refine within_get_bind fun task silent => ?_
  split
  · exact silent
  rw [exec_bind]
  cases pending : task.wroteHeader with
  | true =>
      rw [exec_writeHeader_again context task pending]
      exact silent
  | false =>
      rcases exec_writeHeader context task pending with ⟨exc, outcome⟩ | ⟨exc, outcome⟩ |
        ⟨exc, outcome⟩ | outcome <;> rw [outcome]
      · exact (congrArg Task.sentBody
          (Task.frame_addContentLength task.normalizeHeaders) :).trans silent
      · exact (congrArg Task.sentBody (Task.frame_headerBlock context task) :).trans silent
      · rfl
      · rfl

/-- Nothing that is written takes the decision to close back. -/
theorem still_of_write {task : Task} {data : Bytes}
    (stays : (exec (write context data) task).2.closeOnFinish = false) :
    task.closeOnFinish = false := by
  have same : ∀ other, (exec (writeData context data) other).2.closeOnFinish = false →
      other.closeOnFinish = false := fun other after =>
    (within_writeData context (SameView Task.closeOnFinish)
      (fun _ _ _ _ _ => rfl) data other).trans after
  have block : (task.headerBlock context).closeOnFinish = false → task.closeOnFinish = false :=
    fun after => (Task.headerBlock_open context after).1
  rw [write, exec_get_bind] at stays
  split at stays
  · exact stays
  rw [exec_bind] at stays
  cases pending : task.wroteHeader with
  | true =>
      rw [exec_writeHeader_again context task pending] at stays
      exact same task stays
  | false =>
      rcases exec_writeHeader context task pending with ⟨exc, outcome⟩ | ⟨exc, outcome⟩ |
        ⟨exc, outcome⟩ | outcome <;> rw [outcome] at stays
      · exact (Task.flags_addContentLength task.normalizeHeaders).1.symm.trans stays
      · exact block stays
      · exact block stays
      · have opened := same _ stays
        exact block opened

/-- `finish` adds nothing to a response without chunks. -/
theorem finish_eq {task after : Task} (finished : exec (finish context) task = (.ok (), after)) :
    ∃ middle, (task.wroteHeader = true ∧ middle = task ∨
        task.wroteHeader = false ∧ exec (write context []) task = (.ok (), middle)) ∧
      after.closeOnFinish = middle.closeOnFinish ∧
      after.chunkedResponse = middle.chunkedResponse ∧
      (middle.chunkedResponse = false → after = middle) := by
  have tail : ∀ {middle : Task}, exec (do
      if (← get).chunkedResponse = true then
        writeSoon context fun task => { task with sentBody := task.sentBody ++ ascii "0\r\n\r\n" }
      else pure () : TaskM Unit) middle = (.ok (), after) →
      after.closeOnFinish = middle.closeOnFinish ∧
        after.chunkedResponse = middle.chunkedResponse ∧
        (middle.chunkedResponse = false → after = middle) := by
    intro middle rest
    rw [exec_get_bind] at rest
    split at rest
    · next chunked =>
        rw [writeSoon_ok rest]
        exact ⟨rfl, rfl, fun contrary => Bool.noConfusion (chunked.symm.trans contrary)⟩
    · obtain rfl := (Prod.mk.inj rest).2
      exact ⟨rfl, rfl, fun _ => rfl⟩
  rw [finish, exec_get_bind] at finished
  split at finished
  · next unwritten =>
      obtain ⟨⟨⟩, middle, wrote, rest⟩ := exec_bind_ok finished
      exact ⟨middle, .inr ⟨unwritten, wrote⟩, tail rest⟩
  · next written =>
      exact ⟨task, .inl ⟨eq_true_of_ne_false written, rfl⟩, tail finished⟩

end Block

end Waitress
