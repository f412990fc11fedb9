import Waitress.Channel.Service
import Waitress.Task.Header

/-!
# The decision to close

For some requests the connection is closed whatever the application does.
-/

namespace Waitress

open Raising

namespace HTTPRequestParser

/-- What a task makes of the version and of the connection header. -/
def MustClose (request : HTTPRequestParser) : Prop :=
  let connection := Str.lower (request.headers.getD "CONNECTION".toList [])
  if (Task.new request).version = "1.0".toList then connection ≠ "keep-alive".toList
  else connection = "close".toList

instance (request : HTTPRequestParser) : Decidable request.MustClose :=
  inferInstanceAs (Decidable (if (Task.new request).version = "1.0".toList then
    Str.lower (request.headers.getD "CONNECTION".toList []) ≠ "keep-alive".toList
    else Str.lower (request.headers.getD "CONNECTION".toList []) = "close".toList))

end HTTPRequestParser

namespace Task

variable {request : HTTPRequestParser} {task : Task}

theorem decideConnection_closes (must : request.MustClose)
    (version : task.version = (Task.new request).version) (announced : Bool) :
    (task.decideConnection (Str.lower (request.headers.getD "CONNECTION".toList []))
      announced).closeOnFinish = true := by
  rw [HTTPRequestParser.MustClose, ← version] at must
  rw [decideConnection]
  by_cases old : task.version = "1.0".toList
  · rw [if_pos old] at must
    rw [if_pos old, if_neg must]
    rfl
  · rw [if_neg old] at must
    rw [if_neg old, if_pos must]
    cases announced with
    | true => rfl
    | false => exact closeOnFinish_decideChunked _

theorem headerBlock_closes (context : TaskContext) (must : request.MustClose)
    (same : task.request = request) (version : task.version = (Task.new request).version) :
    (task.headerBlock context).closeOnFinish = true := by
  rw [headerBlock, (flags_addDate _ _ _).1, (flags_addServer _ _ _).1, same]
  apply decideConnection_closes must
  exact (congrArg Task.version (frame_addContentLength task.normalizeHeaders) :).trans version

/-- A task for the request that closes the connection once it has written its header. -/
structure ClosesBehindHeader (request : HTTPRequestParser) (task : Task) : Prop where
  same : task.request = request
  version : task.version = (Task.new request).version
  closes : task.wroteHeader = true → task.closeOnFinish = true

theorem ClosesBehindHeader.new (request : HTTPRequestParser) :
    ClosesBehindHeader request (Task.new request) :=
  ⟨rfl, rfl, fun wrote => Bool.noConfusion wrote⟩

theorem ClosesBehindHeader.of_frame {before after : Task}
    (closes : ClosesBehindHeader request before) (pending : before.wroteHeader = false)
    (frame : after.frame = before.frame) : ClosesBehindHeader request after where
  same := (congrArg Task.request frame :).trans closes.same
  version := (congrArg Task.version frame :).trans closes.version
  closes wrote := by
    have unwritten : after.wroteHeader = false :=
      (congrArg Task.wroteHeader frame :).trans pending
    exact Bool.noConfusion (unwritten.symm.trans wrote)

variable (context : TaskContext)

section Parts

variable (must : request.MustClose)

include must

theorem within_writeHeader_closes :
    Within (Keeps (ClosesBehindHeader request)) (writeHeader context) := by
  intro task closes
  cases pending : task.wroteHeader with
  | true =>
      rw [exec_writeHeader_again context task pending]
      exact closes
  | false =>
      have assembled : (task.normalizeHeaders.addContentLength).frame = task.frame :=
        frame_addContentLength task.normalizeHeaders
      have built : (task.headerBlock context).frame = task.frame := frame_headerBlock context task
      have block := closes.of_frame pending built
      rcases exec_writeHeader context task pending with ⟨exc, outcome⟩ | ⟨exc, outcome⟩ |
        ⟨exc, outcome⟩ | outcome <;> rw [outcome]
      · exact closes.of_frame pending assembled
      · exact block
      · exact ⟨block.same, block.version, block.closes⟩
      · refine ⟨block.same, block.version, fun _ => ?_⟩
        exact headerBlock_closes context must closes.same closes.version

theorem within_write_closes (data : Bytes) :
    Within (Keeps (ClosesBehindHeader request)) (write context data) := by
  refine within_get_bind fun task => ?_
  split
  · exact within_throw _ task
  · refine within_bind (within_writeHeader_closes context must) (fun _ => ?_) task
    apply within_writeData
    intro task calls written body _ closes
    exact ⟨closes.same, closes.version, closes.closes⟩

/-- Whatever the application does, the header block decides to close. -/
theorem within_executeWsgi_closes (application : Call AppIter) :
    Within (Keeps (ClosesBehindHeader request)) (executeWsgi context application) := by
  apply within_anyApplication
  · apply within_startResponse
    intro task status headers contentLength complete closes
    exact ⟨closes.same, closes.version, closes.closes⟩
  · exact within_write_closes context must
  · intro len chunk
    refine within_get_bind fun task => ?_
    split
    · exact fun closes => ⟨closes.same, closes.version, closes.closes⟩
    · exact id
  · refine within_get_bind fun task => ?_
    split
    · exact id
    · split
      · exact fun closes => ⟨closes.same, closes.version, fun _ => rfl⟩
      · exact id
  · intro wrapper size
    refine within_bind (within_modify fun task closes => ?_) fun _ => ?_
    · rw [setFileLength]
      repeat' split
      · exact ⟨closes.same, closes.version, closes.closes⟩
      · exact ⟨closes.same, closes.version, closes.closes⟩
      · exact closes
    · refine within_bind (within_write_closes context must []) fun _ => ?_
      split
      · exact within_throw _
      · apply within_writeSoon
        exact fun task closes => ⟨closes.same, closes.version, closes.closes⟩

/-- A task for the request that returns closes the connection. -/
theorem closes_of_mustClose {application : Call AppIter} {after : Task}
    (served : exec (serviceTask context (executeWsgi context application)) (Task.new request) =
      (.ok (), after)) : after.closeOnFinish = true := by
  rcases serviceTask_ok served with closes | ⟨middle, executed, finished⟩
  · exact closes
  · have closes := within_executeWsgi_closes context must application (Task.new request)
      (ClosesBehindHeader.new request)
    rw [executed] at closes
    obtain ⟨written, wrote | ⟨unwritten, wrote⟩, decided, -⟩ := finish_eq context finished
    · obtain ⟨wrote, rfl⟩ := wrote
      exact decided.trans (closes.closes wrote)
    · have block := within_write_closes context must [] middle closes
      rw [wrote] at block
      exact decided.trans (block.closes (wroteHeader_of_write context wrote))

end Parts

/-! ### Errors -/

theorem within_write_closing (data : Bytes) :
    Within (Keeps fun task => task.closeOnFinish = true) (write context data) := by
  intro task closing
  apply eq_true_of_ne_false
  intro stays
  exact Bool.noConfusion ((still_of_write context stays).symm.trans closing)

/-- An error task that writes its response has decided to close. -/
theorem closes_of_executeError {task after : Task}
    (executed : exec (executeError context) task = (.ok (), after)) :
    after.closeOnFinish = true := by
  rw [executeError, exec_get_bind] at executed
  cases stored : task.request.error with
  | none =>
      rw [stored] at executed
      cases congrArg Prod.fst executed
  | some error =>
      rw [stored] at executed
      dsimp only at executed
      split at executed
      · cases congrArg Prod.fst executed
      rw [exec_modify_bind, exec_modify_bind, exec_modify_bind] at executed
      have closes := congrArg (fun outcome => outcome.2.closeOnFinish) executed
      refine closes.symm.trans ?_
      exact within_write_closing context _ _ rfl

theorem closes_of_error {task after : Task}
    (served : exec (serviceTask context (executeError context)) task = (.ok (), after)) :
    after.closeOnFinish = true := by
  rcases serviceTask_ok served with closes | ⟨middle, executed, finished⟩
  · exact closes
  · have closes := closes_of_executeError context executed
    obtain ⟨written, ⟨-, rfl⟩ | ⟨-, wrote⟩, decided, -⟩ := finish_eq context finished
    · exact decided.trans closes
    · have still := within_write_closing context [] middle closes
      rw [wrote] at still
      exact decided.trans still

end Task

/-- The connection only stays open behind a request without an error that allows it. -/
theorem serveRequest_open {context : TaskContext} {application : Call AppIter}
    {request : HTTPRequestParser} {connected : Bool}
    (stays : serveRequest context application request connected = .ok false) :
    connected = true ∧ request.error = none ∧ ¬ request.MustClose := by
  unfold serveRequest at stays
  split at stays
  · cases stays
  rename_i reached
  refine ⟨eq_true_of_ne_false reached, ?_⟩
  split at stays
  · rename_i task ran
    have open_ : task.closeOnFinish = false := Except.ok.inj stays
    rw [runTask, executeTask] at ran
    split at ran
    · have closes := Task.closes_of_error context ran
      exact Bool.noConfusion (closes.symm.trans open_)
    · rename_i fine
      refine ⟨by simpa using fine, fun must => ?_⟩
      have closes := Task.closes_of_mustClose context must ran
      exact Bool.noConfusion (closes.symm.trans open_)
  · repeat' split at stays
    · cases stays
    · cases stays
    · cases stays
    · rename_i task ran
      have closes := Task.closes_of_error context ran
      exact Bool.noConfusion (closes.symm.trans (Except.ok.inj stays))
    · cases stays
    · cases stays

end Waitress
