import Waitress.Channel.Failures
import Waitress.Parser.Received
import Waitress.Task.Texts

/-!
# Failures that are answered

An application that fails before anything was handed to the channel is answered by a
second task.
-/

namespace Waitress

open Raising

namespace Str

/-- The characters that a header block may contain. -/
def IsLatin1 (c : Char) : Prop := c.toNat < 256

instance : DecidablePred IsLatin1 := fun c => inferInstanceAs (Decidable (c.toNat < 256))

theorem IsPlain.isLatin1 (c : Char) (plain : IsPlain c) : IsLatin1 c :=
  Nat.lt_trans plain.2 (by decide)

end Str

theorem encodeLatin1_of {text : Str} (latin1 : Str.Of Str.IsLatin1 text) :
    encodeLatin1 text = .ok (text.map fun c => UInt8.ofNat c.toNat) := by
  rw [encodeLatin1, if_pos]
  exact List.all_eq_true.mpr fun c mem => decide_eq_true (latin1 c mem)

theorem Task.renderHeader_of {allowed : Char → Prop} {task : Task}
    (plain : ∀ c, Str.IsPlain c → allowed c) (lineEnd : Str.Of allowed "\r\n".toList)
    (version : Str.Of allowed task.version) (status : Str.Of allowed task.status)
    (texts : Task.Texts allowed task.responseHeaders) : Str.Of allowed task.renderHeader := by
  have http : Str.Of Str.IsPlain "HTTP/".toList := by decide
  have blank : Str.Of Str.IsPlain " ".toList := by decide
  have colon : Str.Of Str.IsPlain ": ".toList := by decide
  have between : Str.Of allowed "\r\n\r\n".toList := Str.of_append.mpr ⟨lineEnd, lineEnd⟩
  refine Str.of_append.mpr ⟨Str.of_join lineEnd (List.forall_mem_cons.mpr ⟨?_, ?_⟩), between⟩
  · simp only [Str.of_append]
    exact ⟨⟨⟨http.mono plain, version⟩, blank.mono plain⟩, status⟩
  · intro line mem
    obtain ⟨header, sorted, rfl⟩ := List.mem_map.mp mem
    have given := texts header ((List.mem_insertionSort _).mp sorted)
    simp only [Str.of_append]
    exact ⟨⟨given.1, colon.mono plain⟩, given.2⟩

/-- One block and behind it a body of the length that the block gives were handed over. -/
structure Task.IsResponse (status : Str) (task : Task) : Prop where
  status : task.status = status
  headers : task.sentHeaders = some task.responseHeaders
  block : ∃ block, encodeLatin1 task.renderHeader = .ok block
  unchunked : task.chunkedResponse = false
  length : Task.lengthValues task.responseHeaders = [natStr task.sentBody.length]

section

variable (context : TaskContext) (application : Call AppIter) (request : HTTPRequestParser)

def servedTasks : List Task :=
  match runTask context application request with
  | (.ok (), task) => [task]
  | (.error exc, task) =>
      if exc.isException = false ∨ request.path = none ∨ exc = .clientDisconnected ∨
          task.wroteHeader = true then [task]
      else [task, (runErrorTask context request task.calls).2]

/-- The task of the application hands nothing over and a second one a complete response. -/
def AnswersFailure : Prop :=
  serveRequest context application request true = .ok true ∧
    ∃ failed answered, servedTasks context application request = [failed, answered] ∧
      failed.calls = 0 ∧ answered.calls = 2 ∧
      answered.IsResponse "500 Internal Server Error".toList

def FailsEarly (exc : Exc) : Prop :=
  ∃ task, exec (do executeWsgi context application; finish context) (Task.new request) =
    (.error exc, task) ∧ task.calls = 0

end

/-! ### The error task -/

section

variable {context : TaskContext} {request : HTTPRequestParser}

theorem lengthValues_errorBlock (calls : Nat) :
    Task.lengthValues ((errorResponse context request calls).headerBlock context).responseHeaders =
      [natStr ((failureError context).toResponse context.adj.ident).2.2.length] := by
  have body := hasBody_of_errorStatus (errorResponse_status context request calls)
  have none : Task.lengthValues (errorResponse context request calls).responseHeaders = [] :=
    (Task.lengthValues_setCloseOnFinish (errorStart context request calls)).trans rfl
  have normal :
      Task.lengthValues (errorResponse context request calls).normalizeHeaders.responseHeaders =
        [] := by
    rw [Task.lengthValues_normalizeHeaders, if_pos body, none]
  have missing : Task.lastValue "Content-Length".toList
      (errorResponse context request calls).normalizeHeaders.responseHeaders = Option.none := by
    rw [Task.lastValue_normalizeHeaders, normal]
    rfl
  rw [Task.lengthValues_headerBlock, Task.addContentLength, if_pos ⟨missing, body⟩]
  change Task.lengthValues (_ ++ [_]) = _
  rw [Task.lengthValues_append, normal]
  rfl

/-- The block of an error task is plain text, apart from the ident. -/
theorem errorBlock_latin1 (named : ∀ name ∈ context.adj.ident, Str.Of Str.IsLatin1 name)
    (dated : Str.Of Str.IsLatin1 context.date) (calls : Nat) :
    Str.Of Str.IsLatin1
      ((errorResponse context request calls).headerBlock context).renderHeader := by
  have frame := Task.frame_headerBlock context (errorResponse context request calls)
  have version : ((errorResponse context request calls).headerBlock context).version =
      (errorResponse context request calls).version := (congrArg Task.version frame :)
  have status : ((errorResponse context request calls).headerBlock context).status =
      (errorResponse context request calls).status := (congrArg Task.status frame :)
  have supported : Str.Of Str.IsPlain (errorResponse context request calls).version := by
    rcases Task.new_supported (errRequest context request) with old | new
    · rw [show (errorResponse context request calls).version = _ from old]
      decide
    · rw [show (errorResponse context request calls).version = _ from new]
      decide
  have line : Str.Of Str.IsPlain (natStr 500 ++ " ".toList ++ "Internal Server Error".toList) := by
    decide
  have headers : (errorResponse context request calls).normalizeHeaders.responseHeaders =
      [("Content-Type".toList, "text/plain; charset=utf-8".toList),
        ("Connection".toList, "close".toList)] := rfl
  have texts : Task.Texts Str.IsLatin1
      ((errorResponse context request calls).headerBlock context).responseHeaders := by
    apply Task.Texts.headerBlock Str.IsPlain.isLatin1 _ named dated
    rw [headers]
    refine List.forall_mem_cons.mpr ⟨⟨?_, ?_⟩, List.forall_mem_singleton.mpr ⟨?_, ?_⟩⟩
    · decide
    · decide
    · decide
    · decide
  apply Task.renderHeader_of Str.IsPlain.isLatin1
  · decide
  · rw [version]
    exact supported.mono Str.IsPlain.isLatin1
  · rw [status, errorResponse_status]
    exact line.mono Str.IsPlain.isLatin1
  · exact texts

theorem errorSent_closes {calls : Nat} :
    (errorSent context request calls).closeOnFinish = true := by
  apply eq_true_of_ne_false
  intro stays
  have closing : (errorResponse context request calls).closeOnFinish = true := rfl
  exact Bool.noConfusion (closing.symm.trans (Task.headerBlock_open context stays).1)

theorem errorSent_isResponse {calls : Nat}
    (encoded : ∃ block, encodeLatin1
      ((errorResponse context request calls).headerBlock context).renderHeader = .ok block) :
    (errorSent context request calls).IsResponse "500 Internal Server Error".toList where
  status := by
    have frame := Task.frame_headerBlock context (errorResponse context request calls)
    exact ((congrArg Task.status frame :).trans (errorResponse_status context request calls)).trans
      (by decide)
  headers := rfl
  block := encoded
  unchunked := chunkedResponse_errorBlock context request calls
  length := lengthValues_errorBlock calls

end

/-! ### The failure -/

section

variable {context : TaskContext} {request : HTTPRequestParser} {application : Call AppIter}

section

variable (context : TaskContext) (application : Call AppIter)

/-- A task that has written its header has called the channel. -/
def Task.Counts (task : Task) : Prop := task.wroteHeader = true → 0 < task.calls

theorem within_write_counts (data : Bytes) : Within (Keeps Task.Counts) (write context data) := by
  refine within_get_bind fun task => ?_
  split
  · exact within_throw _ task
  refine within_bind (fun before counts => ?_) (fun _ => ?_) task
  · cases pending : before.wroteHeader with
    | true =>
        rw [exec_writeHeader_again context before pending]
        exact counts
    | false =>
        have assembled : (before.normalizeHeaders.addContentLength).frame = before.frame :=
          Task.frame_addContentLength before.normalizeHeaders
        have built : (before.headerBlock context).frame = before.frame :=
          Task.frame_headerBlock context before
        have unwritten : ∀ after : Task, after.frame = before.frame → after.Counts := by
          intro after frame wrote
          have same : after.wroteHeader = before.wroteHeader := (congrArg Task.wroteHeader frame :)
          exact Bool.noConfusion (pending.symm.trans (same.symm.trans wrote))
        rcases exec_writeHeader context before pending with ⟨exc, outcome⟩ | ⟨exc, outcome⟩ |
          ⟨exc, outcome⟩ | outcome <;> rw [outcome]
        · exact unwritten _ assembled
        · exact unwritten _ built
        · exact fun _ => Nat.succ_pos _
        · exact fun _ => Nat.succ_pos _
  · apply within_writeData
    exact fun task calls written body more counts wrote => Nat.lt_of_lt_of_le (counts wrote) more

theorem within_executeWsgi_counts :
    Within (Keeps Task.Counts) (do executeWsgi context application; finish context) := by
  have writes := within_write_counts context
  refine within_bind ?_ fun _ => ?_
  · apply within_anyApplication
    · apply within_startResponse
      exact fun task status headers contentLength complete counts => counts
    · exact writes
    · intro len chunk
      refine within_get_bind fun task => ?_
      split
      · exact id
      · exact id
    · refine within_get_bind fun task => ?_
      split
      · exact id
      · split
        · exact id
        · exact id
    · intro wrapper size
      refine within_bind (within_modify fun task counts => ?_) fun _ => ?_
      · rw [Task.setFileLength]
        repeat' split
        · exact counts
        · exact counts
        · exact counts
      · refine within_bind (writes []) fun _ => ?_
        split
        · exact within_throw _
        · apply within_writeSoon
          exact fun task counts _ => Nat.succ_pos _
  · apply within_finish
    · exact writes []
    · exact fun task body counts _ => Nat.succ_pos _

end

theorem serveRequest_answersFailure [CPython] {exc : Exc} {time : GmTime}
    (received : HTTPRequestParser.Received context.adj request)
    (completed : request.completed = true) (nonempty : request.empty = false)
    (fine : request.error = none) (connected : ∀ call, context.transport call = none)
    (dated : context.date = buildHttpDate time)
    (fails : FailsEarly context application request exc) (caught : exc.isException = true)
    (told : exc ≠ .clientDisconnected)
    (socket : exc = .osError → context.adj.logSocketErrors = true)
    (named : ∀ name ∈ context.adj.ident, Str.Of Str.IsLatin1 name)
    (encodable : context.adj.exposeTracebacks = true → context.tracebackEncodable = true) :
    AnswersFailure context application request := by
  obtain ⟨failed, raised, silent⟩ := fails
  have path : request.path ≠ none := received.accounted.answerable completed nonempty fine
  have unwritten : failed.wroteHeader = false := by
    have counts := within_executeWsgi_counts context application (Task.new request)
      fun wrote => Bool.noConfusion wrote
    rw [raised] at counts
    by_contra wrote
    have called := counts (by simpa using wrote)
    exact absurd silent (Nat.ne_of_gt called)
  -- The first layer of handlers lets the exception pass, after it has decided to close.
  have ran : ∃ closeOnFinish, runTask context application request =
      (.error exc, { failed with closeOnFinish }) := by
    rw [runTask, executeTask, if_neg (by simp [fine]), serviceTask, exec_tryCatch, raised]
    dsimp only
    by_cases isSocket : exc = .osError
    · rw [if_pos isSocket, exec_modify_bind, if_pos (socket isSocket)]
      exact ⟨true, rfl⟩
    · rw [if_neg isSocket]
      exact ⟨failed.closeOnFinish, rfl⟩
  obtain ⟨closeOnFinish, ran⟩ := ran
  have latin1 : Str.Of Str.IsLatin1 context.date := by
    rw [dated]
    exact (buildHttpDate_plain time).mono Str.IsPlain.isLatin1
  have isLatin1 : Str.Of Str.IsLatin1
      ((errorResponse context request 0).headerBlock context).renderHeader :=
    errorBlock_latin1 named latin1 0
  have block := encodeLatin1_of isLatin1
  have succeeds : errorFailure context request 0 = none := by
    have encodes : (failureError context).encodable = true := by
      rw [failureError]
      split
      · exact encodable (by assumption)
      · rfl
    rw [errorFailure, if_neg (by rw [encodes]; exact Bool.noConfusion), block]
    dsimp only
    rw [connected, connected]
    rfl
  obtain ⟨answered, ended, sent⟩ := exec_errorTask context request 0
  obtain rfl := sent succeeds
  have run : runErrorTask context request 0 = (.ok (), errorSent context request 0) := by
    rw [runErrorTask, serviceTask, exec_tryCatch, ended, succeeds]
    rfl
  refine ⟨?_, { failed with closeOnFinish }, errorSent context request 0, ?_, silent, rfl, ?_⟩
  · rw [serveRequest, if_neg (by decide), ran]
    dsimp only
    rw [if_neg (by simp [caught]), if_neg path, if_neg (by simp [told, unwritten]), silent, run]
    exact congrArg Except.ok errorSent_closes
  · rw [servedTasks, ran]
    dsimp only
    rw [if_neg (by simp [caught, path, told, unwritten]), silent, run]
  · exact errorSent_isResponse ⟨_, block⟩

def bareRequest [CPython] (adj : Adjustments) : HTTPRequestParser :=
  (({} : HTTPRequestParser).received adj (ascii "GET / HTTP/1.0\r\n\r\n")).1

/-- An operating system error at once, with the settings that are the default. -/
theorem serveRequest_answersFailure_sample :
    let _ : CPython := .unchecked
    AnswersFailure { date := buildHttpDate ⟨1994, 11, 6, 8, 49, 37, 6⟩ } (.raises .osError)
      (bareRequest {}) := by
  intro _
  apply serveRequest_answersFailure (.received _ .new)
  · decide +kernel
  · decide +kernel
  · decide +kernel
  · exact fun _ => rfl
  · exact rfl
  · exact ⟨_, rfl, rfl⟩
  · exact rfl
  · decide
  · exact fun _ => rfl
  · exact fun name isName => by cases isName; decide
  · exact fun exposes => by cases exposes

/-- The errors of the operating system without the setting to log them, the exception for a
client that is gone, an ident and a traceback that cannot be encoded. -/
theorem not_answersFailure :
    let _ : CPython := .unchecked
    let date := buildHttpDate ⟨1994, 11, 6, 8, 49, 37, 6⟩
    let unlogged : TaskContext := { date, adj := { logSocketErrors := false } }
    let foreign : TaskContext := { date, adj := { ident := some "\u0100".toList } }
    let exposed : TaskContext :=
      { date, adj := { exposeTracebacks := true }, tracebackEncodable := false }
    ¬ AnswersFailure unlogged (.raises .osError) (bareRequest unlogged.adj) ∧
      ¬ AnswersFailure { date } (.raises .clientDisconnected) (bareRequest {}) ∧
      ¬ AnswersFailure foreign (.raises .exception) (bareRequest foreign.adj) ∧
      ¬ AnswersFailure exposed (.raises .exception) (bareRequest exposed.adj) := by
  intro _ date unlogged foreign exposed
  have single : ∀ (context : TaskContext) (exc : Exc),
      (servedTasks context (.raises exc) (bareRequest context.adj)).length = 1 →
      ¬ AnswersFailure context (.raises exc) (bareRequest context.adj) := by
    rintro context exc single ⟨-, failed, answered, served, -⟩
    rw [served] at single
    cases single
  have escapes : ∀ (context : TaskContext) (exc : Exc),
      serveRequest context (.raises exc) (bareRequest context.adj) true = .error .unicodeError →
      ¬ AnswersFailure context (.raises exc) (bareRequest context.adj) := by
    rintro context exc escapes ⟨returns, -⟩
    rw [escapes] at returns
    cases returns
  refine ⟨single _ _ ?_, single _ _ ?_, escapes _ _ ?_, escapes _ _ ?_⟩
  · decide +kernel
  · decide +kernel
  · decide +kernel
  · decide +kernel

end

end Waitress
