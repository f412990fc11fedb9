import Waitress.Channel.Service
import Waitress.Task.Header

/-!
# Exceptions in a task

When the handlers of `service` deal with what a task raises.
-/

namespace Waitress

open Raising

section

variable (context : TaskContext)

theorem exec_writeHeader_eq {task : Task} (pending : task.wroteHeader = false)
    (supported : task.version = "1.0".toList ∨ task.version = "1.1".toList) :
    exec (writeHeader context) task =
      match encodeLatin1 (task.headerBlock context).renderHeader with
      | .error exc => (.error exc, task.headerBlock context)
      | .ok _ =>
          match context.transport (task.headerBlock context).calls with
          | some exc => (.error exc, (task.headerBlock context).sendHeader)
          | none => (.ok (), { (task.headerBlock context).sendHeader with wroteHeader := true }) := by
  rw [writeHeader, exec_get_bind, if_pos pending, exec_bind, exec_buildResponseHeader,
    if_neg (fun neither => supported.elim neither.1 neither.2)]
  cases encodeLatin1 (task.headerBlock context).renderHeader with
  | error exc => rfl
  | ok block =>
      dsimp only
      rw [exec_bind, writeSoon, exec_get_bind, exec_modify_bind]
      dsimp only
      cases context.transport (task.headerBlock context).calls with
      | some exc => rfl
      | none => rfl

theorem Task.new_supported (request : HTTPRequestParser) :
    (Task.new request).version = "1.0".toList ∨ (Task.new request).version = "1.1".toList := by
  rw [Task.new]
  dsimp only
  split
  · rename_i supported
    exact List.mem_pair.mp supported
  · exact .inl rfl

/-- A length that is announced needs no chunks. -/
theorem Task.decideConnection_announced (task : Task) (connection : Str) :
    (task.decideConnection connection true).chunkedResponse = task.chunkedResponse := by
  rw [decideConnection]
  repeat' split
  all_goals first
    | rfl
    | contradiction

variable (request : HTTPRequestParser)

def failureError : Error :=
  if context.adj.exposeTracebacks = true then
    .internalServerError context.traceback context.tracebackEncodable
  else
    .internalServerError
      "The server encountered an unexpected internal server error".toList true

/-- The task for the failure with its status and headers. -/
def errorStart (calls : Nat) : Task :=
  { Task.new (errRequest context request) with
    calls
    complete := true
    status := ((failureError context).toResponse context.adj.ident).1
    responseHeaders := ((failureError context).toResponse context.adj.ident).2.1 }

def errorResponse (calls : Nat) : Task :=
  { (errorStart context request calls).setCloseOnFinish with
    contentLength :=
      some (((failureError context).toResponse context.adj.ident).2.2.length : Int) }

/-- The first exception on the way of the response: the body and the block are encoded,
and both are handed to the channel. -/
def errorFailure (calls : Nat) : Option Exc :=
  if (failureError context).encodable = false then some .unicodeError
  else match encodeLatin1 ((errorResponse context request calls).headerBlock context).renderHeader with
  | .error exc => some exc
  | .ok _ => (context.transport calls).or (context.transport (calls + 1))

def raised : Option Exc → Except Exc Unit
  | some exc => .error exc
  | none => .ok ()

theorem exec_executeError (calls : Nat) :
    exec (executeError context) { Task.new (errRequest context request) with calls } =
      if (failureError context).encodable = false then
        (.error .unicodeError, { Task.new (errRequest context request) with calls })
      else
        exec (write context ((failureError context).toResponse context.adj.ident).2.2)
          (errorResponse context request calls) := by
  have stored : (Task.new (errRequest context request)).request.error =
      some (failureError context) := rfl
  rw [executeError, exec_get_bind, stored]
  dsimp only
  split
  · rfl
  · rw [exec_modify_bind, exec_modify_bind, exec_modify_bind]
    rfl

theorem failureError_reason : (failureError context).reason = "Internal Server Error".toList := by
  rw [failureError]
  split
  · rfl
  · rfl

theorem failureError_code : (failureError context).code = 500 := by
  rw [failureError]
  split
  · rfl
  · rfl

theorem errorResponse_status (calls : Nat) :
    (errorResponse context request calls).status =
      natStr 500 ++ " ".toList ++ "Internal Server Error".toList := by
  rw [← failureError_code context, ← failureError_reason context]
  rfl

theorem hasBody_of_errorStatus {task : Task}
    (status : task.status = natStr 500 ++ " ".toList ++ "Internal Server Error".toList) :
    task.hasBody = true := by
  rw [Task.hasBody, status]
  decide

theorem errorBody_ne_nil : ((failureError context).toResponse context.adj.ident).2.2 ≠ [] := by
  apply List.ne_nil_of_mem
  refine List.mem_flatMap.mpr ⟨'I', ?_, List.mem_singleton_self 73⟩
  apply List.mem_append_left
  apply List.mem_append_left
  apply List.mem_append_left
  rw [failureError_reason]
  decide

theorem errorResponse_announced (calls : Nat) :
    Task.falsy (errorResponse context request calls).normalizeHeaders.contentLengthHeader = false := by
  have body := hasBody_of_errorStatus (errorResponse_status context request calls)
  have none : Task.lengthValues (errorResponse context request calls).responseHeaders = [] :=
    (Task.lengthValues_setCloseOnFinish (errorStart context request calls)).trans rfl
  rw [Task.contentLengthHeader, Task.lastValue_normalizeHeaders, Task.lengthValues_normalizeHeaders,
    if_pos body, none]
  change Task.falsy (if (errorResponse context request calls).hasBody = true then _ else _) = false
  rw [if_pos body]
  apply List.isEmpty_eq_false_iff.mpr
  exact Nat.toDigits_ne_nil

theorem chunkedResponse_errorBlock (calls : Nat) :
    ((errorResponse context request calls).headerBlock context).chunkedResponse = false := by
  rw [Task.headerBlock, (Task.flags_addDate _ _ _).2, (Task.flags_addServer _ _ _).2,
    errorResponse_announced, Bool.not_false, Task.decideConnection_announced,
    (Task.flags_addContentLength _).2]
  rfl

theorem exec_writeData_whole (task : Task) {data : Bytes} (nonempty : data ≠ [])
    (body : task.hasBody = true) (unchunked : task.chunkedResponse = false)
    (known : task.contentLength = some (data.length : Int))
    (unwritten : task.contentBytesWritten = 0) :
    exec (writeData context data) task =
      (raised (context.transport task.calls),
        { task with
          contentBytesWritten := data.length
          sentBody := task.sentBody ++ data
          calls := task.calls + 1 }) := by
  have whole : Bytes.sliceTo data ((data.length : Int) - 0) = data := by
    rw [Bytes.sliceTo, if_neg (by omega), Int.sub_zero, Int.toNat_natCast, List.take_length]
  rw [writeData, exec_get_bind, if_neg nonempty, if_pos body,
    if_neg (by rw [unchunked]; exact Bool.noConfusion), known, unwritten]
  dsimp only
  rw [whole, exec_modify_bind, if_neg nonempty, writeSoon, exec_get_bind, exec_modify_bind]
  dsimp only
  rw [unwritten, Int.zero_add, ← known]
  cases context.transport task.calls with
  | some exc => rfl
  | none => rfl

/-- The task of an error that was handed over as a whole. -/
def errorSent (calls : Nat) : Task :=
  let body := ((failureError context).toResponse context.adj.ident).2.2
  let task := ((errorResponse context request calls).headerBlock context).sendHeader
  { task with
    wroteHeader := true
    contentBytesWritten := body.length
    sentBody := body
    calls := calls + 2 }

theorem exec_errorTask (calls : Nat) :
    ∃ after, exec (do executeError context; finish context)
        { Task.new (errRequest context request) with calls } =
          (raised (errorFailure context request calls), after) ∧
      (errorFailure context request calls = none → after = errorSent context request calls) := by
  rw [exec_bind, exec_executeError, errorFailure]
  by_cases encodes : (failureError context).encodable = false
  · rw [if_pos encodes, if_pos encodes]
    exact ⟨_, rfl, fun contrary => by cases contrary⟩
  rw [if_neg encodes, if_neg encodes]
  have supported : (errorResponse context request calls).version = "1.0".toList ∨
      (errorResponse context request calls).version = "1.1".toList :=
    Task.new_supported (errRequest context request)
  have pending : (errorResponse context request calls).wroteHeader = false := rfl
  have frame := Task.frame_headerBlock context (errorResponse context request calls)
  have chunked := chunkedResponse_errorBlock context request calls
  have complete : (errorResponse context request calls).complete = true := rfl
  rw [write, exec_get_bind, if_neg (by rw [complete]; exact Bool.noConfusion), exec_bind,
    exec_writeHeader_eq context pending supported]
  cases encodeLatin1 ((errorResponse context request calls).headerBlock context).renderHeader with
  | error exc => exact ⟨_, rfl, fun contrary => by cases contrary⟩
  | ok block =>
      have same : ((errorResponse context request calls).headerBlock context).calls = calls :=
        (congrArg Task.calls frame :)
      dsimp only
      rw [same]
      cases context.transport calls with
      | some exc => exact ⟨_, rfl, fun contrary => by cases contrary⟩
      | none =>
          dsimp only
          have body := hasBody_of_errorStatus
            ((congrArg Task.status frame :).trans (errorResponse_status context request calls))
          rw [exec_writeData_whole context
            { ((errorResponse context request calls).headerBlock context).sendHeader with
              wroteHeader := true }
            (errorBody_ne_nil context) body chunked (congrArg Task.contentLength frame :)
            (congrArg Task.contentBytesWritten frame :)]
          rw [show ({ ((errorResponse context request calls).headerBlock context).sendHeader with
            wroteHeader := true } : Task).calls = calls + 1 from congrArg (· + 1) same,
            Option.none_or]
          cases context.transport (calls + 1) with
          | some exc => exact ⟨_, rfl, fun contrary => by cases contrary⟩
          | none =>
              refine ⟨errorSent context request calls, ?_, fun _ => rfl⟩
              change exec (finish context) (errorSent context request calls) = _
              have unchunked : (errorSent context request calls).chunkedResponse = false := chunked
              have header : (errorSent context request calls).wroteHeader = true := rfl
              rw [finish, exec_get_bind, if_neg (by rw [header]; exact Bool.noConfusion)]
              rw [exec_get_bind, if_neg (by rw [unchunked]; exact Bool.noConfusion)]
              rfl

/-- The response can be written, or the client is gone. -/
def ErrorAnswered (calls : Nat) : Prop :=
  ∀ exc, errorFailure context request calls = some exc →
    exc = .clientDisconnected ∨ exc = .osError ∧ context.adj.logSocketErrors = false

theorem runErrorTask_answered {calls : Nat} :
    ErrorAnswered context request calls ↔
      (runErrorTask context request calls).1 = .ok () ∨
        (runErrorTask context request calls).1 = .error .clientDisconnected := by
  obtain ⟨after, ended, -⟩ := exec_errorTask context request calls
  rw [runErrorTask, serviceTask, exec_tryCatch, ErrorAnswered, ended]
  cases errorFailure context request calls with
  | none => exact ⟨fun _ => .inl rfl, fun _ _ none => by cases none⟩
  | some exc =>
      dsimp only [raised]
      by_cases socket : exc = .osError
      · subst socket
        rw [if_pos rfl, exec_modify_bind]
        cases log : context.adj.logSocketErrors with
        | true =>
            constructor
            · intro answered
              rcases answered _ rfl with contrary | ⟨-, contrary⟩
              · cases contrary
              · cases contrary
            · rintro (contrary | contrary)
              · cases contrary
              · cases contrary
        | false => exact ⟨fun _ => .inl rfl, fun _ _ same => .inr ⟨(Option.some.inj same).symm, rfl⟩⟩
      · rw [if_neg socket, exec_throw]
        constructor
        · intro answered
          rcases answered _ rfl with rfl | ⟨contrary, -⟩
          · exact .inr rfl
          · exact absurd contrary socket
        · rintro (contrary | gone) other same
          · cases contrary
          · exact .inl ((Option.some.inj same).symm.trans (Except.error.inj gone))

variable (application : Call AppIter)

/-- The task raises nothing, or the handlers deal with what it raises. -/
def Handled : Prop :=
  match runTask context application request with
  | (.ok (), _) => True
  | (.error exc, task) =>
      exc.isException = true ∧ request.path ≠ none ∧
        (exc = .clientDisconnected ∨ task.wroteHeader = true ∨
          ErrorAnswered context request task.calls)

/-- An exception leaves the handlers exactly if they do not deal with it. -/
theorem handled_iff :
    Handled context request application ↔
      ∃ closes, serveRequest context application request true = .ok closes := by
  rw [Handled, serveRequest, if_neg (by decide)]
  rcases runTask context application request with ⟨exc | ⟨⟩, task⟩
  · dsimp only
    by_cases outside : exc.isException = false
    · rw [if_pos outside, outside]
      exact ⟨fun handled => Bool.noConfusion handled.1, fun ⟨_, contrary⟩ => by cases contrary⟩
    rw [if_neg outside]
    by_cases noPath : request.path = none
    · rw [if_pos noPath]
      exact ⟨fun handled => absurd noPath handled.2.1, fun ⟨_, contrary⟩ => by cases contrary⟩
    rw [if_neg noPath]
    by_cases known : exc = .clientDisconnected ∨ task.wroteHeader = true
    · rw [if_pos known]
      exact ⟨fun _ => ⟨true, rfl⟩, fun _ =>
        ⟨eq_true_of_ne_false outside, noPath, known.imp_right .inl⟩⟩
    rw [if_neg known]
    have needed : exc.isException = true ∧ request.path ≠ none ∧
        (exc = .clientDisconnected ∨ task.wroteHeader = true ∨
          ErrorAnswered context request task.calls) ↔
        ErrorAnswered context request task.calls := by
      constructor
      · rintro ⟨-, -, gone | wrote | answered⟩
        · exact absurd (.inl gone) known
        · exact absurd (.inr wrote) known
        · exact answered
      · exact fun answered => ⟨eq_true_of_ne_false outside, noPath, .inr (.inr answered)⟩
    rw [needed, runErrorTask_answered]
    rcases runErrorTask context request task.calls with ⟨failure | ⟨⟩, after⟩
    · constructor
      · rintro (contrary | gone)
        · cases contrary
        · obtain rfl := Except.error.inj gone
          exact ⟨true, rfl⟩
      · rintro ⟨closes, answered⟩
        split at answered
        · rename_i contrary
          cases contrary
        · rename_i gone
          exact .inr (congrArg Prod.fst gone)
        · cases answered
    · exact ⟨fun _ => ⟨after.closeOnFinish, rfl⟩, fun _ => .inl rfl⟩
  · exact ⟨fun _ => ⟨task.closeOnFinish, rfl⟩, fun _ => trivial⟩

instance : Decidable (Handled context request application) :=
  match answered : serveRequest context application request true with
  | .ok closes => .isTrue ((handled_iff ..).mpr ⟨closes, answered⟩)
  | .error _ => .isFalse fun handled => by
      obtain ⟨closes, returned⟩ := (handled_iff ..).mp handled
      cases answered.symm.trans returned

end

end Waitress
