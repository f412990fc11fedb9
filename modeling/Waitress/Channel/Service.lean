import Waitress.Task

/-!
# Serving one request

The part of `HTTPChannel.service` from the choice of the task to the end of the
handlers.  The result is `close_on_finish`, or the exception that escapes.
-/

namespace Waitress

open Raising

section

variable (context : TaskContext) (application : Call AppIter) (request : HTTPRequestParser)

/-- `ErrorTask` for a request with an error, else `WSGITask`. -/
def executeTask : TaskM Unit :=
  if request.error.isSome = true then executeError context
  else executeWsgi context application

def runTask : Except Exc Unit × Task :=
  exec (serviceTask context (executeTask context application request)) (Task.new request)

/-- The request that stands in for one whose task has failed. -/
def errRequest : HTTPRequestParser :=
  { version := request.version
    headers :=
      match request.headers.get? "CONNECTION".toList with
      | some connection => Dict.set {} "CONNECTION".toList connection
      | none => {}
    error := some (
      if context.adj.exposeTracebacks = true then
        .internalServerError context.traceback context.tracebackEncodable
      else
        .internalServerError
          "The server encountered an unexpected internal server error".toList true) }

/-- The service of the task for the failure, behind `calls` calls of `write_soon`. -/
def runErrorTask (calls : Nat) : Except Exc Unit × Task :=
  exec (serviceTask context (executeError context))
    { Task.new (errRequest context request) with calls }

/-- `connected` is what `self.connected` is seen to be. -/
def serveRequest (connected : Bool) : Except Exc Bool :=
  if connected = false then .ok true
  else
    match runTask context application request with
    | (.ok (), task) => .ok task.closeOnFinish
    | (.error exc, task) =>
        if exc.isException = false then .error exc
        -- Both handlers log the path, which not every request has.
        else if request.path = none then .error .attributeError
        else if exc = .clientDisconnected ∨ task.wroteHeader = true then .ok true
        else
          match runErrorTask context request task.calls with
          | (.ok (), task) => .ok task.closeOnFinish
          | (.error .clientDisconnected, _) => .ok true
          | (.error exc, _) => .error exc

end

end Waitress
