import Waitress.Task.FirstWrite

/-!
# Replaced responses

An application may call `start_response` again, with `exc_info`, as long as
nothing was written.  The earlier calls leave their length behind, and their
status where the last call is refused before it sets its own.
-/

namespace Waitress

open Raising

/-- The arguments of a call of `start_response`. -/
structure StartCall where
  status : Str
  headers : List (Str × Str)
  excInfo : Option Exc := none

/-- The application makes the calls and returns the iterable. -/
def Call.starting (calls : List StartCall) (result : AppIter) : Call AppIter :=
  calls.foldr (fun call next => .startResponse call.status call.headers call.excInfo fun _ => next)
    (.returns result)

namespace StartCall

variable (call : StartCall)

def Refused : Prop := '\n' ∈ call.status ∨ '\r' ∈ call.status

instance : Decidable call.Refused := inferInstanceAs (Decidable (_ ∨ _))

/-- The last length that the headers gave before one of them was refused. -/
def length : Option Int := if call.Refused then none else (headersOutcome call.headers).2

def kept : List (Str × Str) :=
  if ¬ call.Refused ∧ (headersOutcome call.headers).1 = .ok () then call.headers else []

def respond (task : Task) : Task :=
  { task with
    complete := true
    status := if call.Refused then task.status else call.status
    contentLength := call.length.or task.contentLength
    responseHeaders := call.kept }

/-- The call is not the second one without `exc_info`. -/
def Allowed (task : Task) : Prop :=
  call.excInfo ≠ none ∨ task.complete = false ∧ task.responseHeaders = []

variable {call} {task : Task}

theorem exec_setResponse_snd (task : Task) :
    (exec (setResponse call.status call.headers) { task with responseHeaders := [] }).2 =
      call.respond task := by
  rw [exec_setResponse]
  by_cases refused : '\n' ∈ call.status ∨ '\r' ∈ call.status
  · rw [if_pos refused]
    simp [respond, length, kept, Refused, refused]
  · rw [if_neg refused]
    by_cases accepted : (headersOutcome call.headers).1 = .ok ()
    · simp [respond, length, kept, Refused, refused, accepted]
    · simp [respond, length, kept, Refused, refused, accepted]

/-- However the call ends, the earlier headers are gone. -/
theorem exec_startResponse (unwritten : task.wroteHeader = false) (allowed : call.Allowed task) :
    (exec (startResponse call.status call.headers call.excInfo) task).2 = call.respond task := by
  rw [startResponse, exec_get_bind]
  cases info : call.excInfo with
  | none =>
      obtain ⟨fresh, blank⟩ := allowed.resolve_left (not_not.mpr info)
      dsimp only
      rw [if_neg (by rw [fresh]; exact Bool.noConfusion), ← exec_setResponse_snd, ← blank]
  | some exc =>
      dsimp only
      rw [if_neg (by rw [unwritten]; exact Bool.noConfusion), exec_modify_bind,
        ← exec_setResponse_snd]

end StartCall

/-- The calls behind the first one have `exc_info`. -/
def Replaces (calls : List StartCall) : Prop := ∀ call ∈ calls.tail, call.excInfo ≠ none

instance (calls : List StartCall) : Decidable (Replaces calls) :=
  inferInstanceAs (Decidable (∀ call ∈ calls.tail, call.excInfo ≠ none))

def lastStatus (calls : List StartCall) : Str :=
  calls.foldl (fun status call => if call.Refused then status else call.status) "200 OK".toList

def lastLength (calls : List StartCall) : Option Int :=
  calls.foldl (fun length call => call.length.or length) none

/-- The other fields are not kept from call to call, or not changed. -/
theorem foldl_respond (calls : List StartCall) (task : Task) :
    ∃ complete responseHeaders, calls.foldl (fun task call => call.respond task) task =
      { task with
        status := calls.foldl (fun status call => if call.Refused then status else call.status)
          task.status
        contentLength := calls.foldl (fun length call => call.length.or length) task.contentLength
        complete, responseHeaders } := by
  induction calls generalizing task with
  | nil => exact ⟨task.complete, task.responseHeaders, rfl⟩
  | cons call calls inductionHypothesis => exact inductionHypothesis (call.respond task)

section Runs

variable (context : TaskContext)

/-- The task of an application that makes the calls and returns the chunks. -/
def served (request : HTTPRequestParser) (calls : List StartCall) (len : Option Nat)
    (chunks : List Bytes) : Task :=
  (exec (serviceTask context (executeWsgi context
    (.starting calls (.iterable len (.ofChunks chunks) none)))) (Task.new request)).2

variable {context}

/-- The calls have no other effect than what they make of the task. -/
theorem exec_starting {calls : List StartCall} {result : AppIter} {task : Task}
    (unwritten : task.wroteHeader = false) (first : ∀ call ∈ calls.head?, call.Allowed task)
    (replaces : Replaces calls) :
    exec ((Call.starting calls result).run context) task =
      (.ok result, calls.foldl (fun task call => call.respond task) task) := by
  induction calls generalizing task with
  | nil => rfl
  | cons call calls inductionHypothesis =>
      have allowed := first call rfl
      have responds : ∃ outcome, exec (attempt (startResponse call.status call.headers call.excInfo))
          task = (.ok outcome, call.respond task) := by
        rw [attempt, exec_tryCatch, exec_bind, ← StartCall.exec_startResponse unwritten allowed]
        rcases exec (startResponse call.status call.headers call.excInfo) task with
          ⟨exc | ⟨⟩, after⟩
        · exact ⟨some exc, rfl⟩
        · exact ⟨none, rfl⟩
      obtain ⟨outcome, responds⟩ := responds
      change exec (attempt _ >>= fun _ => (Call.starting calls result).run context) task = _
      rw [exec_bind, responds]
      refine @inductionHypothesis (call.respond task) unwritten ?_ fun other mem => ?_
      · exact fun next isNext => .inl (replaces next (List.mem_of_head? isNext))
      · exact replaces other (List.mem_of_mem_tail mem)

/-- The task of the last call, with the status and the length of the earlier ones. -/
def replaced (request : HTTPRequestParser) (last : StartCall) (status : Str)
    (length : Option Int) : Task :=
  last.respond { Task.new request with status, contentLength := length }

theorem served_eq_deliver {request : HTTPRequestParser} {earlier : List StartCall}
    {last : StartCall} (replaces : Replaces (earlier ++ [last])) (len : Option Nat)
    (chunks : List Bytes) :
    served context request (earlier ++ [last]) len chunks =
      deliver context len chunks
        (replaced request last (lastStatus earlier) (lastLength earlier)) := by
  have state : (earlier ++ [last]).foldl (fun task call => call.respond task) (Task.new request) =
      replaced request last (lastStatus earlier) (lastLength earlier) := by
    obtain ⟨complete, headers, folded⟩ := foldl_respond earlier (Task.new request)
    rw [List.foldl_append, List.foldl_cons, List.foldl_nil, folded]
    rfl
  have ran : exec ((Call.starting (earlier ++ [last]) (.iterable len (.ofChunks chunks) none)).run
      context) (Task.new request) = (.ok (.iterable len (.ofChunks chunks) none), _) :=
    exec_starting rfl (fun call _ => .inr ⟨rfl, rfl⟩) replaces
  rw [state] at ran
  rw [served, deliver, serviceTask, serviceTask, exec_tryCatch, exec_tryCatch, exec_bind, exec_bind,
    executeWsgi, exec_bind, ran]
  rfl

end Runs

/-! ### Lengths and lines -/

theorem intStr_injective : Function.Injective intStr := by
  have natural : Function.Injective natStr := fun n m same => by
    rw [← decimalValue_natStr n, same, decimalValue_natStr]
  have unsigned : ∀ n rest, natStr n ≠ '-' :: rest := by
    intro n rest same
    have digits := (natStr_isDecimal n).2
    rw [same, List.all_cons] at digits
    exact absurd (Bool.and_eq_true_iff.mp digits).1 (by decide)
  intro n m same
  match n, m with
  | .ofNat n, .ofNat m => exact congrArg Int.ofNat (natural same)
  | .negSucc n, .negSucc m =>
      have next := natural (List.cons.inj same).2
      exact congrArg Int.negSucc (Nat.succ.inj next)
  | .ofNat n, .negSucc m => exact absurd same (unsigned n _)
  | .negSucc n, .ofNat m => exact absurd same.symm (unsigned m _)

namespace Task

theorem headerLine_length {header : Str × Str} {value : Str} (plain : ':' ∉ value)
    (same : headerLine header = headerLine ("Content-Length".toList, value)) :
    header = ("Content-Length".toList, value) := by
  have noColon : ':' ∉ "Content-Length".toList := by decide
  simp only [headerLine, List.append_assoc] at same
  rcases List.append_eq_append_iff.mp same with ⟨more, name, rest⟩ | ⟨more, name, rest⟩
  · cases more with
    | nil =>
        rw [List.append_nil] at name
        exact Prod.ext name.symm (List.append_cancel_left rest)
    | cons c more =>
        have colon : ':' = c := (List.cons.inj rest).1
        refine absurd ?_ noColon
        rw [name, colon]
        exact List.mem_append_right _ List.mem_cons_self
  · cases more with
    | nil =>
        rw [List.append_nil] at name
        exact Prod.ext name (List.append_cancel_left rest).symm
    | cons c more =>
        have behind : ' ' :: value = more ++ (": ".toList ++ header.2) := (List.cons.inj rest).2
        have colon : ':' ∈ ' ' :: value := by
          rw [behind]
          exact List.mem_append_right _ List.mem_cons_self
        rcases List.mem_cons.mp colon with blank | inside
        · exact absurd blank (by decide)
        · exact absurd inside plain

theorem lengthValues_addLength (task : Task) {name : Str} (value : Str) (isLength : IsLength name) :
    lengthValues (task.addHeader name value).responseHeaders =
      lengthValues task.responseHeaders ++ [value] := by
  rw [addHeader, lengthValues_append, lengthValues_cons, if_pos isLength, lengthValues_nil]

theorem lengthValues_headerBlock_of_none {context : TaskContext} {task : Task}
    (body : task.hasBody = true) (none : lengthValues task.responseHeaders = []) :
    lengthValues (task.headerBlock context).responseHeaders =
      (task.contentLength.map intStr).toList := by
  have normal : lengthValues task.normalizeHeaders.responseHeaders = [] := by
    rw [lengthValues_normalizeHeaders, if_pos body, none]
  have last : lastValue "Content-Length".toList task.normalizeHeaders.responseHeaders = .none := by
    rw [lastValue_normalizeHeaders, normal]
    rfl
  have same : task.normalizeHeaders.contentLength = task.contentLength := rfl
  rw [lengthValues_headerBlock, addContentLength, if_pos ⟨last, body⟩, same]
  cases task.contentLength with
  | none => exact normal
  | some length =>
      have added := lengthValues_addLength task.normalizeHeaders (intStr length)
        (show IsLength "Content-Length".toList by decide)
      rw [normal] at added
      exact added

/-- The length of a response with a body whose headers give none. -/
theorem lengthValues_firstWrite {context : TaskContext} {task : Task} (body : task.hasBody = true)
    (none : lengthValues task.responseHeaders = []) (len : Option Nat) (chunks : List Bytes) :
    lengthValues ((task.firstWrite len chunks).headerBlock context).responseHeaders =
      ((task.sized len chunks).contentLength.map intStr).toList := by
  obtain ⟨contentLength, sized⟩ := task.sized_eq len chunks
  have body' : hasBody { task with contentLength } = true := body
  rcases task.firstWrite_cases len chunks with same | same
  · rw [same, sized]
    exact lengthValues_headerBlock_of_none body' none
  · have none' : lengthValues
        (setCloseOnFinish { task with contentLength }).responseHeaders = [] :=
      (lengthValues_setCloseOnFinish _).trans none
    rw [same, sized]
    exact lengthValues_headerBlock_of_none body' none'

theorem mem_lengthValues {headers : List (Str × Str)} {value : Str} :
    value ∈ lengthValues headers ↔ ∃ header ∈ headers, IsLength header.1 ∧ header.2 = value := by
  simp [lengthValues, List.mem_map, List.mem_filter, and_assoc]

end Task

theorem headersOutcome_no_length {headers : List (Str × Str)}
    (accepted : (headersOutcome headers).1 = .ok ()) (none : (headersOutcome headers).2 = none) :
    Task.lengthValues headers = [] := by
  induction headers with
  | nil => rfl
  | cons header headers inductionHypothesis =>
      rw [headersOutcome] at accepted none
      cases outcome : headerOutcome header with
      | error exc =>
          rw [outcome] at accepted
          cases accepted
      | ok length =>
          rw [outcome] at accepted none
          obtain ⟨rest, first⟩ := Option.or_eq_none_iff.mp none
          have other : ¬ Task.IsLength header.1 := by
            intro isLength
            rw [headerOutcome] at outcome
            split at outcome
            · cases outcome
            split at outcome
            · cases outcome
            rw [if_pos (show Str.lower header.1 = "content-length".toList from isLength)] at outcome
            cases value : intOfStr header.2 with
            | error exc =>
                rw [value] at outcome
                cases outcome
            | ok n =>
                rw [value] at outcome
                rw [first] at outcome
                cases outcome
          rw [Task.lengthValues_cons, if_neg other]
          exact inductionHypothesis accepted rest

namespace StartCall

variable {call : StartCall}

theorem lengthValues_kept (none : call.length = none) : Task.lengthValues call.kept = [] := by
  rw [kept]
  split
  · next accepted =>
      rw [length, if_neg accepted.1] at none
      exact headersOutcome_no_length accepted.2 none
  · rfl

end StartCall

/-! ### What is left of the earlier calls -/

section Replacing

variable (context : TaskContext) (request : HTTPRequestParser) (earlier : List StartCall)
  (last : StartCall) (len : Option Nat) (chunks : List Bytes)

/-- The call sets a status that allows a body, or no status. -/
def StartCall.HasBody (call : StartCall) : Prop :=
  call.Refused ∨
    ¬ ("1".toList <+: call.status ∨ "204".toList <+: call.status ∨ "304".toList <+: call.status)

/-- Neither a status nor a length is left of the earlier calls: the last call sets them, or they
have not been set, or they are not needed, or the only chunk has the length. -/
structure NoTrace : Prop where
  status : last.Refused → lastStatus earlier = "200 OK".toList
  length : last.length ≠ none ∨ lastLength earlier = none ∨ ¬ last.HasBody ∨
    len = some 1 ∧ ∃ chunk ∈ chunks.head?, lastLength earlier = some (chunk.length : Int)

variable {request earlier last}

theorem ready_replaced (status : Str) (length : Option Int) :
    Ready (replaced request last status length) := by
  have version : (replaced request last status length).version =
      if request.version ∈ ["1.0".toList, "1.1".toList] then request.version
      else "1.0".toList := rfl
  refine ⟨rfl, rfl, rfl, rfl, rfl, ?_⟩
  rw [version]
  split
  · next supported =>
      rcases List.mem_pair.mp supported with version | version
      · exact fun neither => neither.1 version
      · exact fun neither => neither.2 version
  · exact fun neither => neither.1 rfl

theorem hasBody_replaced (status : Str) (length : Option Int) (refused : ¬ last.Refused) :
    (replaced request last status length).hasBody = true ↔ last.HasBody := by
  have own : (replaced request last status length).status = last.status := if_neg refused
  rw [Task.hasBody, own, StartCall.HasBody, or_iff_right refused, Bool.not_eq_true',
    ← Bool.not_eq_true, Bool.or_eq_true, Bool.or_eq_true, List.isPrefixOf_iff_prefix,
    List.isPrefixOf_iff_prefix, List.isPrefixOf_iff_prefix, or_assoc]

variable {len chunks}

/-- A length that the first chunk gives anyway leaves no trace. -/
theorem deliver_congr {task other : Task} (same : task.sized len chunks = other.sized len chunks) :
    deliver context len chunks task = deliver context len chunks other := by
  have iterated : exec (iterateAll context len (.ofChunks chunks)) task =
      exec (iterateAll context len (.ofChunks chunks)) other := by
    rw [iterateAll, exec_bind, exec_bind, exec_iterate_first, exec_iterate_first, same]
  have ran : exec (do iterateAll context len (.ofChunks chunks); finish context) task =
      exec (do iterateAll context len (.ofChunks chunks); finish context) other := by
    rw [exec_bind, exec_bind, iterated]
  rw [deliver, deliver, serviceTask, exec_tryCatch, exec_tryCatch, ran]

theorem NoTrace.seen (noTrace : NoTrace earlier last len chunks) :
    (deliver context len chunks
        (replaced request last (lastStatus earlier) (lastLength earlier))).seen =
      (deliver context len chunks (replaced request last "200 OK".toList none)).seen := by
  have status : (replaced request last (lastStatus earlier) (lastLength earlier)) =
      replaced request last "200 OK".toList (lastLength earlier) := by
    rw [replaced, replaced, StartCall.respond, StartCall.respond]
    by_cases refused : last.Refused
    · rw [noTrace.status refused]
    · rw [if_neg refused, if_neg refused]
  rw [status]
  rcases noTrace.length with given | fresh | silent | ⟨single, chunk, first, same⟩
  · obtain ⟨length, given⟩ := Option.ne_none_iff_exists'.mp given
    rw [replaced, replaced, StartCall.respond, StartCall.respond, given]
    rfl
  · rw [fresh]
  · have refused : ¬ last.Refused := fun refused => silent (.inl refused)
    have noBody : (replaced request last "200 OK".toList (lastLength earlier)).hasBody = false :=
      eq_false_of_ne_true (mt (hasBody_replaced _ _ refused).mp silent)
    have noBody' : (replaced request last "200 OK".toList none).hasBody = false :=
      eq_false_of_ne_true (mt (hasBody_replaced _ _ refused).mp silent)
    have headers := @Task.headerBlock_firstWrite context _ noBody rfl rfl len chunks
    have headers' := @Task.headerBlock_firstWrite context _ noBody' rfl rfl len chunks
    have sized : ((replaced request last "200 OK".toList none).headerBlock context).responseHeaders =
        ((replaced request last "200 OK".toList (lastLength earlier)).headerBlock
          context).responseHeaders := Task.headerBlock_sized noBody rfl _
    have line := Task.status_firstWrite len chunks
    refine Answered.seen_of_noBody ((Task.hasBody_of_status (line _).1).trans noBody)
      (Ready.deliver (ready_replaced _ _) len chunks) (Ready.deliver (ready_replaced _ _) len chunks)
      ?_ ?_ ?_
    · rw [(line _).1, (line _).1]
      rfl
    · rw [(line _).2, (line _).2]
      rfl
    · rw [headers', headers, sized]
  · refine congrArg Task.seen (deliver_congr context ?_)
    cases chunks with
    | nil => cases first
    | cons chunk' chunks =>
        obtain rfl : chunk' = chunk := Option.some.inj first
        rw [Task.sized, Task.sized, replaced, replaced, StartCall.respond, StartCall.respond, same,
          single]
        cases last.length with
        | none => rfl
        | some length => rfl

/-- A block has the line of a length if it has the length. -/
theorem Task.lengthLine_mem_iff {task : Task} {value : Str} (plain : ':' ∉ value) :
    Task.headerLine ("Content-Length".toList, value) ∈
        (Task.sortedHeaders (task.headerBlock context).responseHeaders).map Task.headerLine ↔
      value ∈ Task.lengthValues (task.headerBlock context).responseHeaders := by
  have sorted : ∀ {header}, header ∈ Task.sortedHeaders (task.headerBlock context).responseHeaders ↔
      header ∈ (task.headerBlock context).responseHeaders := List.mem_insertionSort _
  rw [List.mem_map, Task.mem_lengthValues]
  constructor
  · rintro ⟨header, mem, same⟩
    obtain rfl := Task.headerLine_length plain same
    have isLength : Task.IsLength "Content-Length".toList := by decide
    exact ⟨_, sorted.mp mem, isLength, rfl⟩
  · rintro ⟨header, mem, isLength, rfl⟩
    have normal := Task.headerBlock_normal context task
    rw [← normal, List.mem_map] at mem
    obtain ⟨given, inside, rfl⟩ := mem
    have named : (Task.normalHeader given).1 = "Content-Length".toList :=
      (Task.headerName_eq_contentLength given.1).mpr ((Task.isLength_headerName given.1).mp isLength)
    refine ⟨Task.normalHeader given, sorted.mpr ?_, ?_⟩
    · rw [← normal]
      exact List.mem_map_of_mem inside
    · exact congrArg Task.headerLine (Prod.ext named rfl)

theorem colon_not_mem_intStr (n : Int) : ':' ∉ intStr n := by
  have natural : ∀ n, ':' ∉ natStr n := by
    intro n mem
    have digits := List.all_eq_true.mp (natStr_isDecimal n).2 ':' mem
    exact absurd digits (by decide)
  cases n with
  | ofNat n => exact natural n
  | negSucc n =>
      intro mem
      rcases List.mem_cons.mp mem with sign | digit
      · exact absurd sign (by decide)
      · exact natural _ digit

/-- Two answers that look the same have the same status and the same lengths. -/
theorem Answered.of_seen {task other first second : Task} (answered : Answered context task first)
    (answered' : Answered context other second) (version : task.version = other.version)
    (sent : second.sentHeaders ≠ none) (same : first.seen = second.seen) :
    task.status = other.status ∧ ∀ n : Int,
      intStr n ∈ Task.lengthValues (task.headerBlock context).responseHeaders ↔
        intStr n ∈ Task.lengthValues (other.headerBlock context).responseHeaders := by
  have block : ∀ {task after : Task}, Answered context task after → after.sentHeaders ≠ none →
      after.sentHeaders = some (task.headerBlock context).responseHeaders := by
    intro task after answered sent
    have headers := answered.sentHeaders
    rw [Task.blockHeaders] at headers
    split at headers
    · exact headers
    · exact absurd headers sent
  have lines := congrArg Prod.fst same
  simp only [Task.seen] at lines
  have sent' : first.sentHeaders ≠ none := by
    intro nothing
    rw [nothing, Option.map_none, eq_comm, Option.map_eq_none_iff] at lines
    exact sent lines
  rw [block answered sent', block answered' sent, Option.map_some, Option.map_some,
    Option.some.injEq] at lines
  obtain ⟨line, headers⟩ := List.cons.inj lines
  constructor
  · simp only [Task.statusLine] at line
    rw [answered.version, answered'.version, version] at line
    rw [← answered.status, ← answered'.status]
    exact List.append_cancel_left line
  · intro n
    have plain := colon_not_mem_intStr n
    rw [← Task.lengthLine_mem_iff context plain, ← Task.lengthLine_mem_iff context plain]
    dsimp only at headers
    rw [headers]

theorem NoTrace.of_seen
    (sent : (deliver context len chunks (replaced request last "200 OK".toList none)).sentHeaders ≠
      none)
    (same : (deliver context len chunks
        (replaced request last (lastStatus earlier) (lastLength earlier))).seen =
      (deliver context len chunks (replaced request last "200 OK".toList none)).seen) :
    NoTrace earlier last len chunks := by
  have line := Task.status_firstWrite len chunks
  have ready : ∀ status length, Ready (replaced request last status length) := ready_replaced
  have version : ∀ status length, (Task.firstWrite len chunks
      (replaced request last status length)).version = (Task.new request).version :=
    fun _ _ => (line _).2
  obtain ⟨statuses, lengths⟩ := ((ready _ _).deliver len chunks).of_seen context
    ((ready _ _).deliver len chunks) ((version _ _).trans (version _ _).symm) sent same
  rw [(line _).1, (line _).1] at statuses
  have unset : last.Refused → lastStatus earlier = "200 OK".toList := by
    intro refused
    have own : ∀ status length, (replaced request last status length).status = status :=
      fun _ _ => if_pos refused
    rwa [own, own] at statuses
  refine ⟨unset, ?_⟩
  by_contra trace
  simp only [not_or, not_not, not_and, not_exists] at trace
  obtain ⟨none, given, body, single⟩ := trace
  obtain ⟨length, given⟩ := Option.ne_none_iff_exists'.mp given
  have body' : (replaced request last "200 OK".toList Option.none).hasBody = true := by
    by_cases refused : last.Refused
    · exact @Task.hasBody_of_status (Task.new request) _ (if_pos refused)
    · exact (hasBody_replaced _ _ refused).mpr body
  have body : (replaced request last (lastStatus earlier) (lastLength earlier)).hasBody = true :=
    (Task.hasBody_of_status statuses).trans body'
  have unnamed := StartCall.lengthValues_kept none
  have found := (lengths length).mp
  rw [Task.lengthValues_firstWrite body unnamed, Task.lengthValues_firstWrite body' unnamed,
    Option.mem_toList, Option.mem_toList] at found
  have announced : (replaced request last (lastStatus earlier) (lastLength earlier)).contentLength =
      some length := by
    rw [replaced, StartCall.respond, none, given]
    rfl
  have unset' : (replaced request last "200 OK".toList Option.none).contentLength = Option.none := by
    rw [replaced, StartCall.respond, none]
    rfl
  -- The abandoned length is in the first block, so the second one must have it from the chunk.
  cases chunks with
  | nil =>
      simp only [Task.sized] at found
      rw [announced, unset'] at found
      exact absurd (found rfl) (by simp)
  | cons chunk chunks =>
      rw [Task.sized, if_neg (by rw [announced]; exact fun both => by cases both.1), announced,
        Task.sized, unset'] at found
      by_cases only : len = some 1
      · rw [if_pos ⟨rfl, only⟩] at found
        have same := intStr_injective (Option.some.inj (found rfl))
        exact single only chunk rfl (by rw [given, ← same])
      · rw [if_neg fun both => only both.2, unset'] at found
        exact absurd (found rfl) (by simp)

/-- **Nothing is left of a replaced response if and only if its status was set again and its length
was given again, or not needed.** -/
theorem startResponse_replaced (replaces : Replaces (earlier ++ [last])) :
    (NoTrace earlier last len chunks →
      (served context request (earlier ++ [last]) len chunks).seen =
        (served context request [last] len chunks).seen) ∧
    ((served context request [last] len chunks).sentHeaders ≠ none →
      (served context request (earlier ++ [last]) len chunks).seen =
        (served context request [last] len chunks).seen → NoTrace earlier last len chunks) := by
  have alone : Replaces ([] ++ [last]) := fun call mem => absurd mem List.not_mem_nil
  have only := @served_eq_deliver context request [] last alone len chunks
  rw [served_eq_deliver replaces]
  change served context request [last] len chunks = _ at only
  rw [only]
  exact ⟨fun noTrace => noTrace.seen context, fun sent same => NoTrace.of_seen context sent same⟩

end Replacing

/-! ### An error page -/

def abandonedCall : StartCall :=
  { status := "200 OK".toList, headers := [("Content-Length".toList, "5".toList)] }

def errorCall : StartCall :=
  { status := "500 Internal Server Error".toList, headers := [], excInfo := some .valueError }

def errorPage : List Bytes := [ascii "Internal ", ascii "Error"]

/-- The page is cut off behind the length of the abandoned response. -/
theorem startResponse_leaves_length :
    ¬ ∀ (context : TaskContext) (request : HTTPRequestParser) (earlier : List StartCall)
      (last : StartCall) (len : Option Nat) (chunks : List Bytes),
      Replaces (earlier ++ [last]) →
        (served context request (earlier ++ [last]) len chunks).seen =
          (served context request [last] len chunks).seen := by
  intro claim
  have same := claim { date := [] } { version := "1.1".toList } [abandonedCall] errorCall none errorPage
    (by decide)
  exact absurd (congrArg (fun seen => seen.2.1) same) (by decide +kernel)

theorem startResponse_replaced_sample :
    (served { date := [] } { version := "1.1".toList } [abandonedCall, errorCall] (some 1)
        [ascii "Error"]).seen =
      (served { date := [] } { version := "1.1".toList } [errorCall] (some 1) [ascii "Error"]).seen :=
  (@startResponse_replaced { date := [] } { version := "1.1".toList } [abandonedCall] errorCall
    (some 1) [ascii "Error"] (by decide)).1
    ⟨by decide, .inr (.inr (.inr ⟨rfl, ascii "Error", rfl, by decide⟩))⟩

end Waitress
