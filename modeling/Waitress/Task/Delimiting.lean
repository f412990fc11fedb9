import Waitress.Task.Header

/-!
# Delimited responses

While the connection is to stay open, the header block has not been written, or
it announced the length and no more than that was written behind it.
-/

namespace Waitress

open Raising

namespace Task

def LengthGiven (headers : List (Str × Str)) : Prop :=
  (lengthValues headers).length ≤ 1 ∧ ∀ value ∈ lengthValues headers, IsDecimal value

/-- If the headers give a length, the task knows it. -/
def LengthKnown (headers : List (Str × Str)) (contentLength : Option Int) : Prop :=
  lengthValues headers = [] ∨
    ∃ value, lengthValues headers = [value] ∧ IsDecimal value ∧
      contentLength = some (decimalValue value : Int)

structure Pending (request : HTTPRequestParser) (task : Task) : Prop where
  request_eq : task.request = request
  wroteHeader : task.wroteHeader = false
  started : task.complete = false → task.responseHeaders = []
  length : LengthKnown task.responseHeaders task.contentLength
  nonneg : ∀ cl ∈ task.contentLength, 0 ≤ cl
  written : task.contentBytesWritten = 0
  silent : task.sentBody = []
  chunked : task.chunkedResponse = false

/-- The header block announced the length of the body. -/
structure Sent (request : HTTPRequestParser) (task : Task) : Prop where
  request_eq : task.request = request
  wroteHeader : task.wroteHeader = true
  complete : task.complete = true
  body : task.hasBody = true
  chunked : task.chunkedResponse = false
  announced : ∃ headers value, task.sentHeaders = some headers ∧ lengthValues headers = [value] ∧
    IsDecimal value ∧ task.contentLength = some (decimalValue value : Int)
  written : task.contentBytesWritten = task.sentBody.length
  bounded : ∀ cl ∈ task.contentLength, task.contentBytesWritten ≤ cl

/-- While the connection is to stay open, the response is delimited. -/
def Open (request : HTTPRequestParser) (task : Task) : Prop :=
  task.closeOnFinish = false → Pending request task ∨ Sent request task

variable {request : HTTPRequestParser} {task : Task}

theorem Pending.normalize (pending : Pending request task) (complete : task.complete = true) :
    Pending request task.normalizeHeaders where
  request_eq := pending.request_eq
  wroteHeader := pending.wroteHeader
  started unstarted := absurd (complete.symm.trans unstarted) Bool.noConfusion
  length := by
    rw [LengthKnown, lengthValues_normalizeHeaders]
    split
    · exact pending.length
    · exact .inl rfl
  nonneg := pending.nonneg
  written := pending.written
  silent := pending.silent
  chunked := pending.chunked

theorem Pending.assemble (pending : Pending request task) (complete : task.complete = true) :
    Pending request task.normalizeHeaders.addContentLength := by
  have normal := pending.normalize complete
  rw [addContentLength, lastValue_normalizeHeaders]
  split
  · next condition =>
      have missing := List.getLast?_eq_none_iff.mp condition.1
      cases known : task.normalizeHeaders.contentLength with
      | none => exact normal
      | some cl =>
          obtain ⟨n, rfl⟩ := Int.eq_ofNat_of_zero_le (normal.nonneg cl known)
          refine { normal with started := fun unstarted => ?_, length := .inr ⟨natStr n, ?_, ?_, ?_⟩ }
          · exact absurd (complete.symm.trans unstarted) Bool.noConfusion
          · change lengthValues (task.normalizeHeaders.responseHeaders ++ [_]) = _
            rw [lengthValues_append, missing]
            rfl
          · exact natStr_isDecimal n
          · rw [decimalValue_natStr]
            exact known
  · exact normal

/-- An announced length stands in the block of a response with a body. -/
theorem announced_spec (announced : falsy task.normalizeHeaders.contentLengthHeader = false) :
    task.hasBody = true ∧
      lengthValues task.normalizeHeaders.addContentLength.responseHeaders ≠ [] := by
  have values := lengthValues_normalizeHeaders task
  have body : task.normalizeHeaders.hasBody = task.hasBody := rfl
  rw [contentLengthHeader, lastValue_normalizeHeaders, body] at announced
  rw [addContentLength, lastValue_normalizeHeaders, body]
  cases hasBody : task.hasBody with
  | false =>
      rw [hasBody, if_neg (by decide)] at values
      rw [hasBody, values] at announced
      exact Bool.noConfusion (show true = false from announced)
  | true =>
      refine ⟨rfl, ?_⟩
      by_cases missing : lengthValues task.normalizeHeaders.responseHeaders = []
      · rw [missing, hasBody] at announced
        rw [missing, if_pos ⟨rfl, rfl⟩]
        cases known : task.normalizeHeaders.contentLength with
        | none =>
            rw [known] at announced
            exact Bool.noConfusion (show true = false from announced)
        | some cl =>
            dsimp only
            rw [addHeader, lengthValues_append]
            exact List.append_ne_nil_of_right_ne_nil _ (List.cons_ne_nil _ _)
      · rw [if_neg (by simp [missing])]
        exact missing

theorem Pending.headerBlock {context : TaskContext} (pending : Pending request task)
    (complete : task.complete = true)
    (stays : (task.headerBlock context).closeOnFinish = false) :
    Pending request (task.headerBlock context) ∧ (task.headerBlock context).hasBody = true ∧
      (task.headerBlock context).complete = true ∧
      ∃ value, lengthValues (task.headerBlock context).responseHeaders = [value] ∧
        IsDecimal value ∧ (task.headerBlock context).contentLength = some (decimalValue value : Int) := by
  have values := lengthValues_headerBlock context task
  obtain ⟨-, announced, chunked⟩ := headerBlock_open context stays
  obtain ⟨body, given⟩ := announced_spec announced
  have assembled := pending.assemble complete
  have frame := frame_headerBlock context task
  have sameLength : (task.headerBlock context).contentLength = task.contentLength :=
    (congrArg Task.contentLength frame :)
  have sameAssembled :
      task.normalizeHeaders.addContentLength.contentLength = task.contentLength :=
    (congrArg Task.contentLength (frame_addContentLength task.normalizeHeaders) :)
  have length := assembled.length
  rw [sameAssembled, LengthKnown, ← values, ← sameLength] at length
  rw [← values] at given
  have completed : (task.headerBlock context).complete = true :=
    (congrArg Task.complete frame :).trans complete
  refine ⟨?_, (congrArg Task.hasBody frame :).trans body, completed, length.resolve_left given⟩
  exact
    { request_eq := (congrArg Task.request frame :).trans pending.request_eq
      wroteHeader := (congrArg Task.wroteHeader frame :).trans pending.wroteHeader
      started := fun unstarted => absurd (completed.symm.trans unstarted) Bool.noConfusion
      length
      nonneg := sameLength ▸ pending.nonneg
      written := (congrArg Task.contentBytesWritten frame :).trans pending.written
      silent := (congrArg Task.sentBody frame :).trans pending.silent
      chunked := chunked.trans pending.chunked }

/-! ### Starting the response -/

structure Checked (headers : List (Str × Str)) (task : Task) (ended : Except Exc Unit)
    (contentLength : Option Int) : Prop where
  nonneg : contentLength = task.contentLength ∨ ∃ n : Nat, contentLength = some (n : Int)
  none : lengthValues headers = [] → contentLength = task.contentLength
  one : ended = .ok () → ∀ value, lengthValues headers = [value] →
    contentLength = some (decimalValue value : Int)

theorem exec_checkHeader {header : Str × Str} (decimal : IsLength header.1 → IsDecimal header.2)
    (task : Task) :
    ∃ cl, (exec (checkHeader header) task).2 = { task with contentLength := cl } ∧
      Checked [header] task (exec (checkHeader header) task).1 cl := by
  have same : ∀ exc, Checked [header] task (.error exc) task.contentLength := fun exc =>
    { nonneg := .inl rfl
      none := fun _ => rfl
      one := fun contrary => by injection contrary }
  rw [checkHeader]
  split
  · exact ⟨task.contentLength, rfl, same _⟩
  split
  · exact ⟨task.contentLength, rfl, same _⟩
  split
  · next named =>
      change IsLength header.1 at named
      rw [exec_bind, exec_ofExcept, (decimal named).intOfStr]
      by_cases short : header.2.length ≤ intMaxStrDigits
      · rw [if_pos short]
        refine ⟨some (decimalValue header.2 : Int), rfl, .inr ⟨_, rfl⟩, fun missing => ?_, ?_⟩
        · rw [lengthValues_cons, if_pos named] at missing
          exact absurd missing (List.cons_ne_nil _ _)
        · intro _ value given
          rw [lengthValues_cons, if_pos named, lengthValues_nil, List.cons.injEq] at given
          rw [given.1]
      · rw [if_neg short]
        exact ⟨task.contentLength, rfl, same _⟩
  · next other =>
      have unnamed : lengthValues [header] = [] := by
        rw [lengthValues_cons, if_neg (show ¬ IsLength header.1 from other), lengthValues_nil]
      refine ⟨task.contentLength, ?_, .inl rfl, fun _ => rfl, fun _ value given => ?_⟩
      · split
        · rfl
        · rfl
      · rw [unnamed] at given
        exact absurd given.symm (List.cons_ne_nil _ _)

theorem exec_checkHeaders {headers : List (Str × Str)}
    (decimal : ∀ value ∈ lengthValues headers, IsDecimal value) (task : Task) :
    ∃ cl, (exec (forM headers checkHeader) task).2 = { task with contentLength := cl } ∧
      Checked headers task (exec (forM headers checkHeader) task).1 cl := by
  induction headers generalizing task with
  | nil =>
      refine ⟨task.contentLength, rfl, .inl rfl, fun _ => rfl, fun _ value given => ?_⟩
      exact absurd given.symm (List.cons_ne_nil _ _)
  | cons header headers inductionHypothesis =>
      rw [lengthValues_cons] at decimal
      have first : IsLength header.1 → IsDecimal header.2 := fun named =>
        decimal header.2 (by rw [if_pos named]; exact List.mem_cons_self ..)
      have rest : ∀ value ∈ lengthValues headers, IsDecimal value := fun value mem =>
        decimal value (by split; exacts [List.mem_cons_of_mem _ mem, mem])
      obtain ⟨cl, after, checked⟩ := exec_checkHeader first task
      rw [List.forM_cons, exec_bind]
      rcases ended : exec (checkHeader header) task with ⟨exc | ⟨⟩, middle⟩
      · rw [ended] at after checked
        refine ⟨cl, after, checked.nonneg, fun none => checked.none ?_, fun contrary => by
          injection contrary⟩
        rw [lengthValues_cons] at none ⊢
        split at none
        · exact absurd none (List.cons_ne_nil _ _)
        · next other => rw [if_neg other, lengthValues_nil]
      · rw [ended] at after checked
        obtain ⟨last, final, later⟩ := inductionHypothesis rest middle
        have middle_eq : middle = { task with contentLength := cl } := after
        dsimp only
        refine ⟨last, ?_, ?_, ?_, ?_⟩
        · rw [final, middle_eq]
        · rcases later.nonneg with same | some
          · rw [same, middle_eq]
            exact checked.nonneg
          · exact .inr some
        · intro none
          rw [lengthValues_cons] at none
          split at none
          · exact absurd none (List.cons_ne_nil _ _)
          · next other =>
              rw [later.none none, middle_eq]
              exact checked.none (by rw [lengthValues_cons, if_neg other, lengthValues_nil])
        · intro ok value given
          rw [lengthValues_cons] at given
          split at given
          · next named =>
              obtain ⟨rfl, none⟩ := List.cons.inj given
              rw [later.none none, middle_eq]
              refine checked.one rfl _ ?_
              rw [lengthValues_cons, if_pos named, lengthValues_nil]
          · exact later.one ok value given

theorem Pending.setResponse (pending : Pending request task) (blank : task.responseHeaders = [])
    {headers : List (Str × Str)} (given : LengthGiven headers) (status : Str) :
    Pending request (exec (setResponse status headers) task).2 := by
  have complete : Pending request { task with complete := true } :=
    { pending with started := fun _ => blank }
  rw [Waitress.setResponse, exec_modify_bind]
  split
  · exact complete
  rw [exec_modify_bind, exec_bind]
  obtain ⟨cl, after, checked⟩ :=
    exec_checkHeaders given.2 { task with complete := true, status }
  have nonneg : ∀ value ∈ cl, 0 ≤ value := by
    intro value mem
    rcases checked.nonneg with same | ⟨n, rfl⟩
    · exact pending.nonneg value (same ▸ mem)
    · obtain rfl := Option.some.inj mem
      exact Int.natCast_nonneg n
  rcases ended : exec (forM headers checkHeader) { task with complete := true, status } with
    ⟨exc | ⟨⟩, middle⟩
  · rw [ended] at after
    have middle_eq : middle = { task with complete := true, status, contentLength := cl } := after
    dsimp only
    rw [middle_eq]
    exact { complete with length := .inl (by rw [blank]; rfl), nonneg }
  · rw [ended] at after checked
    have middle_eq : middle = { task with complete := true, status, contentLength := cl } := after
    dsimp only
    rw [exec_modify, middle_eq]
    refine { complete with started := Bool.noConfusion, length := ?_, nonneg }
    dsimp only
    rw [blank, List.nil_append]
    rcases values : lengthValues headers with _ | ⟨value, _ | ⟨second, rest⟩⟩
    · exact .inl values
    · refine .inr ⟨value, values, given.2 value ?_, checked.one rfl value values⟩
      rw [values]
      exact List.mem_cons_self ..
    · have few := given.1
      rw [values, List.length_cons, List.length_cons] at few
      omega

theorem startResponse_open (request : HTTPRequestParser) {headers : List (Str × Str)}
    (given : LengthGiven headers) (status : Str) (excInfo : Option Exc) :
    Within (Keeps (Open request)) (startResponse status headers excInfo) := by
  intro task before stays
  have same := within_startResponse (SameView Task.closeOnFinish)
    (fun _ _ _ _ _ => rfl) status headers excInfo task
  have state := before (same.trans stays)
  rw [startResponse, exec_get_bind]
  cases excInfo with
  | none =>
      dsimp only
      split
      · exact state
      · next unstarted =>
          rcases state with pending | sent
          · have blank := pending.started (Bool.eq_false_iff.mpr unstarted)
            exact .inl (pending.setResponse blank given status)
          · exact absurd sent.complete unstarted
  | some exc =>
      dsimp only
      split
      · exact state
      · next unwritten =>
          rcases state with pending | sent
          · have cleared : Pending request { task with responseHeaders := [] } :=
              { pending with started := fun _ => rfl, length := .inl rfl }
            exact .inl (cleared.setResponse rfl given status)
          · exact absurd sent.wroteHeader unwritten

/-! ### Writing -/

variable {context : TaskContext}

/-- What a write leaves of a response on a connection that stays open. -/
structure Follows (request : HTTPRequestParser) (before after : Task) : Prop where
  state : Pending request after ∨ Sent request after
  length : after.contentLength = before.contentLength
  full : before.contentLength = some before.contentBytesWritten →
    after.contentBytesWritten = before.contentBytesWritten

theorem exec_writeData (context : TaskContext) (sent : Sent request task) (cl : Int)
    (known : task.contentLength = some cl)
    (data : Bytes) :
    ∃ calls, (exec (writeData context data) task).2 =
      { task with
        calls
        contentBytesWritten :=
          task.contentBytesWritten + (data.take (cl - task.contentBytesWritten).toNat).length
        sentBody := task.sentBody ++ data.take (cl - task.contentBytesWritten).toNat } := by
  have room : ¬ cl - task.contentBytesWritten < 0 := by
    have bounded := sent.bounded cl known
    omega
  rw [writeData, exec_get_bind]
  split
  · next empty =>
      subst empty
      refine ⟨task.calls, ?_⟩
      simp
  rw [if_pos sent.body, if_neg (by rw [sent.chunked]; exact Bool.noConfusion), known]
  dsimp only
  rw [exec_modify_bind, Bytes.sliceTo, if_neg room]
  split
  · next empty =>
      refine ⟨task.calls, ?_⟩
      rw [empty, exec_pure, List.append_nil, ← known]
  · refine ⟨task.calls + 1, ?_⟩
    rw [writeSoon, exec_get_bind, exec_modify_bind, ← known]
    dsimp only
    cases context.transport task.calls with
    | none => rfl
    | some exc => rfl

theorem Sent.writeData (sent : Sent request task) (data : Bytes) :
    Follows request task (exec (writeData context data) task).2 := by
  obtain ⟨headers, value, block, given, decimal, known⟩ := sent.announced
  obtain ⟨calls, after⟩ := exec_writeData context sent _ known data
  have bounded := sent.bounded _ known
  have taken := List.length_take_le (decimalValue value - task.contentBytesWritten : Int).toNat data
  rw [after]
  refine ⟨.inr { sent with
    announced := ⟨headers, value, block, given, decimal, known⟩
    written := ?_
    bounded := ?_ }, rfl, fun full => ?_⟩
  · dsimp only
    rw [sent.written, List.length_append, Nat.cast_add]
  · intro cl mem
    obtain rfl := Option.some.inj (known.symm.trans mem)
    dsimp only
    omega
  · obtain filled := Option.some.inj (known.symm.trans full)
    dsimp only
    omega

theorem Pending.send (pending : Pending request task) (body : task.hasBody = true)
    (complete : task.complete = true) {value : Str}
    (given : lengthValues task.responseHeaders = [value]) (decimal : IsDecimal value)
    (known : task.contentLength = some (decimalValue value : Int)) :
    Sent request { task.sendHeader with wroteHeader := true } where
  request_eq := pending.request_eq
  wroteHeader := rfl
  complete := complete
  body := body
  chunked := pending.chunked
  announced := ⟨task.responseHeaders, value, rfl, given, decimal, known⟩
  written := pending.written
  bounded cl mem := by
    change task.contentBytesWritten ≤ cl
    rw [pending.written]
    exact pending.nonneg cl mem

theorem Follows.trans {first second third : Task} (before : Follows request first second)
    (after : Follows request second third) : Follows request first third where
  state := after.state
  length := after.length.trans before.length
  full filled := by
    have kept := before.full filled
    rw [← kept]
    refine after.full ?_
    rw [before.length, kept]
    exact filled

theorem Pending.write (pending : Pending request task) (complete : task.complete = true)
    {data : Bytes} (stays : (exec (write context data) task).2.closeOnFinish = false) :
    Follows request task (exec (write context data) task).2 := by
  rw [Waitress.write, exec_get_bind, if_neg (by rw [complete]; exact Bool.noConfusion),
    exec_bind] at stays ⊢
  have frame := frame_headerBlock context task
  have length : (task.headerBlock context).contentLength = task.contentLength :=
    (congrArg Task.contentLength frame :)
  have written : (task.headerBlock context).contentBytesWritten = task.contentBytesWritten :=
    (congrArg Task.contentBytesWritten frame :)
  rcases exec_writeHeader context task pending.wroteHeader with ⟨exc, outcome⟩ | ⟨exc, outcome⟩ |
    ⟨exc, outcome⟩ | outcome <;> rw [outcome] at stays ⊢
  · have assembled := frame_addContentLength task.normalizeHeaders
    exact
      { state := .inl (pending.assemble complete)
        length := (congrArg Task.contentLength assembled :)
        full := fun _ => (congrArg Task.contentBytesWritten assembled :) }
  · exact ⟨.inl (pending.headerBlock complete stays).1, length, fun _ => written⟩
  · have block := (pending.headerBlock complete stays).1
    exact ⟨.inl { block with silent := rfl }, length, fun _ => written⟩
  · have same := within_writeData context (SameView Task.closeOnFinish)
      (fun _ _ _ _ _ => rfl) data { (task.headerBlock context).sendHeader with wroteHeader := true }
    obtain ⟨block, body, completed, value, given, decimal, known⟩ :=
      pending.headerBlock complete (same.trans stays)
    have sent := block.send body completed given decimal known
    have first : Follows request task
        { (task.headerBlock context).sendHeader with wroteHeader := true } :=
      ⟨.inr sent, length, fun _ => written⟩
    exact first.trans (sent.writeData data)

/-- What every write does to a response on a connection that stays open. -/
theorem write_follows (before : Open request task) {data : Bytes}
    (stays : (exec (write context data) task).2.closeOnFinish = false) :
    Follows request task (exec (write context data) task).2 := by
  have state := before (still_of_write context stays)
  by_cases complete : task.complete = true
  · rcases state with pending | sent
    · exact pending.write complete stays
    · rw [Waitress.write, exec_get_bind, if_neg (by rw [complete]; exact Bool.noConfusion),
        exec_bind, exec_writeHeader_again context task sent.wroteHeader]
      exact sent.writeData data
  · rw [Waitress.write, exec_get_bind, if_pos (Bool.eq_false_iff.mpr complete), exec_throw]
    exact ⟨state, rfl, fun _ => rfl⟩

theorem write_open (request : HTTPRequestParser) (data : Bytes) :
    Within (Keeps (Open request)) (write context data) :=
  fun _ before stays => (write_follows before stays).state

/-! ### The whole response -/

def Settled (request : HTTPRequestParser) (task : Task) : Prop :=
  task.closeOnFinish = false →
    (Pending request task ∨ Sent request task) ∧
      (request.command = some "HEAD".toList ∨ task.contentLength = none ∨
        task.contentLength = some task.contentBytesWritten)

theorem write_settled (request : HTTPRequestParser) (data : Bytes) :
    Within (Keeps (Settled request)) (write context data) := by
  intro task before stays
  obtain ⟨state, full⟩ := before (still_of_write context stays)
  have follows := write_follows (fun _ => state) stays
  refine ⟨follows.state, ?_⟩
  rw [follows.length]
  rcases full with head | none | full
  · exact .inl head
  · exact .inr (.inl none)
  · rw [follows.full full]
    exact .inr (.inr full)

theorem firstChunk_open (request : HTTPRequestParser) (len : Option Nat) (chunk : Bytes) :
    Within (Keeps (Open request)) (firstChunk len chunk) := by
  refine within_get_bind fun task before => ?_
  split
  · next unknown =>
      intro stays
      rcases before stays with pending | sent
      · refine .inl { pending with length := ?_, nonneg := ?_ }
        · rcases pending.length with none | ⟨value, -, -, known⟩
          · exact .inl none
          · exact absurd (unknown.1.symm.trans known) (by simp)
        · intro cl mem
          obtain rfl := Option.some.inj mem
          exact Int.natCast_nonneg _
      · obtain ⟨-, value, -, -, -, known⟩ := sent.announced
        exact absurd (unknown.1.symm.trans known) (by simp)
  · exact before

theorem checkLength_settled (request : HTTPRequestParser) (before : Open request task) :
    Settled request (exec checkLength task).2 := by
  rw [checkLength, exec_get_bind]
  cases known : task.contentLength with
  | none =>
      intro stays
      exact ⟨before stays, .inr (.inl known)⟩
  | some cl =>
      dsimp only
      split
      · intro contrary
        exact Bool.noConfusion contrary
      · next short =>
          intro stays
          have state := before stays
          have same : task.request = request := by
            rcases state with pending | sent
            · exact pending.request_eq
            · exact sent.request_eq
          refine ⟨state, ?_⟩
          by_cases head : request.command = some "HEAD".toList
          · exact .inl head
          · rw [same] at short
            have full : task.contentBytesWritten = cl :=
              Decidable.not_not.mp fun differs => short ⟨differs, head⟩
            exact .inr (.inr (known.trans (congrArg some full.symm)))

theorem iterateAll_settled (request : HTTPRequestParser) (len : Option Nat) {iterator : Iterator}
    (announces : iterator.Uses LengthGiven fun _ => True) (before : Open request task) {after : Task}
    (finished : exec (iterateAll context len iterator) task = (.ok (), after)) :
    Settled request after := by
  obtain ⟨⟨⟩, middle, iterated, checked⟩ := exec_bind_ok finished
  have iterating : Within (Keeps (Open request)) (iterate context len true iterator) :=
    within_iterate (fun status headers excInfo given => startResponse_open request given status
      excInfo) (fun data _ => write_open request data) (firstChunk_open request len) announces true
  have kept := iterating task before
  rw [iterated] at kept
  have settled := checkLength_settled request kept
  rw [checked] at settled
  exact settled

theorem closing_settled (request : HTTPRequestParser) {action : TaskM Unit}
    {close : Option (Call Unit)}
    (quiet : ∀ call ∈ close, call.Uses (fun _ => False) (fun _ => True) fun _ => True)
    (settles : ∀ after, exec action task = (.ok (), after) → Settled request after) {after : Task}
    (finished : exec (closing context action close) task = (.ok (), after)) :
    Settled request after := by
  cases close with
  | none => exact settles after finished
  | some close =>
      obtain ⟨outcome, middle, attempted, rest⟩ := exec_bind_ok finished
      obtain ⟨⟨⟩, closed, ran, final⟩ := exec_bind_ok rest
      cases outcome with
      | some exc => exact absurd (congrArg Prod.fst final) (by simp)
      | none =>
          have running : Within (Keeps (Settled request)) (close.run context) :=
            Call.within_run (fun _ _ _ contrary => contrary.elim)
              (fun data _ => write_settled request data) (quiet close rfl)
          have kept := running middle (settles middle (attempt_eq_none attempted))
          rw [ran] at kept
          rw [← (Prod.mk.inj final).2]
          exact kept

/-- The body is the one that the header block announced. -/
structure Delimited (task : Task) : Prop where
  body : task.hasBody = true
  chunked : task.chunkedResponse = false
  announced : ∃ headers value, task.sentHeaders = some headers ∧ lengthValues headers = [value] ∧
    IsDecimal value ∧ task.sentBody.length ≤ decimalValue value ∧
    (task.request.command ≠ some "HEAD".toList → task.sentBody.length = decimalValue value)

theorem Sent.delimited (sent : Sent request task)
    (full : request.command = some "HEAD".toList ∨ task.contentLength = none ∨
      task.contentLength = some task.contentBytesWritten) : Delimited task := by
  obtain ⟨headers, value, block, given, decimal, known⟩ := sent.announced
  have bounded := sent.bounded _ known
  have written := sent.written
  refine ⟨sent.body, sent.chunked, headers, value, block, given, decimal, by omega, fun other => ?_⟩
  rw [sent.request_eq] at other
  rcases full with head | none | full
  · exact absurd head other
  · exact absurd (none.symm.trans known) (by simp)
  · have filled := Option.some.inj (known.symm.trans full)
    omega

theorem Pending.setFileLength (pending : Pending request task) {size : Int} (nonneg : 0 ≤ size) :
    Pending request (task.setFileLength size) := by
  rw [Task.setFileLength]
  split
  · have kept : ∀ cl ∈ some size, 0 ≤ cl := fun cl mem => Option.some.inj mem ▸ nonneg
    split
    · next unknown =>
        have length := pending.length
        rw [LengthKnown, unknown] at length
        exact { pending with
          nonneg := kept
          length := .inl (length.resolve_right fun ⟨_, _, _, contrary⟩ => by
            exact Option.noConfusion rfl (heq_of_eq contrary)) }
    · exact { pending with
        started := fun unstarted => by
          change task.responseHeaders.filter _ = []
          rw [pending.started unstarted]
          rfl
        nonneg := kept
        length := .inl (lengthValues_removeContentLengthHeader task) }
  · exact pending

theorem contentLength_setFileLength (task : Task) (size : Int) :
    (task.setFileLength size).contentLength = some size := by
  rw [setFileLength]
  split
  · rfl
  · next same => exact Decidable.not_not.mp same

theorem closeOnFinish_setFileLength (task : Task) (size : Int) :
    (task.setFileLength size).closeOnFinish = task.closeOnFinish := by
  rw [setFileLength]
  split
  · split
    · rfl
    · rfl
  · rfl

/-- The size of a file is the size of what is sent of it. -/
theorem prepare_length {wrapper : FileWrapper} {size : Option Int}
    (nonzero : wrapper.prepare size ≠ 0) (nonneg : 0 ≤ wrapper.prepare size) :
    (((wrapper.file.data.drop wrapper.file.pos).take (wrapper.prepare size).toNat).length : Int) =
      wrapper.prepare size := by
  have bounded : wrapper.prepare size ≤ (wrapper.file.data.length : Int) - wrapper.file.pos := by
    by_cases seekable : wrapper.seekable = true
    · simp only [FileWrapper.prepare]
      rw [if_pos seekable]
      cases size with
      | none => exact le_refl _
      | some size => exact min_le_left _ _
    · simp only [FileWrapper.prepare] at nonzero
      rw [if_neg seekable] at nonzero
      exact absurd rfl nonzero
  rw [List.length_take, List.length_drop]
  omega

/-- The file is as long as the header block announced. -/
theorem writeFile_delimited (before : Open request task) (unwritten : task.wroteHeader = false)
    (wrapper : FileWrapper) {after : Task}
    (finished : exec (writeFile context wrapper (wrapper.prepare task.contentLength)) task =
      (.ok (), after)) (nonzero : wrapper.prepare task.contentLength ≠ 0)
    (stays : after.closeOnFinish = false) :
    after.wroteHeader = true ∧ Delimited after := by
  have length := prepare_length nonzero
  generalize wrapper.prepare task.contentLength = size at finished length nonzero
  rw [writeFile, exec_modify_bind] at finished
  obtain ⟨⟨⟩, middle, wrote, rest⟩ := exec_bind_ok finished
  split at rest
  · exact absurd (congrArg Prod.fst rest) (by simp)
  next nonneg =>
    obtain rfl := writeSoon_ok rest
    have nonneg := Int.not_lt.mp nonneg
    have opened : (exec (write context []) (task.setFileLength size)).2.closeOnFinish = false := by
      rw [wrote]
      exact stays
    have still := still_of_write context opened
    rw [closeOnFinish_setFileLength] at still
    have pending := (before still).resolve_right fun sent =>
      Bool.noConfusion (unwritten.symm.trans sent.wroteHeader)
    have resized := pending.setFileLength nonneg
    have follows := write_follows (fun _ => .inl resized) opened
    have silent := write_silent context _ resized.silent
    rw [wrote] at follows silent
    have sent := follows.state.resolve_left fun pending =>
      Bool.noConfusion (pending.wroteHeader.symm.trans (wroteHeader_of_write context wrote))
    obtain ⟨headers, value, block, given, decimal, known⟩ := sent.announced
    rw [follows.length, contentLength_setFileLength] at known
    have whole := length nonneg
    rw [Option.some.inj known] at whole nonneg ⊢
    refine ⟨sent.wroteHeader, sent.body, sent.chunked, headers, value, block, given, decimal, ?_⟩
    dsimp only
    rw [silent, List.nil_append]
    have exact_ := Int.ofNat.inj whole
    exact ⟨le_of_eq exact_, fun _ => exact_⟩

theorem respond_delimited (before : Open request task) {appIter : AppIter}
    (announces : appIter.Uses LengthGiven (fun _ => True) fun _ => True)
    (unwritten : ∀ wrapper, appIter = .fileWrapper wrapper →
      wrapper.prepare task.contentLength ≠ 0 → task.wroteHeader = false) {after : Task}
    (finished : exec (respond context appIter) task = (.ok (), after)) :
    Settled request after ∨
      (after.closeOnFinish = false → after.wroteHeader = true ∧ Delimited after) := by
  cases appIter with
  | iterable len iterator close =>
      refine .inl (closing_settled request announces.2 (fun middle settles => ?_) finished)
      exact iterateAll_settled request len announces.1 before settles
  | fileWrapper wrapper =>
      rw [respond, exec_get_bind] at finished
      dsimp only at finished
      split at finished
      · next nonzero =>
          refine .inr fun stays => ?_
          exact writeFile_delimited before (unwritten wrapper rfl nonzero) wrapper finished
            nonzero stays
      · refine .inl (iterateAll_settled request (some 0) ?_ before finished)
        exact FileWrapper.blocks_uses (fun _ => trivial) _ _ _

theorem finish_delimited {after : Task} (before : Settled request task ∨
      (task.closeOnFinish = false → task.wroteHeader = true ∧ Delimited task))
    (finished : exec (finish context) task = (.ok (), after))
    (stays : after.closeOnFinish = false) : Delimited after := by
  obtain ⟨middle, header, same, -, done⟩ := finish_eq context finished
  have opened := same.symm.trans stays
  rcases before with settled | file
  · have settledMiddle : Settled request middle := by
      rcases header with ⟨-, rfl⟩ | ⟨-, wrote⟩
      · exact settled
      · have writing : Within (Keeps (Settled request)) (write context []) :=
          write_settled request []
        have kept := writing task settled
        rw [wrote] at kept
        exact kept
    have wroteHeader : middle.wroteHeader = true := by
      rcases header with ⟨written, rfl⟩ | ⟨-, wrote⟩
      · exact written
      · exact wroteHeader_of_write context wrote
    obtain ⟨state, full⟩ := settledMiddle opened
    have sent := state.resolve_left fun pending =>
      Bool.noConfusion (pending.wroteHeader.symm.trans wroteHeader)
    rw [done sent.chunked]
    exact sent.delimited full
  · rcases header with ⟨-, rfl⟩ | ⟨unwritten, wrote⟩
    · obtain ⟨-, delimited⟩ := file opened
      rw [done delimited.chunked]
      exact delimited
    · have still : task.closeOnFinish = false := still_of_write context (by rw [wrote]; exact opened)
      exact Bool.noConfusion (unwritten.symm.trans (file still).1)

/-! ### Responses without data -/

def Silent (application : Call AppIter) : Prop :=
  application.Uses (fun _ => True) (· = []) (AppIter.Uses (fun _ => True) (· = []) fun _ => False)

/-- Without data the body stays empty. -/
theorem executeWsgi_noBody (context : TaskContext) {application : Call AppIter}
    (silent : Silent application) :
    Within (Keeps fun task => task.sentBody = []) (executeWsgi context application) := by
  have keeps : ∀ {action : TaskM Unit}, Within (SameView Task.sentBody) action →
      Within (Keeps fun task => task.sentBody = []) action :=
    fun same task empty => (same task).symm.trans empty
  have starting : ∀ status headers excInfo,
      Within (Keeps fun task => task.sentBody = []) (startResponse status headers excInfo) :=
    fun status headers excInfo =>
      keeps (within_startResponse _ (fun _ _ _ _ _ => rfl) status headers excInfo)
  have writing : ∀ data, data = [] →
      Within (Keeps fun task => task.sentBody = []) (write context data) := by
    rintro _ rfl
    exact write_silent context
  have sizing : ∀ len chunk, Within (SameView Task.sentBody) (firstChunk len chunk) := by
    intro len chunk
    refine within_get_bind fun task => ?_
    split
    · rfl
    · rfl
  have checking : Within (SameView Task.sentBody) checkLength := by
    refine within_get_bind fun task => ?_
    cases task.contentLength with
    | none => rfl
    | some cl =>
        dsimp only
        split
        · rfl
        · rfl
  refine within_executeWsgi (fun status headers excInfo _ => starting status headers excInfo)
    writing (fun len chunk => keeps (sizing len chunk)) (keeps checking) ?_ ?_ silent
  · exact fun _ _ contrary => contrary.elim
  · exact fun _ contrary => contrary.elim

/-! ### The service -/

/-- A file with something to send is only returned while the block is not written. -/
def FileFirst (context : TaskContext) (task : Task) (application : Call AppIter) : Prop :=
  ∀ wrapper middle, exec (application.run context) task = (.ok (.fileWrapper wrapper), middle) →
    wrapper.prepare middle.contentLength ≠ 0 → middle.wroteHeader = false

/-- The lengths that the application gives are decimals. -/
def Announces (application : Call AppIter) : Prop :=
  application.Uses LengthGiven (fun _ => True)
    (AppIter.Uses LengthGiven (fun _ => True) fun _ => True)

theorem new_pending (request : HTTPRequestParser) : Pending request (Task.new request) where
  request_eq := rfl
  wroteHeader := rfl
  started _ := rfl
  length := .inl rfl
  nonneg _ contrary := absurd contrary (by simp [Task.new])
  written := rfl
  silent := rfl
  chunked := rfl

theorem executeWsgi_delimited (context : TaskContext) (request : HTTPRequestParser)
    {application : Call AppIter} (announces : Announces application)
    (fileFirst : FileFirst context (Task.new request) application) {after : Task}
    (executed : exec (executeWsgi context application) (Task.new request) = (.ok (), after)) :
    Settled request after ∨
      (after.closeOnFinish = false → after.wroteHeader = true ∧ Delimited after) := by
  obtain ⟨appIter, middle, called, responded⟩ := exec_bind_ok executed
  have running : Within (Keeps (Open request)) (application.run context) :=
    Call.within_run (fun status headers excInfo given => startResponse_open request given status
      excInfo) (fun data _ => write_open request data) announces
  have kept := running (Task.new request) fun _ => .inl (new_pending request)
  rw [called] at kept
  refine respond_delimited kept (Call.run_returns announces called) (fun wrapper same => ?_)
    responded
  subst same
  exact fileFirst wrapper middle called

/-- A response on a connection that stays open is delimited by its announced length. -/
theorem service_delimited (context : TaskContext) (request : HTTPRequestParser)
    (application : Call AppIter) (announces : Announces application)
    (fileFirst : FileFirst context (Task.new request) application) {after : Task}
    (served : exec (serviceTask context (executeWsgi context application)) (Task.new request) =
      (.ok (), after)) (stays : after.closeOnFinish = false) :
    Delimited after ∧ (Silent application → after.sentBody = []) := by
  rcases serviceTask_ok served with closed | ⟨middle, executed, finished⟩
  · exact Bool.noConfusion (closed.symm.trans stays)
  have delimited := finish_delimited
    (executeWsgi_delimited context request announces fileFirst executed) finished stays
  refine ⟨delimited, fun silent => ?_⟩
  have noBody := executeWsgi_noBody context silent (Task.new request) rfl
  rw [executed] at noBody
  obtain ⟨last, header, -, same, done⟩ := finish_eq context finished
  rw [done (same.symm.trans delimited.chunked)]
  rcases header with ⟨-, rfl⟩ | ⟨-, wrote⟩
  · exact noBody
  · have kept := write_silent context middle noBody
    rw [wrote] at kept
    exact kept

/-! ### Runs -/

/-- A file wrapper is not among the results of an application that admits none. -/
theorem FileFirst.of_uses {context : TaskContext} {task : Task} {application : Call AppIter}
    {starts : List (Str × Str) → Prop} {writes : Bytes → Prop}
    (uses : application.Uses starts writes (AppIter.Uses starts writes fun _ => False)) :
    FileFirst context task application :=
  fun _ _ called => (Call.run_returns uses called).elim

def sampleContext : TaskContext := { date := "Thu, 01 Jan 1970 00:00:00 GMT".toList }

def sampleRequest (command : String) : HTTPRequestParser :=
  { version := "1.1".toList, command := some command.toList }

def sampleApplication (chunk : Bytes) : Call AppIter :=
  .startResponse "200 OK".toList [("Content-Length".toList, "3".toList)] none fun _ =>
    .returns (.iterable (some 1) (.yields chunk .stops) none)

def sampleFileApplication : Call AppIter :=
  .startResponse "200 OK".toList [("Content-Length".toList, "3".toList)] none fun _ =>
    .write (ascii "ab") fun _ =>
      .returns (.fileWrapper { file := { data := ascii "abc" }, seekable := true })

def sampleRun (request : HTTPRequestParser) (application : Call AppIter) : Except Exc Unit × Task :=
  exec (serviceTask sampleContext (executeWsgi sampleContext application)) (Task.new request)

theorem exec_sample {request : HTTPRequestParser} {application : Call AppIter}
    (ok : (sampleRun request application).1 = .ok ()) :
    exec (serviceTask sampleContext (executeWsgi sampleContext application)) (Task.new request) =
      (.ok (), (sampleRun request application).2) :=
  Prod.ext ok rfl

theorem sample_lengthGiven : LengthGiven [("Content-Length".toList, "3".toList)] :=
  ⟨by decide, by decide⟩

theorem sampleApplication_uses (chunk : Bytes) (files : FileWrapper → Prop) :
    (sampleApplication chunk).Uses LengthGiven (fun _ => True)
      (AppIter.Uses LengthGiven (fun _ => True) files) :=
  ⟨sample_lengthGiven, fun _ => ⟨⟨trivial, trivial⟩, fun _ contrary => by simp at contrary⟩⟩

theorem service_delimited_sample :
    Delimited (sampleRun (sampleRequest "GET") (sampleApplication (ascii "abc"))).2 ∧
      (Silent (sampleApplication (ascii "abc")) →
        (sampleRun (sampleRequest "GET") (sampleApplication (ascii "abc"))).2.sentBody = []) :=
  service_delimited sampleContext (sampleRequest "GET") (sampleApplication (ascii "abc"))
    (sampleApplication_uses _ _) (FileFirst.of_uses (sampleApplication_uses _ _))
    (exec_sample (by decide +kernel)) (by decide +kernel)

/-- The body bytes are those that a client reads behind the header block. -/
def SelfDelimiting (task : Task) : Prop :=
  ∃ headers, task.sentHeaders = some headers ∧
    if task.request.command = some "HEAD".toList ∨ task.hasBody = false then task.sentBody = []
    else ∃ value, lengthValues headers = [value] ∧ task.sentBody.length = decimalValue value

/-- A client reads no body behind the answer to `HEAD`, but the application may supply one;
and a file that follows written data does not fit into the announced length. -/
theorem not_selfDelimiting :
    (¬ ∀ (context : TaskContext) (request : HTTPRequestParser) (application : Call AppIter)
        (after : Task), Announces application →
        FileFirst context (Task.new request) application →
        exec (serviceTask context (executeWsgi context application)) (Task.new request) =
          (.ok (), after) → after.closeOnFinish = false → SelfDelimiting after) ∧
      ¬ ∀ (context : TaskContext) (request : HTTPRequestParser) (application : Call AppIter)
        (after : Task), Announces application → request.command ≠ some "HEAD".toList →
        exec (serviceTask context (executeWsgi context application)) (Task.new request) =
          (.ok (), after) → after.closeOnFinish = false → SelfDelimiting after := by
  constructor
  · intro claim
    have ok : (sampleRun (sampleRequest "HEAD") (sampleApplication (ascii "abc"))).1 = .ok () := by
      decide +kernel
    obtain ⟨headers, -, body⟩ := claim _ _ _ _ (sampleApplication_uses _ _)
      (FileFirst.of_uses (sampleApplication_uses _ _)) (exec_sample ok) (by decide +kernel)
    rw [if_pos (.inl (by decide +kernel))] at body
    revert body
    decide +kernel
  · intro claim
    have ok : (sampleRun (sampleRequest "GET") sampleFileApplication).1 = .ok () := by
      decide +kernel
    obtain ⟨headers, block, body⟩ := claim _ _ sampleFileApplication _
      ⟨sample_lengthGiven, fun _ => ⟨trivial, fun _ => trivial⟩⟩ (by decide) (exec_sample ok)
      (by decide +kernel)
    rw [if_neg (by decide +kernel)] at body
    obtain ⟨value, given, length⟩ := body
    have three : (sampleRun (sampleRequest "GET") sampleFileApplication).2.sentHeaders.map
        lengthValues = some ["3".toList] := by decide +kernel
    rw [block, Option.map_some, given, Option.some.injEq, List.cons.injEq] at three
    rw [three.1] at length
    revert length
    decide +kernel

end Task

end Waitress
