import Waitress.Task

/-!
# What an application may do

A relation that every call of the application respects is respected by the
whole response.  The calls are restricted by predicates on the headers, on the
data and on the returned iterables.
-/

namespace Waitress

open Raising

/-- Every call that the code may make is admitted, and so is what it returns. -/
def Call.Uses {Result : Type} (starts : List (Str × Str) → Prop) (writes : Bytes → Prop)
    (results : Result → Prop) : Call Result → Prop
  | .startResponse _ headers _ next =>
      starts headers ∧ ∀ outcome, (next outcome).Uses starts writes results
  | .write data next => writes data ∧ ∀ outcome, (next outcome).Uses starts writes results
  | .raises _ => True
  | .returns result => results result

def Iterator.Uses (starts : List (Str × Str) → Prop) (writes : Bytes → Prop) : Iterator → Prop
  | .startResponse _ headers _ next => starts headers ∧ ∀ outcome, (next outcome).Uses starts writes
  | .write data next => writes data ∧ ∀ outcome, (next outcome).Uses starts writes
  | .raises _ => True
  | .yields chunk next => writes chunk ∧ next.Uses starts writes
  | .stops => True

/-- The `close` of an iterable starts no response. -/
def AppIter.Uses (starts : List (Str × Str) → Prop) (writes : Bytes → Prop)
    (files : FileWrapper → Prop) : AppIter → Prop
  | .iterable _ iterator close =>
      iterator.Uses starts writes ∧
        ∀ call ∈ close, call.Uses (fun _ => False) writes fun _ => True
  | .fileWrapper wrapper => files wrapper

theorem FileWrapper.blocks_uses {starts : List (Str × Str) → Prop} {writes : Bytes → Prop}
    (admitted : ∀ data, writes data) (blockSize : Int) (fuel : Nat) (file : File) :
    (blocks blockSize fuel file).Uses starts writes := by
  induction fuel generalizing file with
  | zero => trivial
  | succ fuel inductionHypothesis =>
      rw [blocks]
      split
      · trivial
      · exact ⟨admitted _, inductionHypothesis _⟩

/-- What an application returns is admitted. -/
theorem Call.run_returns {Result : Type} {context : TaskContext}
    {starts : List (Str × Str) → Prop} {writes : Bytes → Prop} {results : Result → Prop}
    {call : Call Result} (uses : call.Uses starts writes results) {task after : Task}
    {result : Result} (returned : exec (call.run context) task = (.ok result, after)) :
    results result := by
  induction call generalizing task with
  | startResponse status headers excInfo next inductionHypothesis =>
      obtain ⟨outcome, middle, -, rest⟩ := exec_bind_ok returned
      exact inductionHypothesis outcome (uses.2 outcome) rest
  | write data next inductionHypothesis =>
      obtain ⟨outcome, middle, -, rest⟩ := exec_bind_ok returned
      exact inductionHypothesis outcome (uses.2 outcome) rest
  | raises exc => exact absurd (congrArg Prod.fst returned) (by simp [Call.run])
  | returns value =>
      have same : value = result := by
        injection congrArg Prod.fst returned
      exact same ▸ uses

section Rules

variable {relation : Task → Task → Prop} [IsPreorder Task relation] {context : TaskContext}

omit [IsPreorder Task relation] in
theorem within_writeSoon {record : Task → Task}
    (records : ∀ task, relation task { record task with calls := task.calls + 1 }) :
    Within relation (writeSoon context record) := by
  refine within_get_bind fun task => ?_
  rw [exec_bind, exec_modify]
  dsimp only
  cases context.transport task.calls with
  | none => exact records task
  | some exc => exact records task

omit [IsPreorder Task relation] in
theorem writeSoon_ok {record : Task → Task} {task after : Task}
    (sent : exec (writeSoon context record) task = (.ok (), after)) :
    after = { record task with calls := task.calls + 1 } := by
  rw [writeSoon, exec_get_bind, exec_modify_bind] at sent
  cases reply : context.transport task.calls with
  | none =>
      rw [reply] at sent
      exact (Prod.mk.inj sent).2.symm
  | some exc =>
      rw [reply] at sent
      exact absurd (congrArg Prod.fst sent) (by simp)

theorem within_attempt {action : TaskM Unit} (body : Within relation action) :
    Within relation (attempt action) :=
  within_tryCatch (within_bind body fun _ => within_pure none) fun exc => within_pure (some exc)

theorem within_takeChunk {len : Option Nat} {chunk : Bytes}
    (sizing : ∀ chunk, Within relation (firstChunk len chunk))
    (writing : Within relation (write context chunk)) (first : Bool) :
    Within relation (takeChunk context len first chunk) := by
  cases first with
  | false =>
      by_cases empty : chunk = []
      · subst empty
        exact within_pure _
      · rw [takeChunk, if_pos empty]
        exact writing
  | true =>
      by_cases empty : chunk = []
      · subst empty
        exact within_bind (sizing []) fun _ => within_pure _
      · rw [takeChunk, if_pos empty]
        exact within_bind (sizing chunk) fun _ => writing

variable (relation) in
/-- What `startResponse` may change. -/
theorem within_startResponse
    (records : ∀ task status headers contentLength complete, relation task
      { task with status, responseHeaders := headers, contentLength, complete })
    (status : Str) (headers : List (Str × Str)) (excInfo : Option Exc) :
    Within relation (startResponse status headers excInfo) := by
  have completes : ∀ task : Task, relation task { task with complete := true } := fun task =>
    records task task.status task.responseHeaders task.contentLength true
  have sets : ∀ task : Task, relation task { task with status } := fun task =>
    records task status task.responseHeaders task.contentLength task.complete
  have adds : ∀ (task : Task) (headers : List (Str × Str)),
      relation task { task with responseHeaders := headers } := fun task headers =>
    records task task.status headers task.contentLength task.complete
  have checks : ∀ header, Within relation (checkHeader header) := by
    intro header
    rw [checkHeader]
    repeat' split
    · exact within_throw _
    · exact within_throw _
    · refine within_bind (within_ofExcept _) fun length => within_modify fun task => ?_
      exact records task task.status task.responseHeaders _ task.complete
    · exact within_throw _
    · exact within_pure _
  have responds : Within relation (setResponse status headers) := by
    refine within_bind (within_modify completes) fun _ => ?_
    split
    · exact within_throw _
    refine within_bind (within_modify sets) fun _ => ?_
    exact within_bind (within_forM _ fun header _ => checks header) fun _ =>
      within_modify fun task => adds task _
  refine within_get_bind fun task => ?_
  cases excInfo with
  | none =>
      dsimp only
      split
      · exact within_throw _ task
      · exact responds task
  | some exc =>
      dsimp only
      split
      · exact within_throw _ task
      · exact within_bind (within_modify fun task => adds task []) (fun _ => responds) task

variable {starts : List (Str × Str) → Prop} {writes : Bytes → Prop}
  (starting : ∀ status headers excInfo, starts headers →
    Within relation (Waitress.startResponse status headers excInfo))
  (writing : ∀ data, writes data → Within relation (Waitress.write context data))

include starting writing

theorem Call.within_run {Result : Type} {results : Result → Prop} {call : Call Result}
    (uses : call.Uses starts writes results) : Within relation (call.run context) := by
  induction call with
  | startResponse status headers excInfo next inductionHypothesis =>
      obtain ⟨admitted, later⟩ := uses
      refine within_bind (within_attempt (starting _ _ _ admitted)) fun outcome => ?_
      exact inductionHypothesis outcome (later outcome)
  | write data next inductionHypothesis =>
      obtain ⟨admitted, later⟩ := uses
      refine within_bind (within_attempt (writing _ admitted)) fun outcome => ?_
      exact inductionHypothesis outcome (later outcome)
  | raises exc => exact within_throw exc
  | returns result => exact within_pure result

theorem within_iterate {len : Option Nat} (sizing : ∀ chunk, Within relation (firstChunk len chunk))
    {iterator : Iterator} (uses : iterator.Uses starts writes) (first : Bool) :
    Within relation (iterate context len first iterator) := by
  induction iterator generalizing first with
  | startResponse status headers excInfo next inductionHypothesis =>
      obtain ⟨admitted, later⟩ := uses
      refine within_bind (within_attempt (starting _ _ _ admitted)) fun outcome => ?_
      exact inductionHypothesis outcome (later outcome) first
  | write data next inductionHypothesis =>
      obtain ⟨admitted, later⟩ := uses
      refine within_bind (within_attempt (writing _ admitted)) fun outcome => ?_
      exact inductionHypothesis outcome (later outcome) first
  | raises exc => exact within_throw exc
  | yields chunk next inductionHypothesis =>
      obtain ⟨admitted, later⟩ := uses
      refine within_bind ?_ fun _ => inductionHypothesis later false
      exact within_takeChunk sizing (writing _ admitted) first
  | stops => exact within_pure _

omit starting writing in
theorem within_closing {action : TaskM Unit} {close : Option (Call Unit)}
    (acting : Within relation action)
    (closes : ∀ call ∈ close, Within relation (call.run context)) :
    Within relation (closing context action close) := by
  cases close with
  | none => exact acting
  | some close =>
      refine within_bind (within_attempt acting) fun outcome => ?_
      refine within_bind (closes close rfl) fun _ => ?_
      cases outcome with
      | none => exact within_pure _
      | some exc => exact within_throw exc

theorem within_iterateAll {len : Option Nat} {iterator : Iterator}
    (sizing : ∀ chunk, Within relation (firstChunk len chunk))
    (checking : Within relation checkLength) (uses : iterator.Uses starts writes) :
    Within relation (iterateAll context len iterator) :=
  within_bind (within_iterate starting writing sizing uses true) fun _ => checking

/-- A relation that every call respects is respected by the whole response. -/
theorem within_respond {files : FileWrapper → Prop}
    (sizing : ∀ len chunk, Within relation (firstChunk len chunk))
    (checking : Within relation checkLength)
    (filing : ∀ wrapper size, files wrapper → Within relation (writeFile context wrapper size))
    (blocks : ∀ wrapper, files wrapper → wrapper.iterator.Uses starts writes) {appIter : AppIter}
    (uses : appIter.Uses starts writes files) : Within relation (respond context appIter) := by
  cases appIter with
  | iterable len iterator close =>
      apply within_closing (within_iterateAll starting writing (sizing len) checking uses.1)
      intro call isClose
      exact Call.within_run (fun _ _ _ contrary => contrary.elim) writing (uses.2 call isClose)
  | fileWrapper wrapper =>
      refine within_get_bind fun task => ?_
      dsimp only
      split
      · exact filing wrapper _ uses task
      · exact within_iterateAll starting writing (sizing _) checking (blocks wrapper uses) task

theorem within_executeWsgi {files : FileWrapper → Prop}
    (sizing : ∀ len chunk, Within relation (firstChunk len chunk))
    (checking : Within relation checkLength)
    (filing : ∀ wrapper size, files wrapper → Within relation (writeFile context wrapper size))
    (blocks : ∀ wrapper, files wrapper → wrapper.iterator.Uses starts writes)
    {application : Call AppIter}
    (uses : application.Uses starts writes (AppIter.Uses starts writes files)) :
    Within relation (executeWsgi context application) := by
  intro task
  have called := Call.within_run starting writing uses task
  rw [executeWsgi, exec_bind]
  rcases outcome : exec (application.run context) task with ⟨exc | appIter, middle⟩
  · rw [outcome] at called
    exact called
  · rw [outcome] at called
    exact IsTrans.trans _ _ _ called (within_respond starting writing sizing checking filing blocks
      (Call.run_returns uses outcome) middle)

end Rules

/-! ### Any application -/

theorem Call.uses_any {Result : Type} (call : Call Result) :
    call.Uses (fun _ => True) (fun _ => True) fun _ => True := by
  induction call with
  | startResponse _ _ _ next inductionHypothesis => exact ⟨trivial, inductionHypothesis⟩
  | write _ next inductionHypothesis => exact ⟨trivial, inductionHypothesis⟩
  | raises _ => trivial
  | returns _ => trivial

theorem Iterator.uses_any (iterator : Iterator) :
    iterator.Uses (fun _ => True) fun _ => True := by
  induction iterator with
  | startResponse _ _ _ next inductionHypothesis => exact ⟨trivial, inductionHypothesis⟩
  | write _ next inductionHypothesis => exact ⟨trivial, inductionHypothesis⟩
  | raises _ => trivial
  | yields _ next inductionHypothesis => exact ⟨trivial, inductionHypothesis⟩
  | stops => trivial

section Any

variable {relation : Task → Task → Prop} [IsPreorder Task relation] {context : TaskContext}
  (starting : ∀ status headers excInfo,
    Within relation (Waitress.startResponse status headers excInfo))
  (writing : ∀ data, Within relation (Waitress.write context data))
  (sizing : ∀ len chunk, Within relation (firstChunk len chunk))
  (checking : Within relation checkLength)
  (filing : ∀ wrapper size, Within relation (writeFile context wrapper size))

include starting writing sizing checking filing

/-- A relation that each part of the interface respects is respected by any application. -/
theorem within_anyApplication (application : Call AppIter) :
    Within relation (executeWsgi context application) := by
  have calls : ∀ {Result : Type} (call : Call Result), Within relation (call.run context) :=
    fun call => Call.within_run (fun status headers excInfo _ => starting status headers excInfo)
      (fun data _ => writing data) call.uses_any
  have loops : ∀ len iterator, Within relation (iterateAll context len iterator) :=
    fun len iterator => within_iterateAll
      (fun status headers excInfo _ => starting status headers excInfo)
      (fun data _ => writing data) (sizing len) checking iterator.uses_any
  refine within_bind (calls application) fun appIter => ?_
  cases appIter with
  | iterable len iterator close =>
      exact within_closing (loops len iterator) fun call _ => calls call
  | fileWrapper wrapper =>
      refine within_get_bind fun task => ?_
      dsimp only
      split
      · exact filing wrapper _ task
      · exact loops _ _ task

end Any

theorem attempt_eq_none {action : TaskM Unit} {task after : Task}
    (attempted : exec (attempt action) task = (.ok none, after)) :
    exec action task = (.ok (), after) := by
  rw [attempt, exec_tryCatch, exec_bind] at attempted
  rcases outcome : exec action task with ⟨exc | ⟨⟩, middle⟩
  · rw [outcome] at attempted
    exact absurd (congrArg Prod.fst attempted) (by simp)
  · rw [outcome] at attempted
    rw [(Prod.mk.inj attempted).2]

theorem serviceTask_ok {context : TaskContext} {execute : TaskM Unit} {task after : Task}
    (served : exec (serviceTask context execute) task = (.ok (), after)) :
    after.closeOnFinish = true ∨ ∃ middle, exec execute task = (.ok (), middle) ∧
      exec (finish context) middle = (.ok (), after) := by
  rw [serviceTask, exec_tryCatch] at served
  rcases outcome : exec (do execute; finish context) task with ⟨exc | ⟨⟩, middle⟩
  · rw [outcome] at served
    dsimp only at served
    split at served
    · rw [exec_modify_bind] at served
      split at served
      · exact absurd (congrArg Prod.fst served) (by simp)
      · exact .inl (congrArg Task.closeOnFinish (Prod.mk.inj served).2).symm
    · exact absurd (congrArg Prod.fst served) (by simp)
  · rw [outcome] at served
    obtain rfl := (Prod.mk.inj served).2
    obtain ⟨⟨⟩, between, executed, finished⟩ := exec_bind_ok outcome
    exact .inr ⟨between, executed, finished⟩

end Waitress
