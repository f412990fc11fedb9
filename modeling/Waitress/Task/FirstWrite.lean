import Waitress.Task.Clipping
import Waitress.Task.Splitting

/-!
# The first write

A task that has written nothing makes its header block of what it holds at its
first write.  Where the response has no body, the block does not depend on the
length that the task holds.
-/

namespace Waitress

open Raising

def Iterator.ofChunks (chunks : List Bytes) : Iterator := chunks.foldr .yields .stops

def deliver (context : TaskContext) (len : Option Nat) (chunks : List Bytes) (task : Task) : Task :=
  (exec (serviceTask context (iterateAll context len (.ofChunks chunks))) task).2

/-! ### Behind the header block -/

structure Kept (task after : Task) : Prop where
  wrote : after.wroteHeader = true
  sentHeaders : after.sentHeaders = task.sentHeaders
  status : after.status = task.status
  version : after.version = task.version
  chunked : after.chunkedResponse = task.chunkedResponse
  closes : task.closeOnFinish = true → after.closeOnFinish = true
  silent : task.hasBody = false → task.chunkedResponse = false → after.sentBody = task.sentBody

def Stays (task after : Task) : Prop := task.wroteHeader = true → Kept task after

instance : IsPreorder Task Stays where
  refl _ wrote := ⟨wrote, rfl, rfl, rfl, rfl, id, fun _ _ => rfl⟩
  trans task middle after first second wrote := by
    have before := first wrote
    have behind := second before.wrote
    refine ⟨behind.wrote, behind.sentHeaders.trans before.sentHeaders,
      behind.status.trans before.status, behind.version.trans before.version,
      behind.chunked.trans before.chunked, fun closes => behind.closes (before.closes closes), ?_⟩
    intro noBody noChunks
    have noBody' : middle.hasBody = false := (Task.hasBody_of_status before.status).trans noBody
    exact (behind.silent noBody' (before.chunked.trans noChunks)).trans (before.silent noBody noChunks)

section Behind

variable (context : TaskContext)

theorem exec_writeData_noBody {task : Task} (noBody : task.hasBody = false) (data : Bytes) :
    ∃ contentBytesWritten, exec (writeData context data) task =
      (.ok (), { task with contentBytesWritten }) := by
  rw [writeData, exec_get_bind]
  split
  · exact ⟨_, rfl⟩
  · rw [if_neg (by rw [noBody]; exact Bool.noConfusion)]
    exact ⟨_, rfl⟩

theorem within_writeData_stays (data : Bytes) : Within Stays (writeData context data) := by
  intro task wrote
  have view : Within (SameView fun task : Task => (task.wroteHeader, task.sentHeaders, task.status,
      task.version, task.chunkedResponse, task.closeOnFinish)) (writeData context data) :=
    within_writeData context _ (fun _ _ _ _ _ => rfl) data
  have same := view task
  simp only [SameView, Prod.mk.injEq] at same
  obtain ⟨wroteHeader, sentHeaders, status, version, chunked, closes⟩ := same
  refine ⟨wroteHeader.symm.trans wrote, sentHeaders.symm, status.symm, version.symm, chunked.symm,
    fun closing => closes.symm.trans closing, fun noBody _ => ?_⟩
  obtain ⟨written, ran⟩ := exec_writeData_noBody context noBody data
  rw [ran]

theorem within_write_stays (data : Bytes) : Within Stays (write context data) := by
  intro task wrote
  rw [write, exec_get_bind]
  split
  · exact refl (r := Stays) task wrote
  · rw [exec_bind, exec_writeHeader_again context task wrote]
    exact within_writeData_stays context data task wrote

theorem exec_writeSoon_snd (record : Task → Task) (task : Task) :
    (exec (writeSoon context record) task).2 = { record task with calls := task.calls + 1 } := by
  rw [writeSoon, exec_get_bind, exec_modify_bind]
  cases context.transport task.calls with
  | none => rfl
  | some exc => rfl

theorem within_lastChunk_stays : Within Stays (do
    if (← get).chunkedResponse = true then
      writeSoon context fun task => { task with sentBody := task.sentBody ++ ascii "0\r\n\r\n" }
    else pure () : TaskM Unit) := by
  refine within_get_bind fun task wrote => ?_
  split
  · next chunked =>
      rw [exec_writeSoon_snd]
      exact ⟨wrote, rfl, rfl, rfl, rfl, id, fun _ noChunks =>
        Bool.noConfusion (chunked.symm.trans noChunks)⟩
  · exact refl (r := Stays) task wrote

theorem within_finish_stays : Within Stays (finish context) := by
  intro task wrote
  rw [finish, exec_get_bind, if_neg (by rw [wrote]; exact Bool.noConfusion), exec_bind]
  exact within_lastChunk_stays context task wrote

theorem Iterator.ofChunks_uses (chunks : List Bytes) :
    (Iterator.ofChunks chunks).Uses (fun _ => False) fun _ => True := by
  induction chunks with
  | nil => trivial
  | cons chunk chunks inductionHypothesis => exact ⟨trivial, inductionHypothesis⟩

theorem within_iterate_stays (len : Option Nat) (first : Bool) (chunks : List Bytes) :
    Within Stays (iterate context len first (.ofChunks chunks)) := by
  have sizing : ∀ chunk, Within Stays (firstChunk len chunk) := by
    intro chunk
    refine within_get_bind fun task => ?_
    split
    · exact fun wrote => ⟨wrote, rfl, rfl, rfl, rfl, id, fun _ _ => rfl⟩
    · exact refl (r := Stays) task
  exact within_iterate (fun _ _ _ contrary => contrary.elim)
    (fun data _ => within_write_stays context data) sizing (Iterator.ofChunks_uses chunks) first

/-- Closing the connection at last. -/
def Task.lengthChecked (task : Task) : Task :=
  match task.contentLength with
  | none => task
  | some cl =>
      if task.contentBytesWritten ≠ cl ∧ task.request.command ≠ some "HEAD".toList then
        task.setCloseOnFinish
      else task

theorem exec_checkLength (task : Task) : exec checkLength task = (.ok (), task.lengthChecked) := by
  rw [checkLength, exec_get_bind, Task.lengthChecked]
  cases task.contentLength with
  | none => rfl
  | some cl =>
      dsimp only
      split
      · rfl
      · rfl

theorem stays_lengthChecked (task : Task) : Stays task task.lengthChecked := by
  have stays := refl (r := Stays) task
  have closed : Stays task task.setCloseOnFinish := by
    intro wrote
    have headers : task.setCloseOnFinish = { task with closeOnFinish := true } := by
      rw [Task.setCloseOnFinish, if_neg (by rw [wrote]; exact fun both => Bool.noConfusion both.1)]
    rw [headers]
    exact ⟨wrote, rfl, rfl, rfl, rfl, fun _ => rfl, fun _ _ => rfl⟩
  rw [Task.lengthChecked]
  cases task.contentLength with
  | none => exact stays
  | some cl =>
      dsimp only
      split
      · exact closed
      · exact stays

/-! ### The first write -/

/-- A task that has written nothing but may. -/
structure Ready (task : Task) : Prop where
  unwritten : task.wroteHeader = false
  complete : task.complete = true
  unsent : task.sentHeaders = none
  blank : task.sentBody = []
  unchunked : task.chunkedResponse = false
  supported : ¬ (task.version ≠ "1.0".toList ∧ task.version ≠ "1.1".toList)

/-- The headers of the block, unless it cannot be encoded. -/
def Task.blockHeaders (task : Task) : Option (List (Str × Str)) :=
  match encodeLatin1 (task.headerBlock context).renderHeader with
  | .ok _ => some (task.headerBlock context).responseHeaders
  | .error _ => none

/-- What the first write of a task leads to. -/
structure Answered (task after : Task) : Prop where
  sentHeaders : after.sentHeaders = task.blockHeaders context
  status : after.status = task.status
  version : after.version = task.version
  closes : (task.headerBlock context).closeOnFinish = true → after.closeOnFinish = true
  silent : task.hasBody = false → after.sentBody = [] ∧ after.chunkedResponse = false

variable {context}

theorem Answered.stays {task middle after : Task} (answered : Answered context task middle)
    (wrote : middle.wroteHeader = true) (stays : Stays middle after) :
    Answered context task after := by
  have kept := stays wrote
  refine ⟨kept.sentHeaders.trans answered.sentHeaders, kept.status.trans answered.status,
    kept.version.trans answered.version, fun closes => kept.closes (answered.closes closes), ?_⟩
  intro noBody
  obtain ⟨blank, noChunks⟩ := answered.silent noBody
  have noBody' : middle.hasBody = false := (Task.hasBody_of_status answered.status).trans noBody
  exact ⟨(kept.silent noBody' noChunks).trans blank, kept.chunked.trans noChunks⟩

theorem chunked_headerBlock_noBody {task : Task} (noBody : task.hasBody = false) :
    (task.headerBlock context).chunkedResponse = task.chunkedResponse := by
  have status : task.normalizeHeaders.addContentLength.status = task.status :=
    (congrArg Task.status (Task.frame_addContentLength task.normalizeHeaders) :)
  rw [Task.headerBlock, (Task.flags_addDate _ _ _).2, (Task.flags_addServer _ _ _).2,
    chunked_decideConnection_noBody ((Task.hasBody_of_status status).trans noBody),
    (Task.flags_addContentLength _).2]
  rfl

/-- The first write leads to the block, or to an exception that it raised. -/
theorem Ready.write {task : Task} (ready : Ready task) (data : Bytes) :
    ∃ outcome after, exec (write context data) task = (outcome, after) ∧
      Answered context task after ∧ (outcome = .ok () → after.wroteHeader = true) := by
  have frame := Task.frame_headerBlock context task
  have status : (task.headerBlock context).status = task.status := (congrArg Task.status frame :)
  have version : (task.headerBlock context).version = task.version := (congrArg Task.version frame :)
  have unsent : (task.headerBlock context).sentHeaders = none :=
    (congrArg Task.sentHeaders frame :).trans ready.unsent
  have blank : (task.headerBlock context).sentBody = [] :=
    (congrArg Task.sentBody frame :).trans ready.blank
  have unchunked : task.hasBody = false → (task.headerBlock context).chunkedResponse = false :=
    fun noBody => (chunked_headerBlock_noBody noBody).trans ready.unchunked
  rw [Waitress.write, exec_get_bind, if_neg (by rw [ready.complete]; exact Bool.noConfusion),
    exec_bind, writeHeader, exec_get_bind, if_pos ready.unwritten, exec_bind,
    exec_buildResponseHeader, if_neg ready.supported]
  have headers : task.blockHeaders context =
      match encodeLatin1 (task.headerBlock context).renderHeader with
      | .ok _ => some (task.headerBlock context).responseHeaders
      | .error _ => none := rfl
  cases encoded : encodeLatin1 (task.headerBlock context).renderHeader with
  | error exc =>
      rw [encoded] at headers
      refine ⟨.error exc, task.headerBlock context, rfl, ?_, fun contrary => by cases contrary⟩
      exact ⟨unsent.trans headers.symm, status, version, id, fun noBody => ⟨blank, unchunked noBody⟩⟩
  | ok block =>
      rw [encoded] at headers
      have sent : Answered context task (task.headerBlock context).sendHeader :=
        ⟨headers.symm, status, version, id, fun noBody => ⟨rfl, unchunked noBody⟩⟩
      dsimp only
      rw [exec_bind, writeSoon, exec_get_bind, exec_modify_bind]
      cases context.transport (task.headerBlock context).calls with
      | some exc => exact ⟨_, _, rfl, sent, fun contrary => by cases contrary⟩
      | none =>
          let wrote : Task := { (task.headerBlock context).sendHeader with wroteHeader := true }
          have written : Answered context task wrote :=
            ⟨sent.sentHeaders, sent.status, sent.version, sent.closes, sent.silent⟩
          have stays := within_writeData_stays context data wrote
          refine ⟨_, _, rfl, written.stays rfl stays, fun _ => (stays rfl).wrote⟩

def Task.sized (len : Option Nat) (chunks : List Bytes) (task : Task) : Task :=
  match chunks with
  | [] => task
  | chunk :: _ =>
      if task.contentLength = none ∧ len = some 1 then
        { task with contentLength := some (chunk.length : Int) }
      else task

def AllEmpty (chunks : List Bytes) : Prop := ∀ chunk ∈ chunks, chunk = []

instance (chunks : List Bytes) : Decidable (AllEmpty chunks) :=
  inferInstanceAs (Decidable (∀ _ ∈ _, _))

def Task.firstWrite (len : Option Nat) (chunks : List Bytes) (task : Task) : Task :=
  if AllEmpty chunks then (task.sized len chunks).lengthChecked else task.sized len chunks

theorem exec_iterate_first (len : Option Nat) (chunks : List Bytes) (task : Task) :
    exec (iterate context len true (.ofChunks chunks)) task =
      exec (iterate context len false (.ofChunks chunks)) (task.sized len chunks) := by
  cases chunks with
  | nil => rfl
  | cons chunk chunks =>
      have first : exec (firstChunk len chunk) task = (.ok (), task.sized len (chunk :: chunks)) := by
        rw [firstChunk, exec_get_bind, Task.sized]
        split
        · rfl
        · rfl
      have taken : exec (takeChunk context len true chunk) task =
          exec (takeChunk context len false chunk) (task.sized len (chunk :: chunks)) := by
        rw [takeChunk, if_pos rfl, exec_bind, first]
        rfl
      change exec (takeChunk context len true chunk >>= _) task =
        exec (takeChunk context len false chunk >>= _) _
      rw [exec_bind, exec_bind, taken]

theorem Ready.iterate {task : Task} (ready : Ready task) (len : Option Nat) (chunks : List Bytes) :
    ∃ outcome after, exec (iterate context len false (.ofChunks chunks)) task = (outcome, after) ∧
      (AllEmpty chunks ∧ outcome = .ok () ∧ after = task ∨
        ¬ AllEmpty chunks ∧ Answered context task after ∧
          (outcome = .ok () → after.wroteHeader = true)) := by
  induction chunks with
  | nil => exact ⟨_, _, rfl, .inl ⟨fun _ mem => absurd mem List.not_mem_nil, rfl, rfl⟩⟩
  | cons chunk chunks inductionHypothesis =>
      change ∃ outcome after, exec (takeChunk context len false chunk >>= fun _ =>
        Waitress.iterate context len false (.ofChunks chunks)) task = _ ∧ _
      by_cases empty : chunk = []
      · subst empty
        have same : AllEmpty ([] :: chunks) ↔ AllEmpty chunks := by simp [AllEmpty]
        rw [same]
        exact inductionHypothesis
      · have some : ¬ AllEmpty (chunk :: chunks) := fun all => empty (all chunk List.mem_cons_self)
        have taken : exec (takeChunk context len false chunk) task =
            exec (Waitress.write context chunk) task := by
          rw [takeChunk, if_pos empty]
          rfl
        obtain ⟨outcome, after, ran, answered, wrote⟩ := @Ready.write context task ready chunk
        rw [exec_bind, taken, ran]
        cases outcome with
        | error exc => exact ⟨_, _, rfl, .inr ⟨some, answered, fun contrary => by cases contrary⟩⟩
        | ok =>
            have stays := within_iterate_stays context len false chunks after
            exact ⟨_, _, rfl, .inr ⟨some, answered.stays (wrote rfl) stays,
              fun _ => (stays (wrote rfl)).wrote⟩⟩

theorem Ready.sized {task : Task} (ready : Ready task) (len : Option Nat) (chunks : List Bytes) :
    Ready (task.sized len chunks) := by
  cases chunks with
  | nil => exact ready
  | cons chunk chunks =>
      rw [Task.sized]
      split
      · exact ⟨ready.unwritten, ready.complete, ready.unsent, ready.blank, ready.unchunked,
          ready.supported⟩
      · exact ready

theorem Ready.lengthChecked {task : Task} (ready : Ready task) : Ready task.lengthChecked := by
  rw [Task.lengthChecked]
  cases task.contentLength with
  | none => exact ready
  | some cl =>
      dsimp only
      split
      · exact ⟨ready.unwritten, ready.complete, ready.unsent, ready.blank, ready.unchunked,
          ready.supported⟩
      · exact ready

/-- Whatever the chunks are, the service answers with the block of the first write. -/
theorem Ready.deliver {task : Task} (ready : Ready task) (len : Option Nat) (chunks : List Bytes) :
    Answered context (task.firstWrite len chunks) (deliver context len chunks task) := by
  have start := ready.sized len chunks
  have ran : ∃ outcome after, exec (do
        iterateAll context len (.ofChunks chunks)
        finish context) task = (outcome, after) ∧
      Answered context (task.firstWrite len chunks) after := by
    obtain ⟨outcome, middle, iterated, result⟩ := @Ready.iterate context _ start len chunks
    rw [← exec_iterate_first] at iterated
    rw [exec_bind, iterateAll, exec_bind, iterated]
    rcases result with ⟨none, rfl, rfl⟩ | ⟨some, answered, wrote⟩
    · -- Nothing was written yet, and `finish` is the first to write.
      dsimp only
      rw [exec_checkLength, Task.firstWrite, if_pos none]
      dsimp only
      have checked := start.lengthChecked
      rw [finish, exec_get_bind, if_pos checked.unwritten, exec_bind]
      obtain ⟨outcome, after, ran, answered, wrote⟩ := @Ready.write context _ checked []
      rw [ran]
      cases outcome with
      | error exc => exact ⟨_, _, rfl, answered⟩
      | ok =>
          exact ⟨_, _, rfl, answered.stays (wrote rfl) (within_lastChunk_stays context after)⟩
    · rw [Task.firstWrite, if_neg some]
      cases outcome with
      | error exc => exact ⟨_, _, rfl, answered⟩
      | ok =>
          dsimp only
          rw [exec_checkLength]
          have stays : Stays middle middle.lengthChecked := stays_lengthChecked middle
          have ends := within_finish_stays context middle.lengthChecked
          exact ⟨_, _, rfl, answered.stays (wrote rfl) (trans_of Stays stays ends)⟩
  obtain ⟨outcome, after, ran, answered⟩ := ran
  have closed : Answered context (task.firstWrite len chunks) { after with closeOnFinish := true } :=
    ⟨answered.sentHeaders, answered.status, answered.version, fun _ => rfl, answered.silent⟩
  rw [Waitress.deliver, serviceTask, exec_tryCatch, ran]
  cases outcome with
  | ok => exact answered
  | error exc =>
      dsimp only
      split
      · rw [exec_modify_bind]
        split
        · exact closed
        · exact closed
      · exact answered

end Behind

/-! ### Responses without a body -/

namespace Task

variable {context : TaskContext} {task : Task}

theorem contentLengthHeader_noBody (noBody : task.hasBody = false) :
    task.normalizeHeaders.contentLengthHeader = none := by
  have noBody' : task.normalizeHeaders.hasBody = false := noBody
  rw [contentLengthHeader, lastValue_normalizeHeaders, lengthValues_normalizeHeaders,
    if_neg (by rw [noBody]; exact Bool.noConfusion)]
  dsimp only [List.getLast?_nil]
  rw [if_neg (by rw [noBody']; exact Bool.noConfusion)]

theorem addContentLength_noBody (noBody : task.hasBody = false) :
    task.normalizeHeaders.addContentLength = task.normalizeHeaders := by
  have noBody' : task.normalizeHeaders.hasBody = false := noBody
  exact if_neg fun both => Bool.noConfusion (noBody'.symm.trans both.2)

theorem named_of_setCloseOnFinish (unwritten : task.wroteHeader = false) :
    ¬ task.setCloseOnFinish.responseHeaders.all
      (fun header => Str.capitalize header.1 ≠ "Connection".toList) = true := by
  rw [setCloseOnFinish]
  dsimp only
  split
  · intro all
    have last := List.all_eq_true.mp all _ (List.mem_append_right _ List.mem_cons_self)
    exact absurd last (by decide)
  · next named => exact fun all => named ⟨unwritten, all⟩

/-- The second time there is nothing to tell. -/
theorem setCloseOnFinish_again (unwritten : task.wroteHeader = false) :
    task.setCloseOnFinish.setCloseOnFinish = task.setCloseOnFinish := by
  conv_lhs => rw [setCloseOnFinish, if_neg fun both => named_of_setCloseOnFinish unwritten both.2]
  rfl

theorem decideChunked_noBody (noBody : task.hasBody = false) :
    task.decideChunked = if task.closeOnFinish = false then task.setCloseOnFinish else task := by
  unfold decideChunked
  simp only [noBody]
  rfl

/-- A response without a body closes the connection, whatever the request says. -/
theorem decideConnection_noBody (noBody : task.hasBody = false)
    (tells : task.closeOnFinish = false ∨ task.setCloseOnFinish = task)
    (connection : Str) : task.decideConnection connection false = task.setCloseOnFinish := by
  have closed : task.setCloseOnFinish.decideChunked = task.setCloseOnFinish :=
    decideChunked_noBody noBody
  unfold decideConnection
  dsimp only
  rw [if_pos rfl, if_pos rfl, ite_self]
  split
  · rfl
  · by_cases closes : connection = "close".toList
    · rw [if_pos closes, closed]
    · rw [if_neg closes, decideChunked_noBody noBody]
      rcases tells with stays | same
      · exact if_pos stays
      · rw [same, ite_self]

/-- The name is found in front of the normalization as behind it. -/
theorem capitalize_headerName_iff (name : Str) :
    Str.capitalize (headerName name) = "Connection".toList ↔
      Str.capitalize name = "Connection".toList := by
  have plain : Str.IsPlainCapital 67 := by decide
  have noHyphen : ∀ {part : Str}, Str.capitalize part = "Connection".toList → '-' ∉ part := by
    intro part same
    have lowered : Str.lower part = "connection".toList := (Str.capitalize_eq_iff plain).mp same
    rw [← hyphen_mem_lower, lowered]
    decide
  have single : '-' ∉ name → headerName name = Str.capitalize name := by
    intro absent
    rw [headerName, Str.split_of_not_mem absent]
    rfl
  constructor
  · intro same
    have parts := split_headerName name
    rw [Str.split_of_not_mem (noHyphen same)] at parts
    obtain ⟨part, only, whole⟩ := List.map_eq_singleton_iff.mp parts.symm
    have self : name = part := by
      rw [← Str.join_split '-' name, only]
      rfl
    rw [← self] at whole
    rw [← Str.capitalize_capitalize, whole, same]
  · intro same
    rw [single (noHyphen same), Str.capitalize_capitalize, same]

def Unnamed (headers : List (Str × Str)) : Prop :=
  headers.all (fun header => Str.capitalize header.1 ≠ "Connection".toList) = true

theorem unnamed_normalizeHeaders (task : Task) :
    Unnamed task.normalizeHeaders.responseHeaders ↔ Unnamed task.responseHeaders := by
  simp only [Unnamed, List.all_eq_true, decide_eq_true_iff]
  constructor
  · intro others header mem named
    have both := (capitalize_headerName_iff header.1).mpr named
    have other : headerName header.1 ≠ "Content-Length".toList := by
      intro length
      rw [length] at both
      exact absurd both (by decide)
    refine others (normalHeader header) (List.mem_filter.mpr ⟨List.mem_map_of_mem mem, ?_⟩) both
    rw [normalHeader, decide_eq_false other]
    rfl
  · intro others header mem named
    obtain ⟨original, inside, rfl⟩ := List.mem_map.mp (List.mem_of_mem_filter mem)
    exact others original inside ((capitalize_headerName_iff original.1).mp named)

def telling (task : Task) : List (Str × Str) :=
  if task.wroteHeader = false ∧ task.responseHeaders.all
      (fun header => Str.capitalize header.1 ≠ "Connection".toList) then
    [("Connection".toList, "close".toList)]
  else []

theorem setCloseOnFinish_eq (task : Task) : task.setCloseOnFinish =
    { task with
      responseHeaders := task.responseHeaders ++ task.telling
      closeOnFinish := true } := by
  rw [setCloseOnFinish, telling]
  split
  · rfl
  · rw [List.append_nil]

theorem telling_normalizeHeaders (task : Task) : task.normalizeHeaders.telling = task.telling :=
  if_congr (and_congr_right' (unnamed_normalizeHeaders task)) rfl rfl

/-- The client is told in front of the normalization as behind it. -/
theorem normalizeHeaders_setCloseOnFinish (task : Task) :
    task.setCloseOnFinish.normalizeHeaders = task.normalizeHeaders.setCloseOnFinish := by
  have normal : (task.telling.map normalHeader).filter (fun header =>
      !(header.1 = "Content-Length".toList && !task.hasBody)) = task.telling := by
    rw [telling]
    split
    · rfl
    · rfl
  have headers : task.setCloseOnFinish.normalizeHeaders.responseHeaders =
      task.normalizeHeaders.responseHeaders ++ task.telling := by
    conv_rhs => rw [← normal]
    rw [setCloseOnFinish_eq, normalizeHeaders]
    dsimp only
    rw [List.map_append, List.filter_append]
    rfl
  rw [setCloseOnFinish_eq task.normalizeHeaders, telling_normalizeHeaders, ← headers]
  rfl

theorem lastValue_setCloseOnFinish (task : Task) {name : Str} (other : "Connection".toList ≠ name) :
    lastValue name task.setCloseOnFinish.responseHeaders = lastValue name task.responseHeaders := by
  have nothing : task.telling.filter (fun header => header.1 = name) = [] := by
    rw [telling]
    split
    · exact List.filter_cons_of_neg (by rwa [decide_eq_true_iff])
    · rfl
  rw [setCloseOnFinish_eq]
  dsimp only
  rw [lastValue, List.filter_append, nothing, List.append_nil]
  rfl

/-- The block of a response without a body does not depend on the length. -/
theorem headerBlock_noBody (noBody : task.hasBody = false)
    (tells : task.closeOnFinish = false ∨ task.setCloseOnFinish = task) :
    task.headerBlock context =
      (task.normalizeHeaders.setCloseOnFinish.addServer context.adj.ident
        (lastValue "Server".toList task.normalizeHeaders.responseHeaders)).addDate context.date
        (lastValue "Date".toList task.normalizeHeaders.responseHeaders) := by
  have tells' : task.normalizeHeaders.closeOnFinish = false ∨
      task.normalizeHeaders.setCloseOnFinish = task.normalizeHeaders :=
    tells.imp_right fun same =>
      (normalizeHeaders_setCloseOnFinish task).symm.trans (congrArg normalizeHeaders same)
  have noBody' : task.normalizeHeaders.hasBody = false := noBody
  unfold headerBlock
  dsimp only
  rw [contentLengthHeader_noBody noBody, addContentLength_noBody noBody,
    show (!falsy none) = false from rfl, decideConnection_noBody noBody' tells']

/-- Nor does it depend on whether the client was told before. -/
theorem headerBlock_told (noBody : task.hasBody = false) (unwritten : task.wroteHeader = false)
    (stays : task.closeOnFinish = false) :
    task.setCloseOnFinish.headerBlock context = task.headerBlock context := by
  have again := setCloseOnFinish_again unwritten
  have again' := setCloseOnFinish_again (show task.normalizeHeaders.wroteHeader = false from unwritten)
  have noBody' : task.setCloseOnFinish.hasBody = false := noBody
  rw [headerBlock_noBody noBody (.inl stays), headerBlock_noBody noBody' (.inr again),
    normalizeHeaders_setCloseOnFinish, again', lastValue_setCloseOnFinish _ (by decide),
    lastValue_setCloseOnFinish _ (by decide)]

/-- The block of a response without a body closes the connection. -/
theorem headerBlock_noBody_closes (noBody : task.hasBody = false) :
    (task.headerBlock context).closeOnFinish = true := by
  by_contra stays
  have announced := (headerBlock_open context (eq_false_of_ne_true stays)).2.1
  rw [contentLengthHeader_noBody noBody] at announced
  cases announced

theorem addServer_eq (ident server : Option Str) : ∃ more, ∀ task : Task,
    (task.addServer ident server).responseHeaders = task.responseHeaders ++ more := by
  unfold addServer
  split
  · split
    · exact ⟨[], fun task => (List.append_nil _).symm⟩
    · exact ⟨_, fun task => rfl⟩
  · exact ⟨_, fun task => rfl⟩

theorem addDate_eq (now : Str) (date : Option Str) : ∃ more, ∀ task : Task,
    (task.addDate now date).responseHeaders = task.responseHeaders ++ more := by
  unfold addDate
  split
  · exact ⟨_, fun task => rfl⟩
  · exact ⟨[], fun task => (List.append_nil _).symm⟩

theorem headerBlock_sized (noBody : task.hasBody = false) (stays : task.closeOnFinish = false)
    (contentLength : Option Int) :
    (headerBlock context { task with contentLength }).responseHeaders =
      (task.headerBlock context).responseHeaders := by
  have noBody' : hasBody { task with contentLength } = false := noBody
  obtain ⟨servers, served⟩ := addServer_eq context.adj.ident
    (lastValue "Server".toList task.normalizeHeaders.responseHeaders)
  obtain ⟨dates, dated⟩ := addDate_eq context.date
    (lastValue "Date".toList task.normalizeHeaders.responseHeaders)
  rw [headerBlock_noBody noBody (.inl stays), headerBlock_noBody noBody' (.inl stays), dated, served]
  exact (dated _).trans (congrArg (· ++ dates) (served _))

end Task

/-! ### What is seen -/

section Seen

variable {context : TaskContext} {task : Task}

theorem Task.sized_eq (len : Option Nat) (chunks : List Bytes) (task : Task) :
    ∃ contentLength, task.sized len chunks = { task with contentLength } := by
  cases chunks with
  | nil => exact ⟨task.contentLength, rfl⟩
  | cons chunk chunks =>
      rw [Task.sized]
      split
      · exact ⟨_, rfl⟩
      · exact ⟨task.contentLength, rfl⟩

theorem Task.firstWrite_cases (len : Option Nat) (chunks : List Bytes) (task : Task) :
    task.firstWrite len chunks = task.sized len chunks ∨
      task.firstWrite len chunks = (task.sized len chunks).setCloseOnFinish := by
  rw [Task.firstWrite]
  split
  · rw [Task.lengthChecked]
    cases (task.sized len chunks).contentLength with
    | none => exact .inl rfl
    | some cl =>
        dsimp only
        split
        · exact .inr rfl
        · exact .inl rfl
  · exact .inl rfl

/-- The line of the status is not changed in front of the first write. -/
theorem Task.status_firstWrite (len : Option Nat) (chunks : List Bytes) (task : Task) :
    (task.firstWrite len chunks).status = task.status ∧
      (task.firstWrite len chunks).version = task.version := by
  obtain ⟨contentLength, sized⟩ := task.sized_eq len chunks
  rcases task.firstWrite_cases len chunks with same | same
  · rw [same, sized]
    exact ⟨rfl, rfl⟩
  · rw [same, sized]
    exact ⟨rfl, rfl⟩

theorem Task.headerBlock_firstWrite (noBody : task.hasBody = false)
    (unwritten : task.wroteHeader = false) (stays : task.closeOnFinish = false)
    (len : Option Nat) (chunks : List Bytes) :
    ((task.firstWrite len chunks).headerBlock context).responseHeaders =
      (task.headerBlock context).responseHeaders := by
  obtain ⟨contentLength, sized⟩ := task.sized_eq len chunks
  have block := @Task.headerBlock_sized context _ noBody stays contentLength
  rcases task.firstWrite_cases len chunks with same | same
  · rw [same, sized, block]
  · have noBody' : Task.hasBody { task with contentLength } = false := noBody
    rw [same, sized, Task.headerBlock_told noBody' unwritten stays, block]

def Task.seen (task : Task) : Option (List Str) × Bytes × Bool :=
  (task.sentHeaders.map fun responseHeaders => Task.blockLines { task with responseHeaders },
    task.sentBody, task.closeOnFinish)

theorem Answered.seen_of_noBody {other first second : Task} (noBody : task.hasBody = false)
    (answered : Answered context task first) (answered' : Answered context other second)
    (status : other.status = task.status) (version : other.version = task.version)
    (headers : (other.headerBlock context).responseHeaders =
      (task.headerBlock context).responseHeaders) :
    first.seen = second.seen := by
  have noBody' : other.hasBody = false := (Task.hasBody_of_status status).trans noBody
  have frame := Task.frame_headerBlock context task
  have frame' := Task.frame_headerBlock context other
  have statuses : (other.headerBlock context).status = (task.headerBlock context).status :=
    ((congrArg Task.status frame' :).trans status).trans (congrArg Task.status frame :).symm
  have versions : (other.headerBlock context).version = (task.headerBlock context).version :=
    ((congrArg Task.version frame' :).trans version).trans (congrArg Task.version frame :).symm
  have text : (other.headerBlock context).renderHeader = (task.headerBlock context).renderHeader := by
    rw [Task.renderHeader, Task.renderHeader, statuses, versions, headers]
  have sent : first.sentHeaders = second.sentHeaders := by
    rw [answered.sentHeaders, answered'.sentHeaders, Task.blockHeaders, Task.blockHeaders, text,
      headers]
  have body : first.sentBody = second.sentBody :=
    (answered.silent noBody).1.trans (answered'.silent noBody').1.symm
  have closed : first.closeOnFinish = second.closeOnFinish :=
    (answered.closes (Task.headerBlock_noBody_closes noBody)).trans
      (answered'.closes (Task.headerBlock_noBody_closes noBody')).symm
  have line : ∀ responseHeaders, Task.blockLines { first with responseHeaders } =
      Task.blockLines { second with responseHeaders } := by
    intro responseHeaders
    have started : first.version = second.version ∧ first.status = second.status :=
      ⟨(answered.version.trans version.symm).trans answered'.version.symm,
        (answered.status.trans status.symm).trans answered'.status.symm⟩
    rw [Task.blockLines, Task.blockLines, Task.statusLine, Task.statusLine, started.1, started.2]
  rw [Task.seen, Task.seen, sent, body, closed]
  exact congrArg (·, _) (Option.map_congr fun headers _ => line headers)

end Seen

end Waitress
