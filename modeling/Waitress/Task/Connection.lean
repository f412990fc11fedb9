import Waitress.Task.Header

/-!
# The `Connection` header

What the header block says of the connection against what happens to it.  The
block decides by the version, by the request and by the announced length; it
does not look at what was decided before.
-/

namespace Waitress

open Raising

namespace Task

theorem hyphen_mem_lower (name : Str) : '-' ∈ Str.lower name ↔ '-' ∈ name := by
  rw [Str.lower, List.mem_map]
  constructor
  · rintro ⟨c, mem, same⟩
    rwa [← (Str.lowerChar_eq_hyphen c).mp same]
  · exact fun mem => ⟨'-', mem, rfl⟩

/-- The two ways in which the program looks for the field agree on normal names. -/
theorem capitalize_headerName_eq_connection (name : Str) :
    Str.capitalize (headerName name) = "Connection".toList ↔
      headerName name = "Connection".toList := by
  have plain : Str.IsPlainCapital 67 := by decide
  constructor
  · intro same
    have lowered : Str.lower (headerName name) = "connection".toList :=
      (Str.capitalize_eq_iff plain).mp same
    have absent : '-' ∉ headerName name := by
      rw [← hyphen_mem_lower, lowered]
      decide
    have parts := split_headerName name
    rw [Str.split_of_not_mem absent] at parts
    obtain ⟨part, only, whole⟩ := List.map_eq_singleton_iff.mp parts.symm
    rw [← whole] at lowered ⊢
    rw [← Str.capitalize_capitalize]
    exact (Str.capitalize_eq_iff plain).mpr lowered
  · intro same
    rw [same]
    decide

def connectionFields (headers : List (Str × Str)) : List Str :=
  (headers.filter fun header => header.1 = "Connection".toList).map Prod.snd

theorem connectionFields_append (first second : List (Str × Str)) :
    connectionFields (first ++ second) = connectionFields first ++ connectionFields second := by
  rw [connectionFields, List.filter_append, List.map_append]
  rfl

theorem connectionFields_addHeader {task : Task} {name : Str} (value : Str)
    (other : name ≠ "Connection".toList) :
    connectionFields (task.addHeader name value).responseHeaders =
      connectionFields task.responseHeaders := by
  have nothing : connectionFields [(name, value)] = [] := by
    rw [connectionFields, List.filter_cons_of_neg (by rwa [decide_eq_true_iff])]
    rfl
  rw [addHeader, connectionFields_append, nothing, List.append_nil]

structure TellsTruth (task : Task) : Prop where
  close : "close".toList ∈ connectionFields task.responseHeaders ↔ task.closeOnFinish = true
  keepAlive : "Keep-Alive".toList ∈ connectionFields task.responseHeaders →
    task.closeOnFinish = false
  single : (connectionFields task.responseHeaders).length ≤ 1

theorem tellsTruth_of_close {task : Task} (closes : task.closeOnFinish = true) :
    task.TellsTruth ↔ connectionFields task.responseHeaders = ["close".toList] := by
  constructor
  · rintro ⟨close, -, single⟩
    obtain ⟨value, only⟩ := List.length_eq_one_iff.mp
      (Nat.le_antisymm single (List.length_pos_of_mem (close.mpr closes)))
    have isClose := close.mpr closes
    rw [only, List.mem_singleton] at isClose
    rw [only, isClose]
  · intro only
    refine ⟨?_, ?_, ?_⟩
    · rw [only]
      exact iff_of_true (List.mem_singleton_self _) closes
    · rw [only, List.mem_singleton]
      exact fun same => absurd same (by decide)
    · rw [only]
      exact Nat.le_refl _

theorem tellsTruth_of_open {task : Task} (stays : task.closeOnFinish = false) :
    task.TellsTruth ↔ (connectionFields task.responseHeaders).length ≤ 1 ∧
      "close".toList ∉ connectionFields task.responseHeaders := by
  constructor
  · rintro ⟨close, -, single⟩
    exact ⟨single, fun mem => Bool.noConfusion (stays.symm.trans (close.mp mem))⟩
  · rintro ⟨single, absent⟩
    exact ⟨iff_of_false absent (by simp [stays]), fun _ => stays, single⟩

/-! ### The decision -/

def KeepsAlive (task : Task) (connection : Str) (announced : Bool) : Prop :=
  task.version = "1.0".toList ∧ connection = "keep-alive".toList ∧ announced = true

def DecidesClose (task : Task) (connection : Str) (announced : Bool) : Prop :=
  if task.version = "1.0".toList then connection ≠ "keep-alive".toList ∨ announced = false
  else connection = "close".toList ∨ announced = false ∧ task.closeOnFinish = false

instance (task : Task) (connection : Str) (announced : Bool) :
    Decidable (task.KeepsAlive connection announced) :=
  inferInstanceAs (Decidable (_ ∧ _ ∧ _))

instance (task : Task) (connection : Str) (announced : Bool) :
    Decidable (task.DecidesClose connection announced) := by
  unfold DecidesClose
  infer_instance

def ConnectionSettled (task : Task) (connection : Str) (announced : Bool) : Prop :=
  if task.KeepsAlive connection announced then
    connectionFields task.responseHeaders = [] ∧ task.closeOnFinish = false
  else if task.DecidesClose connection announced then
    connectionFields task.responseHeaders = [] ∨
      connectionFields task.responseHeaders = ["close".toList]
  else if task.closeOnFinish = true then
    connectionFields task.responseHeaders = ["close".toList]
  else
    (connectionFields task.responseHeaders).length ≤ 1 ∧
      "close".toList ∉ connectionFields task.responseHeaders

def Normal (headers : List (Str × Str)) : Prop :=
  ∀ header ∈ headers, Str.capitalize header.1 = "Connection".toList →
    header.1 = "Connection".toList

theorem normal_normalizeHeaders (task : Task) : Normal task.normalizeHeaders.responseHeaders := by
  intro header mem named
  obtain ⟨given, -, rfl⟩ := List.mem_map.mp (List.mem_of_mem_filter mem)
  exact (capitalize_headerName_eq_connection given.1).mp named

theorem Normal.addHeader {task : Task} (normal : Normal task.responseHeaders) {name : Str}
    (value : Str) (other : Str.capitalize name ≠ "Connection".toList) :
    Normal (task.addHeader name value).responseHeaders := by
  intro header mem named
  rcases List.mem_append.mp mem with old | last
  · exact normal header old named
  · rw [List.mem_singleton.mp last] at named
    exact absurd named other

theorem Normal.setCloseOnFinish {task : Task} (normal : Normal task.responseHeaders) :
    Normal task.setCloseOnFinish.responseHeaders := by
  intro header mem named
  rw [Task.setCloseOnFinish] at mem
  dsimp only at mem
  split at mem
  · rcases List.mem_append.mp mem with old | last
    · exact normal header old named
    · rw [List.mem_singleton.mp last]
  · exact normal header mem named

/-- The field is added unless there is one. -/
theorem connectionFields_setCloseOnFinish {task : Task} (unwritten : task.wroteHeader = false)
    (normal : Normal task.responseHeaders) :
    connectionFields task.setCloseOnFinish.responseHeaders =
      if connectionFields task.responseHeaders = [] then ["close".toList]
      else connectionFields task.responseHeaders := by
  have none : task.responseHeaders.all
      (fun header => Str.capitalize header.1 ≠ "Connection".toList) = true ↔
        connectionFields task.responseHeaders = [] := by
    rw [List.all_eq_true, connectionFields, List.map_eq_nil_iff, List.filter_eq_nil_iff]
    refine forall₂_congr fun header mem => ?_
    rw [decide_eq_true_iff, decide_eq_true_iff]
    constructor
    · intro other named
      exact other (by rw [named]; decide)
    · exact fun other named => other (normal header mem named)
  rw [setCloseOnFinish]
  dsimp only
  by_cases empty : connectionFields task.responseHeaders = []
  · rw [if_pos ⟨unwritten, none.mpr empty⟩, if_pos empty, connectionFields_append, empty]
    rfl
  · rw [if_neg (fun both => empty (none.mp both.2)), if_neg empty]

theorem connectionFields_decideChunked {task : Task} (unwritten : task.wroteHeader = false)
    (normal : Normal task.responseHeaders) :
    connectionFields task.decideChunked.responseHeaders =
      if task.closeOnFinish = false ∧ connectionFields task.responseHeaders = [] then
        ["close".toList]
      else connectionFields task.responseHeaders := by
  have rest : ∀ other : Task, other.wroteHeader = false → Normal other.responseHeaders →
      other.closeOnFinish = task.closeOnFinish →
      connectionFields other.responseHeaders = connectionFields task.responseHeaders →
      connectionFields
          (if other.closeOnFinish = false then other.setCloseOnFinish else other).responseHeaders =
        if task.closeOnFinish = false ∧ connectionFields task.responseHeaders = [] then
          ["close".toList]
        else connectionFields task.responseHeaders := by
    intro other pending names flag fields
    rw [flag]
    by_cases stays : task.closeOnFinish = false
    · rw [if_pos stays, connectionFields_setCloseOnFinish pending names, fields]
      simp only [stays, true_and]
    · rw [if_neg stays, if_neg (fun both => stays both.1), fields]
  unfold decideChunked
  dsimp only
  split
  · refine rest _ unwritten ?_ rfl (connectionFields_addHeader _ (by decide))
    exact normal.addHeader _ (by decide)
  · exact rest task unwritten normal rfl rfl

theorem decideConnection_keepsAlive {task : Task} {connection : Str} {announced : Bool}
    (keeps : task.KeepsAlive connection announced) :
    task.decideConnection connection announced =
      task.addHeader "Connection".toList "Keep-Alive".toList := by
  obtain ⟨old, same, some⟩ := keeps
  rw [decideConnection, if_pos old, if_pos same, some]
  rfl

theorem decideConnection_decided {task : Task} (unwritten : task.wroteHeader = false)
    (normal : Normal task.responseHeaders) {connection : Str} {announced : Bool}
    (decides : task.DecidesClose connection announced) :
    (task.decideConnection connection announced).closeOnFinish = true ∧
      connectionFields (task.decideConnection connection announced).responseHeaders =
        if connectionFields task.responseHeaders = [] then ["close".toList]
        else connectionFields task.responseHeaders := by
  have closed := connectionFields_setCloseOnFinish unwritten normal
  unfold DecidesClose at decides
  unfold decideConnection
  by_cases old : task.version = "1.0".toList
  · rw [if_pos old] at decides ⊢
    rcases decides with other | silent
    · rw [if_neg other]
      exact ⟨rfl, closed⟩
    · rw [if_pos silent]
      split
      · exact ⟨rfl, closed⟩
      · exact ⟨rfl, closed⟩
  · rw [if_neg old] at decides ⊢
    dsimp only
    by_cases asks : connection = "close".toList
    · rw [if_pos asks]
      split
      · refine ⟨closeOnFinish_decideChunked _, ?_⟩
        have chunked := connectionFields_decideChunked
          (show task.setCloseOnFinish.wroteHeader = false from unwritten) normal.setCloseOnFinish
        rw [if_neg (fun both => Bool.noConfusion both.1)] at chunked
        exact chunked.trans closed
      · exact ⟨rfl, closed⟩
    · obtain ⟨silent, stays⟩ := decides.resolve_left asks
      rw [if_neg asks, if_pos silent]
      refine ⟨closeOnFinish_decideChunked _, ?_⟩
      rw [connectionFields_decideChunked unwritten normal]
      simp only [stays, true_and]

theorem decideConnection_leaves {task : Task} (unwritten : task.wroteHeader = false)
    (normal : Normal task.responseHeaders) {connection : Str} {announced : Bool}
    (notKept : ¬ task.KeepsAlive connection announced)
    (undecided : ¬ task.DecidesClose connection announced) :
    (task.decideConnection connection announced).closeOnFinish = task.closeOnFinish ∧
      connectionFields (task.decideConnection connection announced).responseHeaders =
        connectionFields task.responseHeaders := by
  unfold KeepsAlive at notKept
  unfold DecidesClose at undecided
  unfold decideConnection
  by_cases old : task.version = "1.0".toList
  · rw [if_pos old] at undecided
    obtain ⟨same, some⟩ := not_or.mp undecided
    exact absurd ⟨old, not_not.mp same, by simpa using some⟩ notKept
  · rw [if_neg old] at undecided ⊢
    obtain ⟨other, goesOn⟩ := not_or.mp undecided
    dsimp only
    rw [if_neg other]
    split
    · rename_i silent
      have closes : task.closeOnFinish = true := by
        by_contra stays
        exact goesOn ⟨silent, by simpa using stays⟩
      refine ⟨(closeOnFinish_decideChunked _).trans closes.symm, ?_⟩
      rw [connectionFields_decideChunked unwritten normal, if_neg (by simp [closes])]
    · exact ⟨rfl, rfl⟩

theorem decideConnection_tellsTruth {task : Task} (unwritten : task.wroteHeader = false)
    (normal : Normal task.responseHeaders) (connection : Str) (announced : Bool) :
    (task.decideConnection connection announced).TellsTruth ↔
      task.ConnectionSettled connection announced := by
  unfold ConnectionSettled
  by_cases keeps : task.KeepsAlive connection announced
  · have fields : connectionFields
        (task.addHeader "Connection".toList "Keep-Alive".toList).responseHeaders =
          connectionFields task.responseHeaders ++ ["Keep-Alive".toList] :=
      connectionFields_append _ _
    rw [if_pos keeps, decideConnection_keepsAlive keeps]
    constructor
    · rintro ⟨-, keepAlive, single⟩
      rw [fields] at keepAlive single
      refine ⟨List.length_eq_zero_iff.mp ?_, keepAlive List.mem_concat_self⟩
      rw [List.length_append, List.length_singleton] at single
      omega
    · rintro ⟨empty, stays⟩
      have open_ : (task.addHeader "Connection".toList "Keep-Alive".toList).closeOnFinish = false :=
        stays
      apply (tellsTruth_of_open open_).mpr
      rw [fields, empty]
      decide
  rw [if_neg keeps]
  by_cases decides : task.DecidesClose connection announced
  · obtain ⟨closes, fields⟩ := decideConnection_decided unwritten normal decides
    rw [if_pos decides, tellsTruth_of_close closes, fields]
    split
    · rename_i empty
      exact iff_of_true rfl (.inl empty)
    · rename_i some
      exact ⟨.inr, fun either => either.resolve_left some⟩
  rw [if_neg decides]
  obtain ⟨flag, fields⟩ := decideConnection_leaves unwritten normal keeps decides
  split
  · rename_i closes
    rw [tellsTruth_of_close (flag.trans closes), fields]
  · rename_i stays
    rw [tellsTruth_of_open (flag.trans (by simpa using stays)), fields]

/-! ### The block -/

theorem TellsTruth.congr {task other : Task} (flag : other.closeOnFinish = task.closeOnFinish)
    (fields : connectionFields other.responseHeaders = connectionFields task.responseHeaders) :
    other.TellsTruth ↔ task.TellsTruth := by
  constructor
  · rintro ⟨close, keepAlive, single⟩
    rw [flag, fields] at *
    exact ⟨close, keepAlive, single⟩
  · rintro ⟨close, keepAlive, single⟩
    rw [← flag, ← fields] at *
    exact ⟨close, keepAlive, single⟩

theorem ConnectionSettled.congr {task other : Task} (version : other.version = task.version)
    (flag : other.closeOnFinish = task.closeOnFinish)
    (fields : connectionFields other.responseHeaders = connectionFields task.responseHeaders)
    (connection : Str) (announced : Bool) :
    other.ConnectionSettled connection announced ↔ task.ConnectionSettled connection announced := by
  have keeps : other.KeepsAlive connection announced ↔ task.KeepsAlive connection announced := by
    rw [KeepsAlive, KeepsAlive, version]
  have decides : other.DecidesClose connection announced ↔
      task.DecidesClose connection announced := by
    rw [DecidesClose, DecidesClose, version, flag]
  unfold ConnectionSettled
  rw [fields, flag]
  by_cases kept : task.KeepsAlive connection announced
  · rw [if_pos kept, if_pos (keeps.mpr kept)]
  rw [if_neg kept, if_neg (mt keeps.mp kept)]
  by_cases decided : task.DecidesClose connection announced
  · rw [if_pos decided, if_pos (decides.mpr decided)]
  · rw [if_neg decided, if_neg (mt decides.mp decided)]

def ConnectionReady (task : Task) : Prop :=
  task.normalizeHeaders.ConnectionSettled
    (Str.lower (task.request.headers.getD "CONNECTION".toList []))
    (!falsy task.normalizeHeaders.contentLengthHeader)

theorem normal_addContentLength {task : Task} (normal : Normal task.responseHeaders) :
    Normal task.addContentLength.responseHeaders := by
  rw [addContentLength]
  split
  · cases task.contentLength with
    | none => exact normal
    | some length => exact normal.addHeader _ (by decide)
  · exact normal

theorem connectionFields_addContentLength (task : Task) :
    connectionFields task.addContentLength.responseHeaders =
      connectionFields task.responseHeaders := by
  rw [addContentLength]
  split
  · cases task.contentLength with
    | none => rfl
    | some length => exact connectionFields_addHeader _ (by decide)
  · rfl

theorem connectionFields_addServer (task : Task) (ident serverHeader : Option Str) :
    connectionFields (task.addServer ident serverHeader).responseHeaders =
      connectionFields task.responseHeaders := by
  rw [addServer]
  split
  · split
    · rfl
    · exact connectionFields_addHeader _ (by decide)
  · exact connectionFields_addHeader _ (by decide)

theorem connectionFields_addDate (task : Task) (date : Str) (dateHeader : Option Str) :
    connectionFields (task.addDate date dateHeader).responseHeaders =
      connectionFields task.responseHeaders := by
  rw [addDate]
  split
  · exact connectionFields_addHeader _ (by decide)
  · rfl

theorem headerBlock_tellsTruth (context : TaskContext) {task : Task}
    (unwritten : task.wroteHeader = false) :
    (task.headerBlock context).TellsTruth ↔ task.ConnectionReady := by
  have frame := frame_addContentLength task.normalizeHeaders
  have version : task.normalizeHeaders.addContentLength.version = task.normalizeHeaders.version :=
    (congrArg Task.version frame :)
  have pending : task.normalizeHeaders.addContentLength.wroteHeader = false :=
    (congrArg Task.wroteHeader frame :).trans unwritten
  rw [headerBlock, TellsTruth.congr (flags_addDate _ _ _).1 (connectionFields_addDate _ _ _),
    TellsTruth.congr (flags_addServer _ _ _).1 (connectionFields_addServer _ _ _),
    decideConnection_tellsTruth pending (normal_addContentLength (normal_normalizeHeaders task)),
    ConnectionSettled.congr version (flags_addContentLength _).1
      (connectionFields_addContentLength _)]
  rfl

/-- A block tells the truth exactly if what was decided before it agrees with what it decides. -/
theorem buildResponseHeader_tellsTruth_iff (context : TaskContext) {task after : Task}
    {block : Bytes} (unwritten : task.wroteHeader = false)
    (built : exec (buildResponseHeader context) task = (.ok block, after)) :
    encodeLatin1 after.renderHeader = .ok block ∧ (after.TellsTruth ↔ task.ConnectionReady) := by
  rw [exec_buildResponseHeader] at built
  split at built
  · cases (Prod.mk.inj built).1
  · obtain ⟨encoded, rfl⟩ := Prod.mk.inj built
    exact ⟨encoded, headerBlock_tellsTruth context unwritten⟩

/-- A client of the old version that wants to keep the connection, and three bytes for it. -/
def keepingTask [CPython] : Task :=
  let stream := ascii "GET / HTTP/1.0\r\nConnection: keep-alive\r\n\r\n"
  { Task.new (({} : HTTPRequestParser).received {} stream).1 with
    status := "200 OK".toList
    contentLength := some 3 }

def keepingBlock : Bytes :=
  ascii "HTTP/1.0 200 OK\r\nConnection: Keep-Alive\r\nContent-Length: 3\r\nDate: \r\nServer: waitress\r\n\r\n"

theorem buildResponseHeader_tellsTruth_sample :
    let _ : CPython := .unchecked
    ∃ after : Task,
      exec (buildResponseHeader { date := [] }) keepingTask = (.ok keepingBlock, after) ∧
        encodeLatin1 after.renderHeader = .ok keepingBlock ∧ after.TellsTruth := by
  intro cpython
  have result : (exec (buildResponseHeader { date := [] }) keepingTask).1 = .ok keepingBlock := by
    decide +kernel
  have keeps : keepingTask.normalizeHeaders.KeepsAlive
      (Str.lower (keepingTask.request.headers.getD "CONNECTION".toList []))
      (!falsy keepingTask.normalizeHeaders.contentLengthHeader) := by decide +kernel
  have ready : keepingTask.ConnectionReady := by
    rw [ConnectionReady, ConnectionSettled, if_pos keeps]
    decide +kernel
  obtain ⟨encoded, truth⟩ :=
    buildResponseHeader_tellsTruth_iff { date := [] } rfl (Prod.ext result rfl)
  exact ⟨_, Prod.ext result rfl, encoded, truth.mpr ready⟩

/-! ### Tasks that were decided to close -/

theorem connectionReady_of_closed {task : Task} (closes : task.closeOnFinish = true)
    (announces : connectionFields task.normalizeHeaders.responseHeaders = ["close".toList]) :
    task.ConnectionReady ↔
      ¬ task.KeepsAlive (Str.lower (task.request.headers.getD "CONNECTION".toList []))
        (!falsy task.normalizeHeaders.contentLengthHeader) := by
  have flag : task.normalizeHeaders.closeOnFinish = true := closes
  unfold ConnectionReady ConnectionSettled
  rw [announces, flag]
  split
  · rename_i keeps
    exact iff_of_false (fun ready => List.cons_ne_nil _ _ ready.1) (not_not_intro keeps)
  · rename_i other
    refine iff_of_true ?_ other
    split
    · exact .inr rfl
    · exact rfl

def errorReady (context : TaskContext) (request : HTTPRequestParser) (error : Error) : Task :=
  let (status, headers, body) := error.toResponse context.adj.ident
  { setCloseOnFinish { Task.new request with complete := true, status, responseHeaders := headers } with
    contentLength := some (body.length : Int) }

theorem exec_executeError (context : TaskContext) {request : HTTPRequestParser} {error : Error}
    (failed : request.error = some error) (encodes : error.encodable = true) :
    exec (executeError context) (Task.new request) =
      exec (write context (error.toResponse context.adj.ident).2.2)
        (errorReady context request error) := by
  have same : (Task.new request).request.error = some error := failed
  rw [executeError, exec_get_bind, same]
  dsimp only
  rw [if_neg (by rw [encodes]; exact Bool.noConfusion), exec_modify_bind, exec_modify_bind,
    exec_modify_bind]
  rfl

/-- The answer to an error tells the truth unless it is one for which the client of the old
version would keep the connection. -/
theorem errorReady_connectionReady (context : TaskContext) (request : HTTPRequestParser)
    (error : Error) :
    (errorReady context request error).ConnectionReady ↔
      ¬ (errorReady context request error).KeepsAlive
        (Str.lower (request.headers.getD "CONNECTION".toList []))
        (!falsy (errorReady context request error).normalizeHeaders.contentLengthHeader) :=
  connectionReady_of_closed rfl rfl

def keepAliveStream : Bytes :=
  ascii "GET / HTTP/1.0\r\nConnection: keep-alive\r\nContent-Length: x\r\n\r\n"

theorem not_tellsTruth :
    let _ : CPython := .unchecked
    let answered := exec (executeError { date := [] })
      (Task.new (({} : HTTPRequestParser).received {} keepAliveStream).1)
    answered.1 = .ok ⟨⟩ ∧ answered.2.closeOnFinish = true ∧
      answered.2.sentHeaders.map connectionFields =
        some ["close".toList, "Keep-Alive".toList] := by
  decide +kernel

end Task

end Waitress
