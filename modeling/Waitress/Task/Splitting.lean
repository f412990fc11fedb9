import Waitress.Parser.Lines
import Waitress.Parser.Received
import Waitress.Task.Connection
import Waitress.Task.Starting

/-!
# The lines of a header block

A block consists of the status line and of a line for each header, whatever the
application gave.
-/

namespace Waitress

open Raising

/-! ### The text of a block -/

def latin1 (s : Str) : Bytes := s.map fun c => UInt8.ofNat c.toNat

theorem encodeLatin1_eq_ok {s : Str} {bytes : Bytes} (encoded : encodeLatin1 s = .ok bytes) :
    (∀ c ∈ s, c.toNat < 256) ∧ bytes = latin1 s := by
  rw [encodeLatin1] at encoded
  split at encoded
  · next small =>
      refine ⟨fun c mem => of_decide_eq_true (List.all_eq_true.mp small c mem), ?_⟩
      cases encoded
      rfl
  · cases encoded

theorem cleanLine_latin1 {s : Str} (small : ∀ c ∈ s, c.toNat < 256)
    (inline : Str.Of Str.IsInline s) : CleanLine (latin1 s) := by
  have code : ∀ c ∈ s, (UInt8.ofNat c.toNat).toNat = c.toNat := fun c mem =>
    UInt8.toNat_ofNat_of_lt' (small c mem)
  constructor
  · intro feed
    obtain ⟨c, mem, same⟩ := List.mem_map.mp feed
    have codes := (code c mem).symm.trans (congrArg UInt8.toNat same)
    exact (inline c mem).1 (Char.toNat_inj.mp codes)
  · intro ret
    obtain ⟨c, mem, same⟩ := List.mem_map.mp ret
    have codes := (code c mem).symm.trans (congrArg UInt8.toNat same)
    exact (inline c mem).2 (Char.toNat_inj.mp codes)

namespace Task

def headerLine (header : Str × Str) : Str := header.1 ++ ": ".toList ++ header.2

def statusLine (task : Task) : Str :=
  "HTTP/".toList ++ task.version ++ " ".toList ++ task.status

def sortedHeaders (headers : List (Str × Str)) : List (Str × Str) :=
  headers.insertionSort fun first second => first.1 ≤ second.1

def blockLines (task : Task) : List Str :=
  task.statusLine :: (sortedHeaders task.responseHeaders).map headerLine

/-- The text of a block is the block of its lines. -/
theorem latin1_join (line : Str) (lines : List Str) :
    latin1 (Str.join "\r\n".toList (line :: lines) ++ "\r\n\r\n".toList) =
      blockOf ((line :: lines).map latin1) := by
  have newline : latin1 "\r\n".toList = crlf := by decide
  induction lines generalizing line with
  | nil =>
      have ends : latin1 "\r\n\r\n".toList = crlf ++ crlf := by decide
      rw [latin1, List.map_append]
      exact congrArg (latin1 line ++ ·) ends
  | cons line' lines inductionHypothesis =>
      rw [Str.join, List.append_assoc, List.append_assoc, latin1, List.map_append, List.map_append]
      · exact congrArg (latin1 line ++ ·)
          (congrArg₂ (· ++ ·) newline (inductionHypothesis line'))
      · exact List.cons_ne_nil _ _

/-! ### The order of the headers -/

/-- Sorting keeps the order of the headers with the same name. -/
theorem sortedHeaders_filter (headers : List (Str × Str)) (name : Str) :
    (sortedHeaders headers).filter (fun header => header.1 = name) =
      headers.filter fun header => header.1 = name := by
  have sorted : (headers.filter fun header => header.1 = name).Pairwise
      fun first second => first.1 ≤ second.1 := by
    refine List.pairwise_of_forall_mem_list fun first inFirst second inSecond => ?_
    have firstName : first.1 = name := of_decide_eq_true (List.mem_filter.mp inFirst).2
    have secondName : second.1 = name := of_decide_eq_true (List.mem_filter.mp inSecond).2
    exact le_of_eq (firstName.trans secondName.symm)
  have kept : (headers.filter fun header => header.1 = name).Sublist (sortedHeaders headers) :=
    List.sublist_insertionSort sorted List.filter_sublist
  have inside : (headers.filter fun header => header.1 = name).Sublist
      ((sortedHeaders headers).filter fun header => header.1 = name) := by
    have filtered := kept.filter fun header => decide (header.1 = name)
    simp only [List.filter_filter, Bool.and_self] at filtered
    exact filtered
  have same : ((sortedHeaders headers).filter fun header => header.1 = name).length =
      (headers.filter fun header => header.1 = name).length :=
    ((List.perm_insertionSort _ headers).filter _).length_eq
  exact (inside.eq_of_length same.symm).symm

def normalHeader (header : Str × Str) : Str × Str := (headerName header.1, header.2)

/-- The headers that the application gave stand in their order among those that the program
added; a length may be missing. -/
def KeepsOrder (given headers : List (Str × Str)) : Prop :=
  ∃ (keeps : Str → Bool) (before behind : List (Str × Str)),
    headers.map normalHeader =
        before ++ (given.map normalHeader).filter (fun header => keeps header.1) ++ behind ∧
      ∀ name, name ≠ "Content-Length".toList → keeps name = true

namespace KeepsOrder

variable {given headers : List (Str × Str)}

theorem started (earlier headers : List (Str × Str)) : KeepsOrder headers (earlier ++ headers) :=
  ⟨fun _ => true, earlier.map normalHeader, [], by simp, fun _ _ => rfl⟩

theorem nothing (headers : List (Str × Str)) : KeepsOrder [] headers :=
  ⟨fun _ => true, headers.map normalHeader, [], by simp, fun _ _ => rfl⟩

theorem append (keeps : KeepsOrder given headers) (more : List (Str × Str)) :
    KeepsOrder given (headers ++ more) := by
  obtain ⟨keeps, before, behind, order, others⟩ := keeps
  refine ⟨keeps, before, behind ++ more.map normalHeader, ?_, others⟩
  rw [List.map_append, order, List.append_assoc _ behind]

theorem filter (keeps : KeepsOrder given headers) {test : Str × Str → Bool} {leaves : Str → Bool}
    (byName : ∀ header ∈ headers, test header = leaves (headerName header.1))
    (lengths : ∀ name, name ≠ "Content-Length".toList → leaves name = true) :
    KeepsOrder given (headers.filter test) := by
  obtain ⟨keeps, before, behind, order, others⟩ := keeps
  refine ⟨fun name => keeps name && leaves name, before.filter fun header => leaves header.1,
    behind.filter fun header => leaves header.1, ?_, ?_⟩
  · have mapped : (headers.filter test).map normalHeader =
        (headers.map normalHeader).filter fun header => leaves header.1 := by
      rw [List.filter_map]
      exact congrArg _ (List.filter_congr byName)
    rw [mapped, order, List.filter_append, List.filter_append, List.filter_filter]
    congr 3
    funext header
    exact Bool.and_comm _ _
  · intro name other
    exact Bool.and_eq_true_iff.mpr ⟨others name other, lengths name other⟩

end KeepsOrder

theorem normalHeader_normalHeader (header : Str × Str) :
    normalHeader (normalHeader header) = normalHeader header :=
  Prod.ext (headerName_headerName header.1) rfl

theorem KeepsOrder.normalizeHeaders {given : List (Str × Str)} {task : Task}
    (keeps : KeepsOrder given task.responseHeaders) :
    KeepsOrder given task.normalizeHeaders.responseHeaders := by
  have normal : KeepsOrder given (task.responseHeaders.map normalHeader) := by
    obtain ⟨keeps, before, behind, order, others⟩ := keeps
    refine ⟨keeps, before, behind, ?_, others⟩
    rw [List.map_map, ← order]
    exact List.map_congr_left fun header _ => normalHeader_normalHeader header
  let leaves : Str → Bool := fun name => !(name = "Content-Length".toList && !task.hasBody)
  refine @KeepsOrder.filter _ _ normal _ leaves ?_ ?_
  · intro header mem
    obtain ⟨original, -, rfl⟩ := List.mem_map.mp mem
    rw [normalHeader, headerName_headerName]
  · intro name other
    rw [show leaves name = !(decide (name = "Content-Length".toList) && !task.hasBody) from rfl,
      decide_eq_false other]
    rfl

theorem KeepsOrder.removeContentLengthHeader {given : List (Str × Str)} {task : Task}
    (keeps : KeepsOrder given task.responseHeaders) :
    KeepsOrder given task.removeContentLengthHeader.responseHeaders := by
  let leaves : Str → Bool := fun name => decide (name ≠ "Content-Length".toList)
  refine @KeepsOrder.filter _ _ keeps _ leaves ?_ ?_
  · intro header _
    rw [decide_eq_decide, Ne, Ne, headerName_eq_contentLength]
  · exact fun name other => decide_eq_true other

/-- Headers with capitalized names were added behind the others. -/
def Extends (task after : Task) : Prop :=
  ∃ more, after.responseHeaders = task.responseHeaders ++ more ∧
    ∀ header ∈ more, headerName header.1 = header.1

namespace Extends

variable {task middle after : Task}

theorem refl (task : Task) : task.Extends task :=
  ⟨[], (List.append_nil _).symm, fun _ mem => absurd mem List.not_mem_nil⟩

theorem trans (first : task.Extends middle) (second : middle.Extends after) : task.Extends after := by
  obtain ⟨more, headers, names⟩ := first
  obtain ⟨most, headers', names'⟩ := second
  refine ⟨more ++ most, ?_, List.forall_mem_append.mpr ⟨names, names'⟩⟩
  rw [headers', headers, List.append_assoc]

theorem addHeader (task : Task) {name : Str} (value : Str) (normal : headerName name = name) :
    task.Extends (task.addHeader name value) :=
  ⟨[(name, value)], rfl, List.forall_mem_singleton.mpr normal⟩

theorem setCloseOnFinish (task : Task) : task.Extends task.setCloseOnFinish := by
  unfold Extends Task.setCloseOnFinish
  dsimp only
  split
  · exact ⟨_, rfl, by decide⟩
  · exact refl task

theorem addContentLength (task : Task) : task.Extends task.addContentLength := by
  rw [Task.addContentLength]
  split
  · cases task.contentLength with
    | none => exact refl task
    | some length => exact addHeader task _ (by decide)
  · exact refl task

theorem decideChunked (task : Task) : task.Extends task.decideChunked := by
  have closes : ∀ other : Task, other.Extends
      (if other.closeOnFinish = false then other.setCloseOnFinish else other) := by
    intro other
    split
    · exact setCloseOnFinish other
    · exact refl other
  unfold Task.decideChunked
  dsimp only
  split
  · exact (addHeader task "chunked".toList (by decide)).trans (closes
      { task.addHeader "Transfer-Encoding".toList "chunked".toList with chunkedResponse := true })
  · exact closes task

theorem decideConnection (task : Task) (connection : Str) (announced : Bool) :
    task.Extends (task.decideConnection connection announced) := by
  have closed := setCloseOnFinish task
  unfold Task.decideConnection
  dsimp only
  split
  · split
    · split
      · exact closed
      · exact addHeader task _ (by decide)
    · exact closed
  · split
    · split
      · exact closed.trans (decideChunked _)
      · exact decideChunked task
    · split
      · exact closed
      · exact refl task

theorem addServer (task : Task) (ident serverHeader : Option Str) :
    task.Extends (task.addServer ident serverHeader) := by
  unfold Task.addServer
  split
  · split
    · exact refl task
    · exact addHeader task _ (by decide)
  · exact addHeader task _ (by decide)

theorem addDate (task : Task) (date : Str) (dateHeader : Option Str) :
    task.Extends (task.addDate date dateHeader) := by
  unfold Task.addDate
  split
  · exact addHeader task _ (by decide)
  · exact refl task

theorem headerBlock (context : TaskContext) (task : Task) :
    task.normalizeHeaders.Extends (task.headerBlock context) := by
  unfold Task.headerBlock
  apply trans _ (addDate _ _ _)
  apply trans _ (addServer _ _ _)
  apply trans _ (decideConnection _ _ _)
  exact addContentLength _

end Extends

theorem KeepsOrder.of_extends {given : List (Str × Str)} {task after : Task}
    (keeps : KeepsOrder given task.responseHeaders) (grows : task.Extends after) :
    KeepsOrder given after.responseHeaders := by
  obtain ⟨more, headers, -⟩ := grows
  exact headers ▸ keeps.append more

/-- The names in a block are capitalized. -/
theorem headerBlock_normal (context : TaskContext) (task : Task) :
    (task.headerBlock context).responseHeaders.map normalHeader =
      (task.headerBlock context).responseHeaders := by
  obtain ⟨more, headers, names⟩ := Extends.headerBlock context task
  refine (List.map_congr_left fun header mem => ?_).trans (List.map_id _)
  rw [headers] at mem
  refine Prod.ext ?_ rfl
  rcases List.mem_append.mp mem with normalized | added
  · obtain ⟨original, -, rfl⟩ := List.mem_map.mp (List.mem_of_mem_filter normalized)
    exact headerName_headerName original.1
  · exact names header added

end Task

/-! ### The capitalized names -/

namespace Str

theorem mem_join_of_mem {separator part : Str} {parts : List Str} (mem : part ∈ parts) {c : Char}
    (inside : c ∈ part) : c ∈ join separator parts := by
  induction parts with
  | nil => cases mem
  | cons first parts inductionHypothesis =>
      cases parts with
      | nil =>
          obtain rfl := List.mem_singleton.mp mem
          exact inside
      | cons second others =>
          rw [join]
          · rcases List.mem_cons.mp mem with rfl | later
            · exact List.mem_append_left _ (List.mem_append_left _ inside)
            · exact List.mem_append_right _ (inductionHypothesis later)
          · exact List.cons_ne_nil _ _

theorem isInline_iff {c : Char} : IsInline c ↔ c.toNat ≠ 10 ∧ c.toNat ≠ 13 := by
  rw [IsInline, Ne, Ne, ← Char.toNat_inj, ← Char.toNat_inj]
  rfl

theorem isInline_lowerChar {c : Char} (inline : IsInline c) : IsInline (lowerChar c) := by
  rw [isInline_iff] at inline
  rw [isInline_iff, lowerChar_toNat]
  split_ifs <;> omega

theorem isInline_titleChar {c : Char} (inline : IsInline c) : Of IsInline (titleChar c) := by
  have special : ∀ entry ∈ titleSpecial, Of IsInline entry.2 := by decide
  rcases titleChar_cases c with ⟨title, small⟩ | listed | ⟨title, -⟩
  · rw [title]
    refine List.forall_mem_singleton.mpr (isInline_iff.mpr ?_)
    rw [toNat_ofNat (by omega)]
    omega
  · exact special _ listed
  · rw [title]
    exact List.forall_mem_singleton.mpr inline

theorem isInline_headerName {name : Str} (inline : Of IsInline name) :
    Of IsInline (Task.headerName name) := by
  refine of_join (by decide) fun part mem => ?_
  obtain ⟨original, inSplit, rfl⟩ := List.mem_map.mp mem
  have inlinePart : Of IsInline original := by
    intro c inside
    apply inline
    rw [← join_split '-' name]
    exact mem_join_of_mem inSplit inside
  cases original with
  | nil => exact fun c contrary => absurd contrary List.not_mem_nil
  | cons c rest =>
      obtain ⟨first, others⟩ := List.forall_mem_cons.mp inlinePart
      refine of_append.mpr ⟨isInline_titleChar first, fun d lowered => ?_⟩
      obtain ⟨e, mem, rfl⟩ := List.mem_map.mp lowered
      exact isInline_lowerChar (others e mem)

end Str

/-! ### What a task may be given -/

/-- The states that a task comes to, with the headers that the application gave last. -/
inductive Supplied (context : TaskContext) : List (Str × Str) → Task → Prop where
  | new (request : HTTPRequestParser) : Supplied context [] (Task.new request)
  | failed (request : HTTPRequestParser) {error : Error} : error.HasClass →
      Supplied context (error.toResponse context.adj.ident).2.1
        (Task.errorReady context request error)
  | started {given : List (Str × Str)} {task after : Task} {status : Str}
      {headers : List (Str × Str)} {excInfo : Option Exc} : Supplied context given task →
      exec (startResponse status headers excInfo) task = (.ok (), after) →
      Supplied context headers after
  /-- A call that is refused may have taken the earlier headers away. -/
  | refused {given : List (Str × Str)} {task after : Task} {status : Str}
      {headers : List (Str × Str)} {excInfo : Option Exc} {exc : Exc} :
      Supplied context given task →
      exec (startResponse status headers excInfo) task = (.error exc, after) →
      Supplied context (if after.responseHeaders = [] then [] else given) after
  | sized {given : List (Str × Str)} {task : Task} (contentLength : Option Int) :
      Supplied context given task → Supplied context given { task with contentLength }
  | closed {given : List (Str × Str)} {task : Task} : Supplied context given task →
      Supplied context given task.setCloseOnFinish
  | filed {given : List (Str × Str)} {task : Task} (size : Int) :
      Supplied context given task → Supplied context given (task.setFileLength size)
  | wrote {given : List (Str × Str)} {task : Task} (data : Bytes) :
      Supplied context given task →
      Supplied context given (exec (write context data) task).2
  /-- The body of a file and the last chunk are handed over without `write`. -/
  | sent {given : List (Str × Str)} {task : Task} (calls : Nat) (sentBody : Bytes) :
      Supplied context given task → Supplied context given { task with calls, sentBody }

/-- What is known of such a state. -/
structure Task.Orderly (given : List (Str × Str)) (task : Task) : Prop where
  version : Str.Of Str.IsInline task.version
  status : Str.Of Str.IsInline task.status
  texts : Task.Texts Str.IsInline task.responseHeaders
  order : Task.KeepsOrder given task.responseHeaders

/-- What the lines of a block are made of. -/
def Task.lineView (task : Task) : Str × Str × List (Str × Str) :=
  (task.version, task.status, task.responseHeaders)

section Orderly

variable {context : TaskContext} {given : List (Str × Str)} {task after : Task}

theorem Task.Orderly.of_view (orderly : task.Orderly given) (same : after.lineView = task.lineView) :
    after.Orderly given := by
  obtain ⟨version, status, headers⟩ : after.version = task.version ∧ after.status = task.status ∧
      after.responseHeaders = task.responseHeaders := by simpa [Task.lineView] using same
  constructor
  · exact version ▸ orderly.version
  · exact status ▸ orderly.status
  · exact headers ▸ orderly.texts
  · exact headers ▸ orderly.order

theorem Task.Orderly.setCloseOnFinish (orderly : task.Orderly given) :
    task.setCloseOnFinish.Orderly given where
  version := orderly.version
  status := orderly.status
  texts := orderly.texts.setCloseOnFinish Str.IsPlain.isInline
  order := orderly.order.of_extends (.setCloseOnFinish task)

theorem Task.Orderly.normalizeHeaders (orderly : task.Orderly given) :
    task.normalizeHeaders.Orderly given where
  version := orderly.version
  status := orderly.status
  texts := by
    intro header mem
    obtain ⟨original, inside, rfl⟩ := List.mem_map.mp (List.mem_of_mem_filter mem)
    obtain ⟨name, value⟩ := orderly.texts original inside
    exact ⟨Str.isInline_headerName name, value⟩
  order := orderly.order.normalizeHeaders

variable (named : ∀ name ∈ context.adj.ident, Str.Of Str.IsInline name)
  (dated : Str.Of Str.IsInline context.date)

include named dated

theorem Task.Orderly.headerBlock (orderly : task.Orderly given) :
    (task.headerBlock context).Orderly given := by
  have frame := Task.frame_headerBlock context task
  constructor
  · exact (congrArg Task.version frame :) ▸ orderly.version
  · exact (congrArg Task.status frame :) ▸ orderly.status
  · exact orderly.normalizeHeaders.texts.headerBlock Str.IsPlain.isInline named dated
  · exact orderly.normalizeHeaders.order.of_extends (.headerBlock context task)

theorem Task.Orderly.write (orderly : task.Orderly given) (data : Bytes) :
    (exec (write context data) task).2.Orderly given := by
  have written : ∀ other : Task, other.Orderly given →
      (exec (writeData context data) other).2.Orderly given := fun other others =>
    others.of_view (Eq.symm (within_writeData context (SameView Task.lineView)
      (fun _ _ _ _ _ => rfl) data other))
  have block := orderly.headerBlock named dated
  rw [Waitress.write, exec_get_bind]
  split
  · exact orderly
  rw [exec_bind]
  cases pending : task.wroteHeader with
  | true =>
      rw [exec_writeHeader_again context task pending]
      exact written task orderly
  | false =>
      rcases exec_writeHeader context task pending with ⟨exc, outcome⟩ | ⟨exc, outcome⟩ |
        ⟨exc, outcome⟩ | outcome <;> rw [outcome]
      · -- The version is not supported.
        have frame := Task.frame_addContentLength task.normalizeHeaders
        constructor
        · exact (congrArg Task.version frame :) ▸ orderly.version
        · exact (congrArg Task.status frame :) ▸ orderly.status
        · exact orderly.normalizeHeaders.texts.addContentLength Str.IsPlain.isInline
        · exact orderly.normalizeHeaders.order.of_extends (.addContentLength _)
      · exact block
      · exact block.of_view rfl
      · exact written _ (block.of_view rfl)

omit named dated in
theorem Task.Orderly.setResponse_ok {status : Str} {headers : List (Str × Str)}
    (orderly : task.Orderly given)
    (accepted : exec (setResponse status headers) task = (.ok (), after)) :
    after.Orderly headers := by
  obtain ⟨inline, outcome, rfl⟩ := exec_setResponse_ok accepted
  constructor
  · exact orderly.version
  · exact inline
  · exact Task.texts_append.mpr ⟨orderly.texts, headersOutcome_ok outcome⟩
  · exact Task.KeepsOrder.started _ headers

omit named dated in
theorem Task.Orderly.setResponse_error {status : Str} {headers : List (Str × Str)} {exc : Exc}
    (orderly : task.Orderly given)
    (refused : exec (setResponse status headers) task = (.error exc, after)) :
    after.Orderly given ∧ after.responseHeaders = task.responseHeaders := by
  rw [exec_setResponse] at refused
  split at refused
  · obtain ⟨-, rfl⟩ := Prod.mk.inj refused
    exact ⟨orderly.of_view rfl, rfl⟩
  · next inline =>
      obtain ⟨outcome, rfl⟩ := Prod.mk.inj refused
      have kept : (if (headersOutcome headers).1 = .ok () then task.responseHeaders ++ headers
          else task.responseHeaders) = task.responseHeaders :=
        if_neg (by rw [outcome]; exact fun contrary => by cases contrary)
      refine ⟨⟨orderly.version, Str.of_isInline.mpr inline, ?_, ?_⟩, kept⟩
      · exact Eq.mpr (congrArg (Task.Texts Str.IsInline) kept) orderly.texts
      · exact Eq.mpr (congrArg (Task.KeepsOrder given) kept) orderly.order

omit named dated in
theorem Task.Orderly.cleared (orderly : task.Orderly given) :
    Task.Orderly [] { task with responseHeaders := [] } where
  version := orderly.version
  status := orderly.status
  texts := fun _ mem => absurd mem List.not_mem_nil
  order := Task.KeepsOrder.nothing []

omit named dated in
theorem Task.Orderly.startResponse_ok {status : Str} {headers : List (Str × Str)}
    {excInfo : Option Exc} (orderly : task.Orderly given)
    (accepted : exec (startResponse status headers excInfo) task = (.ok (), after)) :
    after.Orderly headers := by
  rw [startResponse, exec_get_bind] at accepted
  cases excInfo with
  | none =>
      dsimp only at accepted
      split at accepted
      · cases (Prod.mk.inj accepted).1
      · exact orderly.setResponse_ok accepted
  | some exc =>
      dsimp only at accepted
      split at accepted
      · cases (Prod.mk.inj accepted).1
      · rw [exec_modify_bind] at accepted
        exact orderly.cleared.setResponse_ok accepted

omit named dated in
theorem Task.Orderly.startResponse_error {status : Str} {headers : List (Str × Str)}
    {excInfo : Option Exc} {exc : Exc} (orderly : task.Orderly given)
    (refused : exec (startResponse status headers excInfo) task = (.error exc, after)) :
    after.Orderly (if after.responseHeaders = [] then [] else given) := by
  have weaken : ∀ {other : Task}, other.Orderly given →
      other.Orderly (if other.responseHeaders = [] then [] else given) := by
    intro other others
    split
    · next none => exact ⟨others.version, others.status, others.texts, KeepsOrder.nothing _⟩
    · exact others
  rw [startResponse, exec_get_bind] at refused
  cases excInfo with
  | none =>
      dsimp only at refused
      split at refused
      · obtain ⟨-, rfl⟩ := Prod.mk.inj refused
        exact weaken orderly
      · exact weaken (orderly.setResponse_error refused).1
  | some raised =>
      dsimp only at refused
      split at refused
      · obtain ⟨-, rfl⟩ := Prod.mk.inj refused
        exact weaken orderly
      · rw [exec_modify_bind] at refused
        obtain ⟨left, none⟩ := orderly.cleared.setResponse_error refused
        rw [if_pos none]
        exact left

omit named dated in
theorem Task.new_version (request : HTTPRequestParser) :
    Str.Of Str.IsInline (Task.new request).version := by
  change Str.Of Str.IsInline (if _ then _ else _)
  split
  · next supported =>
      rcases List.mem_pair.mp supported with version | version <;> rw [version] <;> decide
  · decide

omit named dated in
theorem Task.errorReady_orderly (request : HTTPRequestParser) {error : Error}
    (hasClass : error.HasClass) :
    (Task.errorReady context request error).Orderly
      (error.toResponse context.adj.ident).2.1 := by
  have reasons : ∀ entry ∈ Error.classes, Str.Of Str.IsInline entry.2 := by decide
  have blank : Str.Of Str.IsInline " ".toList := by decide
  have code : Str.Of Str.IsInline (natStr error.code) :=
    (natStr_plain error.code).mono Str.IsPlain.isInline
  have ready : Task.Orderly (error.toResponse context.adj.ident).2.1
      { Task.new request with
        complete := true, status := (error.toResponse context.adj.ident).1
        responseHeaders := (error.toResponse context.adj.ident).2.1 } := by
    constructor
    · exact Task.new_version request
    · exact Str.of_append.mpr ⟨Str.of_append.mpr ⟨code, blank⟩, reasons _ hasClass⟩
    · exact List.forall_mem_singleton.mpr ⟨by decide, by decide⟩
    · exact Task.KeepsOrder.started [] _
  exact ready.setCloseOnFinish.of_view rfl

theorem Supplied.orderly (supplied : Supplied context given task) : task.Orderly given := by
  induction supplied with
  | new request =>
      have status : Str.Of Str.IsInline "200 OK".toList := by decide
      exact ⟨Task.new_version request, status, fun _ mem => absurd mem List.not_mem_nil,
        Task.KeepsOrder.nothing []⟩
  | failed request hasClass => exact Task.errorReady_orderly request hasClass
  | started before accepted orderly => exact orderly.startResponse_ok accepted
  | refused before refused orderly => exact orderly.startResponse_error refused
  | sized contentLength before orderly => exact orderly.of_view rfl
  | closed before orderly => exact orderly.setCloseOnFinish
  | filed size before orderly =>
      rw [Task.setFileLength]
      split
      · split
        · exact orderly.of_view rfl
        · constructor
          · exact orderly.version
          · exact orderly.status
          · exact fun header mem => orderly.texts header (List.mem_of_mem_filter mem)
          · exact orderly.order.removeContentLengthHeader
      · exact orderly
  | wrote data before orderly => exact orderly.write named dated data
  | sent calls sentBody before orderly => exact orderly.of_view rfl

end Orderly

/-! ### The states of a run -/

theorem executeWsgi_supplied (context : TaskContext) (application : Call AppIter) :
    Within (Keeps fun task => ∃ given, Supplied context given task) (do
      executeWsgi context application
      finish context) := by
  have writes : ∀ data, Within (Keeps fun task => ∃ given, Supplied context given task)
      (write context data) := fun data task ⟨given, supplied⟩ => ⟨given, supplied.wrote data⟩
  have sends : ∀ task calls sentBody, (∃ given, Supplied context given task) →
      ∃ given, Supplied context given { task with calls, sentBody } :=
    fun task calls sentBody ⟨given, supplied⟩ => ⟨given, supplied.sent calls sentBody⟩
  refine within_bind ?_ fun _ => ?_
  · apply within_anyApplication
    · intro status headers excInfo task ⟨given, supplied⟩
      rcases outcome : exec (startResponse status headers excInfo) task with ⟨exc | ⟨⟩, after⟩
      · exact ⟨_, supplied.refused outcome⟩
      · exact ⟨_, supplied.started outcome⟩
    · exact writes
    · intro len chunk
      refine within_get_bind fun task supplied => ?_
      split
      · obtain ⟨given, supplied⟩ := supplied
        exact ⟨given, supplied.sized _⟩
      · exact supplied
    · refine within_get_bind fun task supplied => ?_
      split
      · exact supplied
      · split
        · obtain ⟨given, supplied⟩ := supplied
          exact ⟨given, supplied.closed⟩
        · exact supplied
    · intro wrapper size
      refine within_bind (within_modify fun task ⟨given, supplied⟩ => ?_) fun _ => ?_
      · exact ⟨given, supplied.filed size⟩
      · refine within_bind (writes []) fun _ => ?_
        split
        · exact within_throw _
        · apply within_writeSoon
          exact fun task => sends task _ _
  · apply within_finish
    · exact writes []
    · exact fun task body => sends task _ body

/-! ### Splitting a block -/

namespace Task.Orderly

variable {given : List (Str × Str)} {task : Task}

theorem inline_blockLines (orderly : task.Orderly given) :
    ∀ line ∈ task.blockLines, Str.Of Str.IsInline line := by
  have http : Str.Of Str.IsInline "HTTP/".toList := by decide
  have blank : Str.Of Str.IsInline " ".toList := by decide
  have colon : Str.Of Str.IsInline ": ".toList := by decide
  refine List.forall_mem_cons.mpr ⟨?_, fun line mem => ?_⟩
  · simp only [statusLine, Str.of_append]
    exact ⟨⟨⟨http, orderly.version⟩, blank⟩, orderly.status⟩
  · obtain ⟨header, listed, rfl⟩ := List.mem_map.mp mem
    obtain ⟨name, value⟩ := orderly.texts header ((List.mem_insertionSort _).mp listed)
    simp only [headerLine, Str.of_append]
    exact ⟨⟨name, colon⟩, value⟩

theorem block_lines (orderly : task.Orderly given)
    (small : ∀ c ∈ task.renderHeader, c.toNat < 256) :
    latin1 task.renderHeader = blockOf (task.blockLines.map latin1) ∧
      ∀ line ∈ task.blockLines.map latin1, CleanLine line ∧ line ≠ [] := by
  refine ⟨latin1_join _ _, fun line mem => ?_⟩
  obtain ⟨text, listed, rfl⟩ := List.mem_map.mp mem
  have smallText : ∀ c ∈ text, c.toNat < 256 := fun c inside =>
    small c (List.mem_append_left _ (Str.mem_join_of_mem listed inside))
  refine ⟨cleanLine_latin1 smallText (orderly.inline_blockLines text listed), fun empty => ?_⟩
  have textEmpty : text = [] := List.map_eq_nil_iff.mp empty
  rcases List.mem_cons.mp listed with status | header
  · rw [textEmpty] at status
    exact absurd status (List.cons_ne_nil _ _).symm
  · obtain ⟨entry, -, same⟩ := List.mem_map.mp header
    rw [textEmpty, headerLine] at same
    simp at same

/-- The entries of a name, in the order of the application among those of the program. -/
theorem entries_own (order : KeepsOrder given task.responseHeaders)
    (normal : task.responseHeaders.map normalHeader = task.responseHeaders) (name : Str) :
    ∃ before own behind,
      (sortedHeaders task.responseHeaders).filter (fun header => header.1 = name) =
          before ++ own ++ behind ∧
        (own = (given.map normalHeader).filter (fun header => header.1 = name) ∨
          name = "Content-Length".toList ∧ own = []) := by
  obtain ⟨keeps, before, behind, whole, others⟩ := order
  rw [normal] at whole
  rw [sortedHeaders_filter, whole, List.filter_append, List.filter_append, List.filter_filter]
  refine ⟨_, _, _, rfl, ?_⟩
  cases kept : keeps name with
  | true =>
      refine .inl (List.filter_congr fun header _ => ?_)
      by_cases same : header.1 = name
      · rw [same, kept, Bool.and_true]
      · rw [decide_eq_false same, Bool.false_and]
  | false =>
      refine .inr ⟨?_, List.filter_eq_nil_iff.mpr fun header _ both => ?_⟩
      · by_contra other
        exact Bool.noConfusion (kept.symm.trans (others name other))
      · obtain ⟨same, keeps⟩ := Bool.and_eq_true_iff.mp both
        rw [of_decide_eq_true same, kept] at keeps
        cases keeps

end Task.Orderly

/-- The bytes of a header block are its lines: neither the status nor a header can add a line,
and the headers of one name keep the order in which the application gave them. -/
theorem buildResponseHeader_splits {context : TaskContext} {given : List (Str × Str)}
    {task after : Task} {block : Bytes} {time : GmTime}
    (named : ∀ name ∈ context.adj.ident, Str.Of Str.IsInline name)
    (dated : context.date = buildHttpDate time) (supplied : Supplied context given task)
    (returned : exec (buildResponseHeader context) task = (.ok block, after)) :
    OnlyCrlf block ∧ findDoubleNewline block = some block.length ∧
      ∃ entries : List (Str × Str), entries.Perm after.responseHeaders ∧
        Bytes.splitLines block =
          (after.statusLine :: entries.map Task.headerLine).map latin1 ++ [[], []] ∧
        ∀ name, ∃ before own behind,
          entries.filter (fun header => header.1 = name) = before ++ own ++ behind ∧
            (own = (given.map Task.normalHeader).filter (fun header => header.1 = name) ∨
              name = "Content-Length".toList ∧ own = []) := by
  have inlineDate : Str.Of Str.IsInline context.date :=
    dated ▸ (buildHttpDate_plain time).mono Str.IsPlain.isInline
  have orderly := (supplied.orderly named inlineDate).headerBlock named inlineDate
  rw [exec_buildResponseHeader] at returned
  split at returned
  · cases (Prod.mk.inj returned).1
  obtain ⟨encoded, rfl⟩ := Prod.mk.inj returned
  obtain ⟨small, rfl⟩ := encodeLatin1_eq_ok encoded
  obtain ⟨block, lines⟩ := orderly.block_lines small
  have clean := fun line mem => (lines line mem).1
  rw [block]
  refine ⟨onlyCrlf_blockOf clean, findDoubleNewline_blockOf clean (fun line mem => (lines line mem).2)
    (List.cons_ne_nil _ _), Task.sortedHeaders (task.headerBlock context).responseHeaders,
    List.perm_insertionSort _ _, ?_, ?_⟩
  · exact splitLines_blockOf clean
  · exact Task.Orderly.entries_own orderly.order (Task.headerBlock_normal context task)

/-- Two cookies under names of different case. -/
theorem buildResponseHeader_splits_sample :
    let context : TaskContext := { date := buildHttpDate ⟨1994, 11, 6, 8, 49, 37, 6⟩ }
    let headers := [("set-cookie".toList, "b=2".toList), ("Accept".toList, "*".toList),
      ("Set-Cookie".toList, "a=1".toList)]
    let task := (exec (startResponse "200 OK".toList headers none) (Task.new {})).2
    ∃ block, (exec (buildResponseHeader context) task).1 = .ok block ∧ OnlyCrlf block ∧
      findDoubleNewline block = some block.length := by
  intro context headers task
  have accepted : exec (startResponse "200 OK".toList headers none) (Task.new {}) = (.ok (), task) :=
    Prod.ext (by decide +kernel) rfl
  have returns : (exec (buildResponseHeader context) task).1.isOk = true := by decide +kernel
  have named : ∀ name ∈ context.adj.ident, Str.Of Str.IsInline name := by
    intro name isName
    cases isName
    decide
  have dated : context.date = buildHttpDate ⟨1994, 11, 6, 8, 49, 37, 6⟩ := rfl
  have supplied : Supplied context headers task := (Supplied.new {}).started accepted
  clear_value task context
  rcases run : exec (buildResponseHeader context) task with ⟨exc | block, after⟩
  · rw [run] at returns
    cases returns
  · obtain ⟨only, ends, -⟩ := buildResponseHeader_splits named dated supplied run
    exact ⟨block, rfl, only, ends⟩

end Waitress
