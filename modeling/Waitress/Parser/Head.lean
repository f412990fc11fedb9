import Waitress.Parser

/-!
# What `parse_header` computes

Equations for the parts of `parseHeader` on heads that they accept.
-/

namespace Waitress

open Raising

theorem exec_parseLines {block firstLine command uri version : Bytes} {index : Nat}
    {lines : List Bytes} {head final : RequestHead}
    (found : Search.find crlf block = some index)
    (stripped : Bytes.rstrip (block.take index) = firstLine)
    (clean : ¬ (13 ∈ firstLine ∨ 10 ∈ firstLine))
    (split : getHeaderLines (block.drop (index + 2)) = .ok lines)
    (fields : exec (forM lines parseHeaderLine) { head with firstLine := some firstLine } =
      (.ok ⟨⟩, final))
    (cracked : crackFirstLine firstLine = .ok (command, uri, version)) (given : command ≠ []) :
    exec (parseLines block) head = (.ok (command, uri, version), final) := by
  subst stripped
  simp only [parseLines, found, clean, if_false, exec_bind, exec_modify, exec_ofExcept, exec_pure,
    split, fields, cracked, given, false_and]

theorem exec_parseTarget [CPython] {adj : Adjustments} {command uri version : Bytes}
    {parts : SplitUri} {head : RequestHead} (split : splitUri uri = .ok parts) :
    exec (parseTarget adj command uri version) head =
      (.ok ⟨⟩,
        { head with
          requestUri := some (decodeLatin1 uri)
          command := some (decodeLatin1 command)
          version := decodeLatin1 version
          proxyScheme := some parts.scheme
          proxyNetloc := some parts.netloc
          path := some parts.path
          query := some parts.query
          fragment := some parts.fragment
          urlScheme := some adj.urlScheme }) := by
  simp only [parseTarget, exec_bind, exec_modify, exec_ofExcept, split]

/-- The head that stands in for one that is too large. -/
theorem exec_parseHeader_stub [CPython] (adj : Adjustments) :
    (exec (parseHeader adj (ascii "GET / HTTP/1.0\r\n")) {}).1 = .ok ⟨⟩ := by
  have lines : exec (parseLines (ascii "GET / HTTP/1.0\r\n")) {} =
      (.ok (ascii "GET", ascii "/", ascii "1.0"),
        { firstLine := some (ascii "GET / HTTP/1.0") }) := by
    have found : Search.find crlf (ascii "GET / HTTP/1.0\r\n") = some 14 := by decide
    have split : getHeaderLines ((ascii "GET / HTTP/1.0\r\n").drop 16) = .ok [] := by
      decide +kernel
    exact exec_parseLines found (by decide) (by decide) split rfl (by decide +kernel) (by decide)
  have target : splitUri (ascii "/") = .ok ⟨[], [], "/".toList, [], []⟩ := rfl
  simp only [parseHeader, exec_bind, lines, exec_parseTarget target]
  rfl

/-! ### What an accepted head has assigned -/

/-- The attributes that the reading of the lines leaves alone. -/
def RequestHead.unread (head : RequestHead) : RequestHead :=
  { head with headers := {}, firstLine := none }

theorem parseHeaderLine_frame (line : Bytes) :
    Within (SameView RequestHead.unread) (parseHeaderLine line) := by
  unfold parseHeaderLine
  split
  · exact within_throw _
  · dsimp only
    split
    · exact within_pure _
    · refine within_bind within_get fun head => ?_
      split
      · exact within_modify fun _ => rfl
      · split
        · exact within_throw _
        · exact within_modify fun _ => rfl

theorem parseLines_frame (block : Bytes) :
    Within (SameView RequestHead.unread) (parseLines block) := by
  unfold parseLines
  split
  · exact within_throw _
  · dsimp only
    split
    · exact within_throw _
    · refine within_bind (within_modify fun _ => rfl) fun _ => ?_
      refine within_bind (within_ofExcept _) fun lines => ?_
      refine within_bind (within_forM _ fun line _ => parseHeaderLine_frame line) fun _ => ?_
      refine within_bind (within_ofExcept _) fun start => ?_
      split
      · exact within_throw _
      · exact within_pure _

def RequestHead.assignTarget (head : RequestHead) (adj : Adjustments) (command uri version : Bytes)
    (parts : SplitUri) : RequestHead :=
  { head with
    requestUri := some (decodeLatin1 uri)
    command := some (decodeLatin1 command)
    version := decodeLatin1 version
    proxyScheme := some parts.scheme
    proxyNetloc := some parts.netloc
    path := some parts.path
    query := some parts.query
    fragment := some parts.fragment
    urlScheme := some adj.urlScheme }

def RequestHead.connection (head : RequestHead) : Str := head.headers.getD "CONNECTION".toList []

/-- Version 1.0 closes the connection unless it is asked to keep it. -/
def RequestHead.assignVersion (head : RequestHead) : RequestHead :=
  { head with
    connectionClose :=
      decide (head.version = "1.0".toList ∧ Str.lower head.connection ≠ "keep-alive".toList) ||
        head.connectionClose }

def RequestHead.popTransferEncoding (head : RequestHead) : RequestHead :=
  { head with headers := head.headers.erase "TRANSFER_ENCODING".toList }

/-- What it assigns when the last transfer coding is `chunked`. -/
def RequestHead.assignChunked (head : RequestHead) (adj : Adjustments) : RequestHead :=
  { head with
    chunked := true
    bodyRcv := some (.chunked { buf := { overflow := adj.inbufOverflow } })
    headers := head.headers.erase "CONTENT_LENGTH".toList
    connectionClose :=
      head.headers.contains "CONTENT_LENGTH".toList || head.connectionClose }

def RequestHead.assignExpectation (head : RequestHead) (connection : Str) : RequestHead :=
  { head with
    expectContinue :=
      decide (Str.lower (head.headers.getD "EXPECT".toList []) = "100-continue".toList)
    connectionClose :=
      decide (Str.lower connection = "close".toList) || head.connectionClose }

def RequestHead.assignLength (head : RequestHead) (adj : Adjustments) (length : Int) :
    RequestHead :=
  { head with
    contentLength := length
    bodyRcv :=
      if length > 0 then
        some (.fixed { remain := length.toNat, buf := { overflow := adj.inbufOverflow } })
      else head.bodyRcv }

@[simp]
theorem RequestHead.assignVersion_chunked (head : RequestHead) :
    head.assignVersion.chunked = head.chunked := rfl

@[simp]
theorem RequestHead.popTransferEncoding_chunked (head : RequestHead) :
    head.popTransferEncoding.chunked = head.chunked := rfl

@[simp]
theorem RequestHead.assignExpectation_chunked (head : RequestHead) (connection : Str) :
    (head.assignExpectation connection).chunked = head.chunked := rfl

theorem eq_singleton_of_count {coding : Str} {codings : List Str}
    (only : ¬ ∃ other ∈ codings, other ≠ coding) (single : ¬ codings.count coding ≠ 1) :
    codings = [coding] := by
  have each : ∀ other ∈ codings, other = coding := by
    intro other mem
    by_contra different
    exact only ⟨other, mem, different⟩
  have repeated := List.eq_replicate_of_mem each
  rw [repeated, List.count_replicate_self, Decidable.not_not] at single
  rw [repeated, single]
  rfl

theorem parseTransferEncoding_ok {adj : Adjustments} {connection : Str} {head final : RequestHead}
    (parsed : exec (parseTransferEncoding adj connection) head = (.ok ⟨⟩, final)) :
    encodings (head.headers.getD "TRANSFER_ENCODING".toList []) = [] ∧
        final = head.popTransferEncoding.assignExpectation connection ∨
      encodings (head.headers.getD "TRANSFER_ENCODING".toList []) = ["chunked".toList] ∧
        final = (head.popTransferEncoding.assignChunked adj).assignExpectation connection := by
  unfold parseTransferEncoding at parsed
  simp only [exec_bind, exec_get, exec_modify] at parsed
  split at parsed
  · cases (Prod.mk.inj parsed).1
  · rename_i supported
    split at parsed
    · split at parsed
      · cases (Prod.mk.inj parsed).1
      · rename_i isLast single
        simp only [exec_bind, exec_get, exec_modify] at parsed
        exact .inr ⟨eq_singleton_of_count supported single, (Prod.mk.inj parsed).2.symm⟩
    · rename_i isLast
      split at parsed
      · cases (Prod.mk.inj parsed).1
      · rename_i none
        exact .inl ⟨Decidable.not_not.mp none, (Prod.mk.inj parsed).2.symm⟩

theorem parseContentLength_ok {adj : Adjustments} {head final : RequestHead}
    (parsed : exec (parseContentLength adj) head = (.ok ⟨⟩, final)) :
    ∃ length, intOfStr (head.headers.getD "CONTENT_LENGTH".toList "0".toList) = .ok length ∧
      final = head.assignLength adj length := by
  unfold parseContentLength at parsed
  obtain ⟨_, _, got, parsed⟩ := exec_bind_ok parsed
  cases got
  obtain ⟨encoded, _, latin1, parsed⟩ := exec_bind_ok parsed
  rw [exec_ofExcept] at latin1
  obtain ⟨-, rfl⟩ := Prod.mk.inj latin1
  split at parsed
  · cases (Prod.mk.inj parsed).1
  · obtain ⟨length, _, converted, parsed⟩ := exec_bind_ok parsed
    rw [exec_ofExcept] at converted
    obtain ⟨value, rfl⟩ := Prod.mk.inj converted
    refine ⟨length, value, ?_⟩
    simp only [exec_bind, exec_modify] at parsed
    split at parsed
    · rename_i positive
      rw [RequestHead.assignLength, if_pos positive]
      exact (Prod.mk.inj parsed).2.symm
    · rename_i zero
      rw [RequestHead.assignLength, if_neg zero]
      exact (Prod.mk.inj parsed).2.symm

/-- What an accepted head leads to; `head` is the state behind the start line. -/
inductive RequestHead.Framed (adj : Adjustments) (head : RequestHead) : RequestHead → Prop where
  | chunked :
      head.version = "1.1".toList →
      encodings (head.headers.getD "TRANSFER_ENCODING".toList []) = ["chunked".toList] →
      Framed adj head
        ((head.assignVersion.popTransferEncoding.assignChunked adj).assignExpectation
          head.connection)
  | current {length : Int} :
      head.version = "1.1".toList →
      encodings (head.headers.getD "TRANSFER_ENCODING".toList []) = [] →
      intOfStr (head.headers.getD "CONTENT_LENGTH".toList "0".toList) = .ok length →
      Framed adj head
        ((head.assignVersion.popTransferEncoding.assignExpectation head.connection).assignLength
          adj length)
  | other {length : Int} :
      head.version ≠ "1.1".toList →
      intOfStr (head.headers.getD "CONTENT_LENGTH".toList "0".toList) = .ok length →
      Framed adj head (head.assignVersion.assignLength adj length)

theorem exec_parseKeepAlive (head : RequestHead) :
    exec (parseKeepAlive head.version head.connection) head = (.ok ⟨⟩, head.assignVersion) := by
  unfold parseKeepAlive RequestHead.assignVersion
  split
  · rename_i closes
    rw [exec_modify, decide_eq_true closes, Bool.true_or]
  · rename_i keeps
    rw [exec_pure, decide_eq_false keeps, Bool.false_or]

theorem parseFraming_ok {adj : Adjustments} {head final : RequestHead}
    (notChunked : head.chunked = false)
    (parsed : exec (parseFraming adj) head = (.ok ⟨⟩, final)) : head.Framed adj final := by
  unfold parseFraming at parsed
  simp only [exec_bind, exec_get] at parsed
  rw [show head.headers.getD "CONNECTION".toList [] = head.connection from rfl,
    exec_parseKeepAlive] at parsed
  dsimp only at parsed
  split at parsed
  · rename_i version
    obtain ⟨_, middle, coded, parsed⟩ := exec_bind_ok parsed
    rw [exec_bind, exec_get] at parsed
    dsimp only at parsed
    rcases parseTransferEncoding_ok coded with ⟨plain, rfl⟩ | ⟨chunked, rfl⟩
    · simp only [RequestHead.assignExpectation_chunked, RequestHead.popTransferEncoding_chunked,
        RequestHead.assignVersion_chunked, notChunked, if_true] at parsed
      obtain ⟨length, value, rfl⟩ := parseContentLength_ok parsed
      rw [show (head.assignVersion.popTransferEncoding.assignExpectation head.connection).headers =
        head.headers.erase "TRANSFER_ENCODING".toList from rfl, Dict.getD, Dict.get?_erase,
        if_neg (by decide)] at value
      exact .current version plain value
    · rw [if_neg (by simp [RequestHead.assignChunked, RequestHead.assignExpectation])] at parsed
      cases parsed
      exact .chunked version chunked
  · rename_i version
    simp only [exec_bind, exec_get, RequestHead.assignVersion_chunked, notChunked, if_true]
      at parsed
    obtain ⟨length, value, rfl⟩ := parseContentLength_ok parsed
    exact .other version value

/-- The shape of every accepted head. -/
theorem parseHeader_ok [CPython] {adj : Adjustments} {block : Bytes} {start final : RequestHead}
    (notChunked : start.chunked = false)
    (parsed : exec (parseHeader adj block) start = (.ok ⟨⟩, final)) :
    ∃ command uri version lines parts,
      exec (parseLines block) start = (.ok (command, uri, version), lines) ∧
        splitUri uri = .ok parts ∧
        (lines.assignTarget adj command uri version parts).Framed adj final := by
  unfold parseHeader at parsed
  obtain ⟨⟨command, uri, version⟩, lines, read, parsed⟩ := exec_bind_ok parsed
  obtain ⟨_, target, assigned, parsed⟩ := exec_bind_ok parsed
  have split : ∃ parts, splitUri uri = .ok parts := by
    unfold parseTarget at assigned
    obtain ⟨_, _, _, assigned⟩ := exec_bind_ok assigned
    obtain ⟨parts, _, split, -⟩ := exec_bind_ok assigned
    rw [exec_ofExcept] at split
    exact ⟨parts, (Prod.mk.inj split).1⟩
  obtain ⟨parts, split⟩ := split
  refine ⟨command, uri, version, lines, parts, read, split, ?_⟩
  rw [exec_parseTarget split] at assigned
  obtain rfl : lines.assignTarget adj command uri version parts = target :=
    (Prod.mk.inj assigned).2
  have unread : start.unread = (exec (parseLines block) start).2.unread :=
    parseLines_frame block start
  rw [read] at unread
  have still : start.chunked = lines.chunked := (congrArg RequestHead.chunked unread :)
  exact parseFraming_ok (still.symm.trans notChunked) parsed

theorem bodyRcv_fresh [CPython] {adj : Adjustments} {block : Bytes} {final : RequestHead}
    {rcv : Receiver} (parsed : exec (parseHeader adj block) {} = (.ok ⟨⟩, final))
    (given : final.bodyRcv = some rcv) :
    rcv = .chunked { buf := { overflow := adj.inbufOverflow } } ∨
      0 < final.contentLength ∧
        rcv = .fixed
          { remain := final.contentLength.toNat, buf := { overflow := adj.inbufOverflow } } := by
  obtain ⟨command, uri, version, lines, parts, read, -, framed⟩ := parseHeader_ok rfl parsed
  have unread := parseLines_frame block {}
  rw [read] at unread
  have unset : none = lines.bodyRcv := congrArg RequestHead.bodyRcv unread
  have ofLength : ∀ {head : RequestHead} {length : Int}, head.bodyRcv = none →
      (head.assignLength adj length).bodyRcv = some rcv →
      0 < length ∧
        rcv = .fixed { remain := length.toNat, buf := { overflow := adj.inbufOverflow } } := by
    intro head length none assigned
    rw [RequestHead.assignLength] at assigned
    split at assigned
    · exact ⟨by assumption, (Option.some.inj assigned).symm⟩
    · rw [none] at assigned
      cases assigned
  cases framed with
  | chunked => exact .inl (Option.some.inj given).symm
  | current => exact .inr (ofLength unset.symm given)
  | other => exact .inr (ofLength unset.symm given)

/-! ### The decision to close -/

def GivesLength (block : Bytes) : Prop :=
  ∃ line lines, exec (parseLines block) {} = (.ok line, lines) ∧
    lines.headers.contains "CONTENT_LENGTH".toList = true

/-- What the decision of the parser depends on. -/
theorem connectionClose_iff [CPython] {adj : Adjustments} {block : Bytes} {head : RequestHead}
    (parsed : exec (parseHeader adj block) {} = (.ok ⟨⟩, head)) :
    head.connectionClose = true ↔
      head.version = "1.0".toList ∧ Str.lower head.connection ≠ "keep-alive".toList ∨
        head.version = "1.1".toList ∧
          (Str.lower head.connection = "close".toList ∨
            head.chunked = true ∧ GivesLength block) := by
  obtain ⟨command, uri, version, lines, parts, read, -, framed⟩ := parseHeader_ok rfl parsed
  have unread := parseLines_frame block {}
  rw [read] at unread
  have undecided : false = lines.connectionClose := congrArg RequestHead.connectionClose unread
  have unchunked : false = lines.chunked := congrArg RequestHead.chunked unread
  have gives : GivesLength block ↔ lines.headers.contains "CONTENT_LENGTH".toList = true := by
    constructor
    · rintro ⟨line, other, readOther, given⟩
      obtain rfl := (Prod.mk.inj (read.symm.trans readOther)).2
      exact given
    · exact fun given => ⟨_, lines, read, given⟩
  generalize target : lines.assignTarget adj command uri version parts = start at framed
  have headers : lines.headers = start.headers := by rw [← target]; rfl
  have close : start.assignVersion.connectionClose =
      decide (start.version = "1.0".toList ∧ Str.lower start.connection ≠ "keep-alive".toList) := by
    rw [RequestHead.assignVersion, ← target]
    exact (congrArg _ undecided.symm).trans (Bool.or_false _)
  have current : start.version = "1.1".toList → start.version ≠ "1.0".toList := by
    intro version
    rw [version]
    decide
  rw [gives, headers]
  cases framed with
  | chunked version chunked =>
      have connection : RequestHead.connection
          ((start.assignVersion.popTransferEncoding.assignChunked adj).assignExpectation
            start.connection) = start.connection := by
        rw [RequestHead.connection, RequestHead.connection]
        change Dict.getD (Dict.erase (Dict.erase _ _) _) _ _ = _
        rw [Dict.getD, Dict.get?_erase, if_neg (by decide), Dict.get?_erase, if_neg (by decide)]
        rfl
      rw [connection]
      change (decide _ || (Dict.contains (Dict.erase _ _) _ || start.assignVersion.connectionClose))
        = true ↔ start.version = _ ∧ _ ∨ start.version = _ ∧ (_ ∨ true = true ∧ _)
      rw [Dict.contains, Dict.get?_erase, if_neg (by decide), close, Bool.or_eq_true,
        Bool.or_eq_true, decide_eq_true_iff, decide_eq_true_iff]
      constructor
      · rintro (closes | given | ⟨old, -⟩)
        · exact .inr ⟨version, .inl closes⟩
        · exact .inr ⟨version, .inr ⟨rfl, given⟩⟩
        · exact absurd old (current version)
      · rintro (⟨old, -⟩ | ⟨-, closes | ⟨-, given⟩⟩)
        · exact absurd old (current version)
        · exact .inl closes
        · exact .inr (.inl given)
  | @current length version plain =>
      have connection : RequestHead.connection
          ((start.assignVersion.popTransferEncoding.assignExpectation
            start.connection).assignLength adj length) = start.connection := by
        rw [RequestHead.connection, RequestHead.connection]
        change Dict.getD (Dict.erase _ _) _ _ = _
        rw [Dict.getD, Dict.get?_erase, if_neg (by decide)]
        rfl
      rw [connection]
      change (decide _ || start.assignVersion.connectionClose) = true ↔
        start.version = _ ∧ _ ∨ start.version = _ ∧ (_ ∨ start.chunked = true ∧ _)
      rw [close, Bool.or_eq_true, decide_eq_true_iff, decide_eq_true_iff]
      constructor
      · rintro (closes | ⟨old, -⟩)
        · exact .inr ⟨version, .inl closes⟩
        · exact absurd old (current version)
      · rintro (⟨old, -⟩ | ⟨-, closes | ⟨chunked, -⟩⟩)
        · exact absurd old (current version)
        · exact .inl closes
        · rw [← target] at chunked
          cases unchunked.trans chunked
  | other version =>
      change start.assignVersion.connectionClose = true ↔
        start.version = _ ∧ _ ∨ start.version = _ ∧ _
      rw [close, decide_eq_true_iff]
      constructor
      · exact .inl
      · rintro (old | ⟨new, -⟩)
        · exact old
        · exact absurd new version

end Waitress
