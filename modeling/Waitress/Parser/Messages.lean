import Waitress.Parser.FirstLine
import Waitress.Parser.Headers
import Waitress.Parser.Limits

/-!
# Well-formed requests

A request as a client serialises it, and what the parser makes of it.
-/

namespace Waitress

open Raising

/-! ### Heads that are accepted -/

theorem exec_parseContentLength {adj : Adjustments} {head : RequestHead} (clean : head.CleanValues)
    (decimal : IsDecimal head.lengthText) (short : head.lengthText.length ≤ intMaxStrDigits) :
    exec (parseContentLength adj) head =
      (.ok ⟨⟩, head.assignLength adj (decimalValue head.lengthText)) := by
  have returned : (exec (parseContentLength adj) head).1 = .ok ⟨⟩ := by
    rw [parseContentLength_result clean, if_neg (not_not_intro decimal), if_pos short]
  rcases parsed : exec (parseContentLength adj) head with ⟨result, final⟩
  rw [parsed] at returned
  obtain rfl : result = .ok ⟨⟩ := returned
  obtain ⟨length, value, rfl⟩ := parseContentLength_ok parsed
  have number := decimal.intOfStr
  rw [if_pos short] at number
  obtain rfl := Except.ok.inj (value.symm.trans number)
  rfl

theorem exec_parseTransferEncoding_chunked (adj : Adjustments) (connection : Str)
    {head : RequestHead}
    (chunked : encodings (head.headers.getD "TRANSFER_ENCODING".toList []) =
      ["chunked".toList]) :
    exec (parseTransferEncoding adj connection) head =
      (.ok ⟨⟩, (head.popTransferEncoding.assignChunked adj).assignExpectation connection) := by
  unfold parseTransferEncoding
  rw [exec_get_bind, exec_modify_bind]
  dsimp only
  rw [chunked, if_neg (by decide), if_pos (by decide), if_neg (by decide), exec_get_bind,
    exec_modify_bind, exec_modify]
  rfl

/-- What is given by an accepted length. -/
theorem IsDecimal.of_intOfStr {text : Str} {length : Int} (decimal : IsDecimal text)
    (value : Waitress.intOfStr text = .ok length) :
    text.length ≤ intMaxStrDigits ∧ length = decimalValue text := by
  rw [decimal.intOfStr] at value
  split at value
  · next short => exact ⟨short, (Except.ok.inj value).symm⟩
  · cases value

theorem RequestHead.CleanValues.erase {before after : RequestHead} (clean : before.CleanValues)
    {key : Str} (erased : after.headers = before.headers.erase key) : after.CleanValues := by
  intro name value found
  rw [erased, Dict.get?_erase] at found
  split at found
  · cases found
  · exact clean name value found

theorem RequestHead.Framed.exec_parseFraming {adj : Adjustments} {head final : RequestHead}
    (framed : head.Framed adj final) (notChunked : head.chunked = false)
    (clean : head.CleanValues) (decimal : IsDecimal head.lengthText) :
    exec (parseFraming adj) head = (.ok ⟨⟩, final) := by
  unfold parseFraming
  rw [exec_get_bind, exec_get_bind,
    show head.headers.getD "CONNECTION".toList [] = head.connection from rfl, exec_bind,
    exec_parseKeepAlive]
  dsimp only
  cases framed with
  | chunked version coding =>
      rw [if_pos version, exec_bind, @exec_parseTransferEncoding_chunked adj head.connection
        head.assignVersion coding]
      dsimp only
      rw [exec_get_bind, if_neg (by simp [assignChunked, assignExpectation])]
      rfl
  | current version coding value =>
      have erased : RequestHead.headers
          (head.assignVersion.popTransferEncoding.assignExpectation head.connection) =
            head.headers.erase "TRANSFER_ENCODING".toList := rfl
      have text : RequestHead.lengthText
          (head.assignVersion.popTransferEncoding.assignExpectation head.connection) =
            head.lengthText := by
        rw [RequestHead.lengthText, erased, Dict.getD, Dict.get?_erase, if_neg (by decide)]
        rfl
      obtain ⟨short, rfl⟩ := decimal.of_intOfStr value
      rw [if_pos version, exec_bind, @exec_parseTransferEncoding_plain adj head.connection
        head.assignVersion coding]
      dsimp only
      rw [exec_get_bind, if_pos (by simpa using notChunked),
        exec_parseContentLength (clean.erase erased) (text ▸ decimal) (text ▸ short), text]
  | other version value =>
      obtain ⟨short, rfl⟩ := decimal.of_intOfStr value
      rw [if_neg version, exec_get_bind, if_pos (by simpa using notChunked)]
      exact exec_parseContentLength clean decimal short

/-! ### Lines -/

theorem cleanLine_of_visible {text : Bytes} (visible : ∀ x ∈ text, 32 < x) : CleanLine text :=
  ⟨fun feed => absurd (visible 10 feed) (by decide),
    fun ret => absurd (visible 13 ret) (by decide)⟩

theorem tchar_visible : ∀ x : UInt8, tchar x.toNat = true → 32 < x := by decide +kernel

theorem tchar_not_space : ∀ x : UInt8, tchar x.toNat = true → Bytes.isSpace x = false := by
  decide +kernel

theorem rstrip_concat {x : UInt8} (black : Bytes.isSpace x = false) (s : Bytes) :
    Bytes.rstrip (s ++ [x]) = s ++ [x] := by
  rw [Bytes.rstrip, List.reverse_append, List.reverse_singleton, List.singleton_append,
    List.dropWhile_cons_of_neg (by simp [black]), List.reverse_cons, List.reverse_reverse]

theorem isField_visible : ∀ x : UInt8, isWs x = true ∨ isFieldVchar x = true → x ≠ 10 ∧ x ≠ 13 := by
  decide +kernel

theorem IsField.cleanLine {line : Bytes} (field : IsField line) : CleanLine line := by
  obtain ⟨name, rest, rfl, -, tokens, each⟩ := field
  have inName : CleanLine name :=
    cleanLine_of_visible fun x mem => tchar_visible x (tokens x mem)
  have inRest : CleanLine (58 :: rest) := by
    constructor
    · intro feed
      rcases List.mem_cons.mp feed with colon | mem
      · exact absurd colon (by decide)
      · exact (isField_visible 10 (each 10 mem)).1 rfl
    · intro ret
      rcases List.mem_cons.mp ret with colon | mem
      · exact absurd colon (by decide)
      · exact (isField_visible 13 (each 13 mem)).2 rfl
  exact cleanLine_append.mpr ⟨inName, inRest⟩

/-- A field is a line of its own. -/
theorem IsField.starts {line : Bytes} (field : IsField line) :
    line ≠ [] ∧ isContinuation line = false := by
  obtain ⟨name, rest, rfl, nonempty, tokens, -⟩ := field
  obtain ⟨x, more, rfl⟩ := List.exists_cons_of_ne_nil nonempty
  have visible := tchar_visible x (tokens x List.mem_cons_self)
  refine ⟨List.cons_ne_nil _ _, ?_⟩
  have noSpace : x ≠ 32 := by
    rintro rfl
    exact absurd visible (by decide)
  have noTab : x ≠ 9 := by
    rintro rfl
    exact absurd visible (by decide)
  simp [isContinuation, noSpace, noTab]

theorem unfoldLines_eq_self {lines : List Bytes}
    (starts : ∀ line ∈ lines, line ≠ [] ∧ isContinuation line = false) :
    unfoldLines lines = lines := by
  induction lines with
  | nil => rfl
  | cons line lines inductionHypothesis =>
      rw [List.forall_mem_cons] at starts
      cases lines with
      | nil => rfl
      | cons next others =>
          obtain ⟨nonempty, start⟩ := starts.2 next List.mem_cons_self
          rw [unfoldLines_start nonempty start, inductionHypothesis starts.2]

theorem physicalLines_blockOf {lines : List Bytes} (fields : ∀ line ∈ lines, IsField line) :
    physicalLines (blockOf lines) = lines := by
  rw [physicalLines, splitLines_blockOf fun line mem => (fields line mem).cleanLine,
    List.filter_append, List.filter_eq_self.mpr]
  · simp
  · exact fun line mem => decide_eq_true (fields line mem).starts.1

theorem pairwise_not_clashes {lines : List Bytes}
    (once : ∀ name ∈ singletonNames,
      (lines.filter fun line => Bytes.lower (fieldName line) = name).length ≤ 1) :
    lines.Pairwise fun first second => ¬ Clashes first second := by
  induction lines with
  | nil => exact .nil
  | cons line lines inductionHypothesis =>
      refine List.pairwise_cons.mpr ⟨fun other mem clash => ?_, inductionHypothesis fun name listed => ?_⟩
      · have single := once _ clash.2
        rw [List.filter_cons_of_pos (by simpa using clash.1), List.length_cons] at single
        have listed : other ∈ lines.filter fun line =>
            Bytes.lower (fieldName line) = Bytes.lower (fieldName other) :=
          List.mem_filter.mpr ⟨mem, by simp⟩
        have positive := List.length_pos_of_mem listed
        omega
      · have single := once name listed
        have fewer := ((List.sublist_cons_self line lines).filter
          fun line => Bytes.lower (fieldName line) = name).length_le
        omega

/-! ### Requests that are not too large -/

section Ready

variable [CPython] {adj : Adjustments} {head wire body : Bytes} {request : RequestHead}

theorem WellFramed.run_head (framed : WellFramed adj head wire body request) (following : Bytes) :
    (reader adj).run (.heading []) (head ++ following) =
      (reader adj).run (Reading.headEnd adj head) following := by
  have nonempty : head ≠ [] := by
    rintro rfl
    exact absurd framed.complete (by decide)
  rw [Reading.run_heading adj (by decide) (List.append_ne_nil_of_left_ne_nil nonempty _),
    List.nil_append, findDoubleNewline_append framed.complete, Option.getD_some,
    if_neg (not_le.mpr framed.small)]
  dsimp only
  rw [List.take_left, List.drop_left]

/-- A request with few bytes on the wire is read to its end, and nothing behind it. -/
theorem WellFramed.run_ready (framed : WellFramed adj head wire body request)
    (unchunked : request.bodyRcv = none → request.chunked = false)
    (short : (wire.length : Int) < adj.maxRequestBodySize) (following : Bytes) :
    (reader adj).run (.heading []) (head ++ (wire ++ following)) =
      (.ready (Reading.completeHead request body) body, following) := by
  have carries := framed.carries
  rw [framed.run_head, framed.headEnd]
  rcases bodyRcv_cases framed.parsed with ⟨rcv, given, zero⟩ | ⟨some, given⟩ | ⟨none, given⟩
  · rw [RequestHead.Carries, given] at carries
    obtain ⟨lines, chunks⟩ := carries
    have decoded := Decoder.run_message [] [] chunks
    rw [List.append_nil, List.nil_append] at decoded
    have read : bodyMachine.run (.chunked (.sizeLine [] [])) wire =
        (.chunked (.finished body), []) := by
      rw [Body.run_chunked, decoded]
    rw [if_neg (by rw [zero]; exact fun both => absurd both.1 (by decide)), given]
    dsimp only [Reading.firstBody]
    rw [run_limited rfl read rfl rfl following, if_neg (not_le.mpr short)]
    rfl
  · rw [RequestHead.Carries, given] at carries
    obtain ⟨rfl, length⟩ := carries
    have unfinished : (Body.fixed request.contentLength.toNat []).isFinished = false :=
      decide_eq_false (by omega)
    have whole : request.contentLength.toNat = wire.length := by omega
    have read : bodyMachine.run (.fixed request.contentLength.toNat []) wire =
        (.fixed 0 wire, []) := by
      rw [Body.run_fixed, whole, Nat.sub_self, List.nil_append, List.take_length,
        List.drop_length]
    rw [given, if_neg (fun both => not_le.mpr short (by rw [← length]; exact both.2))]
    dsimp only [Reading.firstBody]
    rw [run_limited unfinished read rfl rfl following, if_neg (not_le.mpr short)]
    rfl
  · rw [RequestHead.Carries, given] at carries
    obtain ⟨rfl, length⟩ := carries
    obtain rfl : wire = [] := List.length_eq_zero_iff.mp (by omega)
    have complete : Reading.completeHead request [] = request := by
      rewrite [Reading.completeHead, if_neg (by simp [unchunked given])]
      rfl
    rw [given, if_neg (fun both => absurd both.1 (by omega)), complete]
    dsimp only
    rw [(reader adj).run_halted rfl]
    rfl

end Ready

/-! ### Messages -/

/-- A request; its header fields are given by their lines, its body as it comes on the wire. -/
structure Message where
  method : Bytes
  target : Bytes
  version : Bytes
  fields : List Bytes
  wire : Bytes
  body : Bytes
  deriving DecidableEq, Repr

namespace Message

def requestLine (message : Message) : Bytes :=
  message.method ++ 32 :: (message.target ++ ascii " HTTP/" ++ message.version)

def head (message : Message) : Bytes := blockOf (message.requestLine :: message.fields)

def serialised (message : Message) : Bytes := message.head ++ message.wire

def named (message : Message) (name : String) : List Bytes :=
  message.fields.filter fun line => Bytes.lower (fieldName line) = ascii name

inductive Framed (message : Message) : Prop where
  | absent :
      message.named "content-length" = [] → message.named "transfer-encoding" = [] →
      message.wire = [] → message.body = [] → Framed message
  | length {line : Bytes} :
      message.named "content-length" = [line] → message.named "transfer-encoding" = [] →
      IsDecimal (decodeLatin1 (fieldText line)) → (fieldText line).length ≤ 4300 →
      decimalValue (decodeLatin1 (fieldText line)) = message.body.length →
      message.wire = message.body → Framed message
  | chunked {line : Bytes} {lines : List Bytes} :
      message.version = ascii "1.1" → message.named "content-length" = [] →
      message.named "transfer-encoding" = [line] → fieldText line = ascii "chunked" →
      ChunkedMessage SizeLine lines message.wire message.body → Framed message

/-- A request that the server has to understand. -/
structure WellFormed [CPython] (adj : Adjustments) (message : Message) : Prop where
  method : IsToken message.method
  uppercase : ∀ x ∈ message.method, ¬ IsLowercase x
  origin : message.target.head? = some 47
  visible : ∀ x ∈ message.target, 32 < x ∧ x ≠ 127
  target : ∃ parts, urlsplit message.target = .ok parts
  version : message.version = ascii "1.0" ∨ message.version = ascii "1.1"
  fields : ∀ line ∈ message.fields, IsField line ∧ 95 ∉ fieldName line
  host : (message.named "host").length ≤ 1
  contentType : (message.named "content-type").length ≤ 1
  noExpect : message.named "expect" = []
  framed : message.Framed
  small : (message.head.length : Int) < adj.maxRequestHeaderSize
  short : (message.wire.length : Int) < adj.maxRequestBodySize

/-- The values that the dictionary has: a chunked body is given its length. -/
def header (message : Message) (key : Str) : Option Str :=
  if message.named "transfer-encoding" = [] then headerValue message.fields key
  else if key = "TRANSFER_ENCODING".toList then none
  else if key = "CONTENT_LENGTH".toList then some (intStr message.body.length)
  else headerValue message.fields key

structure ReceivedBy (message : Message) (parser : HTTPRequestParser) : Prop where
  completed : parser.completed = true
  empty : parser.empty = false
  sound : parser.error = none
  command : parser.command = some (decodeLatin1 message.method)
  requestUri : parser.requestUri = some (decodeLatin1 message.target)
  version : parser.version = decodeLatin1 message.version
  headers : ∀ key, parser.headers.get? key = message.header key
  body : parser.getBodyStream.pending = message.body

/-! ### The lines of the head -/

section Head

variable [CPython] {adj : Adjustments} {message : Message}

theorem WellFormed.startLine (wellFormed : message.WellFormed adj) :
    StartLine message.requestLine message.method message.target message.version := by
  have slash : message.target ≠ [] := by
    rintro none
    have origin := wellFormed.origin
    rw [none] at origin
    cases origin
  refine ⟨wellFormed.method.1, wellFormed.method.2, slash, fun mem => ?_, .inr ?_⟩
  · exact absurd (wellFormed.visible 32 mem).1 (by decide)
  · rcases wellFormed.version with version | version
    · exact ⟨49, 48, by decide, by decide, version, rfl⟩
    · exact ⟨49, 49, by decide, by decide, version, rfl⟩

theorem WellFormed.cleanRequestLine (wellFormed : message.WellFormed adj) :
    CleanLine message.requestLine := by
  have method : CleanLine message.method :=
    cleanLine_of_visible fun x mem => tchar_visible x (wellFormed.method.2 x mem)
  have target : CleanLine message.target :=
    cleanLine_of_visible fun x mem => (wellFormed.visible x mem).1
  have slash : CleanLine (ascii " HTTP/") := ⟨by decide, by decide⟩
  have version : CleanLine message.version := by
    rcases wellFormed.version with version | version
    · rw [version]
      exact ⟨by decide, by decide⟩
    · rw [version]
      exact ⟨by decide, by decide⟩
  have space : CleanLine [32] := ⟨by decide, by decide⟩
  have rest : CleanLine (message.target ++ ascii " HTTP/" ++ message.version) :=
    cleanLine_append.mpr ⟨cleanLine_append.mpr ⟨target, slash⟩, version⟩
  exact cleanLine_append.mpr ⟨method, @cleanLine_append [32] _ |>.mpr ⟨space, rest⟩⟩

theorem WellFormed.rstrip_requestLine (wellFormed : message.WellFormed adj) :
    Bytes.rstrip message.requestLine = message.requestLine := by
  have last : ∃ front x, message.requestLine = front ++ [x] ∧ Bytes.isSpace x = false := by
    rcases wellFormed.version with version | version
    · refine ⟨message.method ++ 32 :: (message.target ++ ascii " HTTP/1."), 48, ?_, rfl⟩
      simp [requestLine, version, ascii]
    · refine ⟨message.method ++ 32 :: (message.target ++ ascii " HTTP/1."), 49, ?_, rfl⟩
      simp [requestLine, version, ascii]
  obtain ⟨front, x, shape, black⟩ := last
  rw [shape, rstrip_concat black]

omit [CPython] in
theorem head_eq (message : Message) :
    message.head = message.requestLine ++ (crlf ++ blockOf message.fields) := rfl

theorem WellFormed.lstrip_head (wellFormed : message.WellFormed adj) :
    Bytes.lstrip message.head = message.head := by
  obtain ⟨x, rest, start⟩ := List.exists_cons_of_ne_nil wellFormed.method.1
  have black : Bytes.isSpace x = false :=
    tchar_not_space x (wellFormed.method.2 x (start ▸ List.mem_cons_self))
  rw [head_eq, requestLine, start, List.cons_append, List.cons_append, Bytes.lstrip,
    List.dropWhile_cons_of_neg (by simp [black])]

theorem WellFormed.findDoubleNewline_head (wellFormed : message.WellFormed adj) :
    findDoubleNewline message.head = some message.head.length := by
  refine findDoubleNewline_blockOf ?_ ?_ (List.cons_ne_nil _ _)
  · rw [List.forall_mem_cons]
    exact ⟨wellFormed.cleanRequestLine, fun line mem => (wellFormed.fields line mem).1.cleanLine⟩
  · rw [List.forall_mem_cons]
    refine ⟨?_, fun line mem => (wellFormed.fields line mem).1.starts.1⟩
    rw [requestLine]
    exact List.append_ne_nil_of_left_ne_nil wellFormed.method.1 _

/-! ### The dictionary -/

theorem WellFormed.fieldValues_eq (wellFormed : message.WellFormed adj) {name : String}
    (plain : 95 ∉ ascii name ∧ Bytes.lower (ascii name) = ascii name) :
    fieldValues message.fields (headerKey (ascii name)) =
      (message.named name).map fun line => decodeLatin1 (fieldText line) := by
  rw [fieldValues, named]
  refine congrArg _ (List.filter_congr fun line mem => ?_)
  have plainToo := (wellFormed.fields line mem).2
  have same := headerKey_eq_iff plainToo plain.1
  rw [plain.2] at same
  simp only [plainToo, not_false_eq_true, true_and, same]

theorem WellFormed.singletons (wellFormed : message.WellFormed adj) :
    message.fields.Pairwise fun first second => ¬ Clashes first second := by
  refine pairwise_not_clashes fun name listed => ?_
  have length : (message.named "content-length").length ≤ 1 := by
    cases wellFormed.framed with
    | absent none => rw [none]; decide
    | length one => rw [one]; rfl
    | chunked _ none => rw [none]; decide
  simp only [singletonNames, List.mem_cons, List.not_mem_nil, or_false] at listed
  rcases listed with rfl | rfl | rfl
  · exact wellFormed.host
  · exact length
  · exact wellFormed.contentType

structure LinesOf (message : Message) (lines : RequestHead) : Prop where
  unread : lines.unread = RequestHead.unread {}
  clean : lines.CleanValues
  headers : ∀ key, lines.headers.get? key = headerValue message.fields key

theorem WellFormed.exec_parseLines (wellFormed : message.WellFormed adj) :
    ∃ lines, message.LinesOf lines ∧
      exec (parseLines message.head) {} =
        (.ok (message.method, message.target, message.version), lines) := by
  have clean := wellFormed.cleanRequestLine
  have found : Search.find crlf message.head = some message.requestLine.length := by
    have behind : Search.find crlf (message.requestLine ++ crlf ++ blockOf message.fields) = _ :=
      Search.find_append_of_not_mem _ clean.2
    rwa [List.append_assoc] at behind
  have first : message.head.take message.requestLine.length = message.requestLine := by
    rw [head_eq, List.take_left]
  have rest : message.head.drop (message.requestLine.length + 2) = blockOf message.fields := by
    rw [head_eq, ← List.append_assoc]
    exact List.drop_left' (by simp [crlf])
  have fields : ∀ line ∈ message.fields, IsField line :=
    fun line mem => (wellFormed.fields line mem).1
  have cleanFields : ∀ line ∈ message.fields, CleanLine line :=
    fun line mem => (fields line mem).cleanLine
  have starts : ∀ line ∈ message.fields, line ≠ [] ∧ isContinuation line = false :=
    fun line mem => (fields line mem).starts
  have physical := physicalLines_blockOf fields
  have split : getHeaderLines (blockOf message.fields) = .ok message.fields := by
    have cleanBlock := onlyCrlf_iff.mp (onlyCrlf_blockOf cleanFields)
    rcases headerLinesLoop_nil cleanBlock with ⟨-, split⟩ | ⟨continued, -⟩
    · change getHeaderLines (blockOf message.fields) =
        .ok (unfoldLines (physicalLines (blockOf message.fields))) at split
      rwa [physical, unfoldLines_eq_self starts] at split
    · refine absurd (fun line first => ?_) continued
      change line ∈ (physicalLines (blockOf message.fields)).head? at first
      rw [physical] at first
      exact (starts line (List.mem_of_head? first)).2
  have uppercase : ¬ message.method ≠ Bytes.upper message.method :=
    not_not.mpr (upper_eq_self_iff.mpr wellFormed.uppercase).symm
  have cracked : crackFirstLine message.requestLine =
      .ok (message.method, message.target, message.version) :=
    wellFormed.startLine.crackFirstLine_eq.trans (if_neg uppercase)
  rcases @exec_forM_parseHeaderLine [] message.fields
    { firstLine := some message.requestLine } cleanFields (fun _ => rfl) with
    ⟨-, lines, read, headers⟩ | ⟨unfit, -⟩
  · have parsed := @Waitress.exec_parseLines _ _ _ _ _ _ _ {} _ found
      (by rw [first, wellFormed.rstrip_requestLine]) (by rw [or_comm]; exact not_or.mpr clean)
      (by rw [rest]; exact split) read cracked wellFormed.method.1
    refine ⟨lines, ⟨?_, ?_, headers⟩, parsed⟩
    · have frame := parseLines_frame message.head {}
      rw [parsed] at frame
      exact frame.symm
    · have values := parseLines_clean message.head {}
      rw [parsed] at values
      exact values fun _ _ found => by cases found
  · exact absurd ⟨fields, wellFormed.singletons, by simp⟩ unfit

/-! ### The framing -/

/-- The head of the message has been understood. -/
structure Understood (message : Message) (request : RequestHead) : Prop where
  command : request.command = some (decodeLatin1 message.method)
  requestUri : request.requestUri = some (decodeLatin1 message.target)
  version : request.version = decodeLatin1 message.version
  patient : request.expectContinue = false
  carries : request.Carries message.wire message.body
  unchunked : request.bodyRcv = none → request.chunked = false
  headers : ∀ key,
    (Reading.completeHead request message.body).headers.get? key = message.header key

theorem WellFormed.headerValue_none (wellFormed : message.WellFormed adj) {name : String}
    (plain : 95 ∉ ascii name ∧ Bytes.lower (ascii name) = ascii name)
    (none : message.named name = []) :
    headerValue message.fields (headerKey (ascii name)) = .none := by
  rw [headerValue, wellFormed.fieldValues_eq plain, none]
  rfl

theorem WellFormed.headerValue_one (wellFormed : message.WellFormed adj) {name : String}
    (plain : 95 ∉ ascii name ∧ Bytes.lower (ascii name) = ascii name) {line : Bytes}
    (one : message.named name = [line]) :
    headerValue message.fields (headerKey (ascii name)) = some (decodeLatin1 (fieldText line)) := by
  rw [headerValue, wellFormed.fieldValues_eq plain, one]
  rfl

omit [CPython] in
theorem carries_assignLength {head : RequestHead} (adj : Adjustments) (unset : head.bodyRcv = none)
    (body : Bytes) : (head.assignLength adj body.length).Carries body body := by
  rw [RequestHead.Carries, RequestHead.assignLength]
  by_cases some : ((body.length : Nat) : Int) > 0
  · rw [if_pos some]
    exact ⟨rfl, rfl⟩
  · rw [if_neg some, unset]
    exact ⟨rfl, rfl⟩

omit [CPython] in
theorem completeHead_headers {request : RequestHead} (unchunked : request.chunked = false)
    (content : Bytes) : (Reading.completeHead request content).headers = request.headers := by
  rw [Reading.completeHead, unchunked]
  rfl

/-- Neither coding nor expectation is found where there are no such fields. -/
theorem WellFormed.not_expecting (wellFormed : message.WellFormed adj) {lines : RequestHead}
    (read : message.LinesOf lines) {headers : Dict Str Str}
    (same : headers.get? "EXPECT".toList = lines.headers.get? "EXPECT".toList) :
    decide (Str.lower (headers.getD "EXPECT".toList []) = "100-continue".toList) = false := by
  have key : headerKey (ascii "expect") = "EXPECT".toList := by decide +kernel
  have none := wellFormed.headerValue_none (by decide +kernel) wellFormed.noExpect
  rw [key] at none
  rw [Dict.getD, same, read.headers, none]
  decide +kernel

theorem WellFormed.understood_plain (wellFormed : message.WellFormed adj) {lines : RequestHead}
    (read : message.LinesOf lines) {parts : SplitUri}
    (plain : message.named "transfer-encoding" = []) (same : message.wire = message.body)
    (value : intOfStr lines.lengthText = .ok message.body.length) :
    ∃ request, message.Understood request ∧
      (lines.assignTarget adj message.method message.target message.version parts).Framed adj
        request := by
  have key : headerKey (ascii "transfer-encoding") = "TRANSFER_ENCODING".toList := by
    decide +kernel
  have noCoding : lines.headers.get? "TRANSFER_ENCODING".toList = none := by
    rw [read.headers, ← key]
    exact wellFormed.headerValue_none (by decide +kernel) plain
  have values : ∀ key, message.header key = lines.headers.get? key := by
    intro key
    rw [header, if_pos plain, read.headers]
  have unset : lines.bodyRcv = none := congrArg RequestHead.bodyRcv read.unread
  have unchunked : lines.chunked = false := congrArg RequestHead.chunked read.unread
  have patient : lines.expectContinue = false := congrArg RequestHead.expectContinue read.unread
  rcases wellFormed.version with old | current
  · refine ⟨_, ?_, .other ?_ value⟩
    · refine ⟨rfl, rfl, rfl, patient, ?_, fun _ => unchunked, fun key => ?_⟩
      · rw [same]
        exact carries_assignLength adj (by exact unset) _
      · rw [completeHead_headers (by exact unchunked), values]
        rfl
    · change decodeLatin1 message.version ≠ _
      rw [old]
      decide +kernel
  · refine ⟨_, ?_, .current ?_ ?_ value⟩
    · refine ⟨rfl, rfl, rfl, ?_, ?_, fun _ => unchunked, fun key => ?_⟩
      · refine wellFormed.not_expecting read ?_
        exact (Dict.get?_erase _ _ _).trans (if_neg (by decide))
      · rw [same]
        exact carries_assignLength adj (by exact unset) _
      · rw [completeHead_headers (by exact unchunked), values]
        refine (Dict.get?_erase _ _ _).trans ?_
        split
        · next found => rw [← found, noCoding]
        · rfl
    · change decodeLatin1 message.version = _
      rw [current]
      decide +kernel
    · change encodings (lines.headers.getD _ _) = []
      rw [Dict.getD, noCoding]
      decide +kernel

theorem WellFormed.understood_chunked (wellFormed : message.WellFormed adj) {lines : RequestHead}
    (read : message.LinesOf lines) {parts : SplitUri} {line : Bytes} {sizes : List Bytes}
    (current : message.version = ascii "1.1") (one : message.named "transfer-encoding" = [line])
    (coding : fieldText line = ascii "chunked")
    (chunks : ChunkedMessage SizeLine sizes message.wire message.body) :
    ∃ request, message.Understood request ∧
      (lines.assignTarget adj message.method message.target message.version parts).Framed adj
        request := by
  have key : headerKey (ascii "transfer-encoding") = "TRANSFER_ENCODING".toList := by
    decide +kernel
  have chunked : lines.headers.get? "TRANSFER_ENCODING".toList = some "chunked".toList := by
    rw [read.headers, ← key, wellFormed.headerValue_one (by decide +kernel) one, coding]
    decide +kernel
  refine ⟨_, ?_, .chunked ?_ ?_⟩
  · refine ⟨rfl, rfl, rfl, ?_, ⟨sizes, chunks.imp fun _ _ _ => SizeLine.loose⟩, fun none => ?_,
      fun key => ?_⟩
    · refine wellFormed.not_expecting read ?_
      refine (Dict.get?_erase _ _ _).trans ((if_neg (by decide)).trans ?_)
      exact (Dict.get?_erase _ _ _).trans (if_neg (by decide))
    · cases none
    · rw [header, if_neg (by rw [one]; exact List.cons_ne_nil _ _)]
      refine (Dict.get?_set _ _ _ _).trans ?_
      by_cases isLength : key = "CONTENT_LENGTH".toList
      · rw [isLength, if_pos rfl, if_neg (by decide), if_pos rfl]
      · rw [if_neg (Ne.symm isLength), if_neg isLength]
        refine (Dict.get?_erase _ _ _).trans ?_
        rw [if_neg (Ne.symm isLength)]
        refine (Dict.get?_erase _ _ _).trans ?_
        rw [← read.headers]
        exact if_congr eq_comm rfl rfl
  · change decodeLatin1 message.version = _
    rw [current]
    decide +kernel
  · change encodings (lines.headers.getD _ _) = _
    rw [Dict.getD, chunked]
    decide +kernel

theorem WellFormed.understood (wellFormed : message.WellFormed adj) {lines : RequestHead}
    (read : message.LinesOf lines) (parts : SplitUri) :
    ∃ request, message.Understood request ∧ IsDecimal lines.lengthText ∧
      (lines.assignTarget adj message.method message.target message.version parts).Framed adj
        request := by
  have key : headerKey (ascii "content-length") = "CONTENT_LENGTH".toList := by decide +kernel
  have plain : 95 ∉ ascii "content-length" ∧
      Bytes.lower (ascii "content-length") = ascii "content-length" := by decide +kernel
  have unset (none : message.named "content-length" = []) : lines.lengthText = "0".toList := by
    have missing := wellFormed.headerValue_none plain none
    rw [key] at missing
    rw [RequestHead.lengthText, Dict.getD, read.headers, missing]
    rfl
  cases wellFormed.framed with
  | absent none noCoding wire body =>
      have text := unset none
      have value : intOfStr lines.lengthText = .ok message.body.length := by
        rw [text, body]
        decide +kernel
      obtain ⟨request, understood, framed⟩ :=
        wellFormed.understood_plain read noCoding (wire.trans body.symm) value
      exact ⟨request, understood, by rw [text]; decide, framed⟩
  | @length line one noCoding decimal short length wire =>
      have given := wellFormed.headerValue_one plain one
      rw [key] at given
      have text : lines.lengthText = decodeLatin1 (fieldText line) := by
        rw [RequestHead.lengthText, Dict.getD, read.headers, given]
        rfl
      have digits : (decodeLatin1 (fieldText line)).length ≤ intMaxStrDigits := by
        rw [decodeLatin1, List.length_map]
        exact short
      have value : intOfStr lines.lengthText = .ok message.body.length := by
        rw [text, decimal.intOfStr, if_pos digits, length]
      obtain ⟨request, understood, framed⟩ :=
        wellFormed.understood_plain read noCoding wire value
      exact ⟨request, understood, by rwa [text], framed⟩
  | chunked current none one coding chunks =>
      have text := unset none
      obtain ⟨request, understood, framed⟩ :=
        wellFormed.understood_chunked read current one coding chunks
      exact ⟨request, understood, by rw [text]; decide, framed⟩

theorem WellFormed.wellFramed (wellFormed : message.WellFormed adj) :
    ∃ request, message.Understood request ∧
      WellFramed adj message.head message.wire message.body request := by
  obtain ⟨lines, read, parsed⟩ := wellFormed.exec_parseLines
  obtain ⟨parts, split⟩ : ∃ parts, splitUri message.target = .ok parts := by
    obtain ⟨parts, split⟩ := wellFormed.target
    rw [splitUri, split]
    dsimp only
    split
    · exact ⟨_, rfl⟩
    · exact ⟨_, rfl⟩
  obtain ⟨request, understood, decimal, framed⟩ := wellFormed.understood read parts
  have unchunked : lines.chunked = false := congrArg RequestHead.chunked read.unread
  have framing := framed.exec_parseFraming unchunked read.clean decimal
  refine ⟨request, understood, wellFormed.findDoubleNewline_head, wellFormed.small, ?_,
    understood.carries⟩
  rw [wellFormed.lstrip_head, parseHeader, exec_bind, parsed]
  dsimp only
  rw [exec_bind, exec_parseTarget split]
  exact framing

/-- The message is read up to its end, and nothing behind it. -/
theorem WellFormed.run (wellFormed : message.WellFormed adj) :
    ∃ request, message.Understood request ∧ ∀ following,
      (reader adj).run (.heading []) (message.serialised ++ following) =
        (.ready (Reading.completeHead request message.body) message.body, following) := by
  obtain ⟨request, understood, framed⟩ := wellFormed.wellFramed
  refine ⟨request, understood, fun following => ?_⟩
  rw [serialised, List.append_assoc]
  exact framed.run_ready understood.unchunked wellFormed.short following

omit [CPython] in
theorem Understood.receivedBy {request : RequestHead} (understood : message.Understood request)
    {feeding : Feeding}
    (follows : feeding.Follows
      (.ready (Reading.completeHead request message.body) message.body)) :
    message.ReceivedBy feeding.parser := by
  have body := Feeding.ready_bodyStream follows
  obtain ⟨bodyRcv, headersFinished, headerPlus, received, count, holds, rfl⟩ := follows
  exact ⟨rfl, rfl, rfl, understood.command, understood.requestUri, understood.version,
    understood.headers, body⟩
end Head

end Message

end Waitress
