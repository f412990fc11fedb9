import Waitress.Decimal
import Waitress.Parser.Fields
import Waitress.Parser.Segmentation
import Waitress.Receiver.Grammar

/-!
# The exceptions that escape from the parser

`received` answers the two exceptions that `parse_header` raises by itself.  A
`ValueError` of the standard library is neither of them: it comes from
`urlsplit`, on an authority with an unmatched bracket, and from `int`, on a
length with too many digits.
-/

namespace Waitress

open Raising

def Exc.IsAnswered : Exc → Prop
  | .parsingError _ => True
  | .transferEncodingNotImplemented _ => True
  | _ => False

def Escapes {Value : Type} : Except Exc Value → Prop
  | .ok _ => False
  | .error exc => ¬ exc.IsAnswered

/-! ### The lines -/

theorem headerLinesLoop_raises {r lines : List Bytes} {exc : Exc}
    (failed : headerLinesLoop r lines = .error exc) : exc.IsAnswered := by
  induction lines generalizing r with
  | nil => cases failed
  | cons line lines inductionHypothesis =>
      rw [headerLinesLoop] at failed
      split at failed
      · exact inductionHypothesis failed
      · split at failed
        · cases failed
          trivial
        · split at failed
          · split at failed
            · cases failed
              trivial
            · exact inductionHypothesis failed
          · exact inductionHypothesis failed

theorem crackFirstLine_raises {line : Bytes} {exc : Exc}
    (failed : crackFirstLine line = .error exc) : exc.IsAnswered := by
  unfold crackFirstLine at failed
  split at failed
  · cases failed
  · dsimp only at failed
    split at failed
    · cases failed
      trivial
    · cases failed

theorem parseHeaderLine_raises (line : Bytes) :
    RaisesOnly Exc.IsAnswered (parseHeaderLine line) := by
  unfold parseHeaderLine
  split
  · exact raisesOnly_throw trivial
  · dsimp only
    split
    · exact raisesOnly_pure _
    · refine raisesOnly_bind raisesOnly_get fun head => ?_
      split
      · exact raisesOnly_modify _
      · split
        · exact raisesOnly_throw trivial
        · exact raisesOnly_modify _

theorem parseLines_raises (block : Bytes) : RaisesOnly Exc.IsAnswered (parseLines block) := by
  unfold parseLines
  split
  · exact raisesOnly_throw trivial
  · dsimp only
    split
    · exact raisesOnly_throw trivial
    · refine raisesOnly_bind (raisesOnly_modify _) fun _ => ?_
      refine raisesOnly_bind
        (raisesOnly_ofExcept fun _ failed => headerLinesLoop_raises failed) fun lines => ?_
      refine raisesOnly_bind
        (raisesOnly_forM _ fun line _ => parseHeaderLine_raises line) fun _ => ?_
      refine raisesOnly_bind
        (raisesOnly_ofExcept fun _ failed => crackFirstLine_raises failed) fun start => ?_
      split
      · exact raisesOnly_throw trivial
      · exact raisesOnly_pure _

/-! ### The target -/

/-- The authority of a target, as `urlsplit` finds it. -/
def authority (url : Bytes) : Bytes :=
  (splitNetloc
    (splitScheme ((url.dropWhile (· ≤ 32)).filter (· ∉ ([9, 10, 13] : Bytes)))).2).1

/-- The brackets of an authority are refused: there is one kind only, or what is
between them does not pass the interpreter's check. -/
def BadBrackets [CPython] (netloc : Bytes) : Prop :=
  ¬ (91 ∈ netloc ↔ 93 ∈ netloc) ∨
    91 ∈ netloc ∧ CPython.checkBracketedNetloc netloc = false

/-- A target of ASCII characters whose authority has refused brackets. -/
def BadTarget [CPython] (uri : Bytes) : Prop :=
  uri.take 2 ≠ ascii "//" ∧ uri.any (128 ≤ ·) = false ∧ BadBrackets (authority uri)

theorem urlsplit_error_iff [CPython] {url : Bytes} {exc : Exc} :
    urlsplit url = .error exc ↔
      url.any (128 ≤ ·) = true ∧ exc = .unicodeError ∨
        url.any (128 ≤ ·) = false ∧ BadBrackets (authority url) ∧ exc = .valueError := by
  unfold urlsplit
  split
  · rename_i foreign
    simp [foreign, eq_comm]
  · rename_i plain
    rw [Bool.not_eq_true] at plain
    dsimp only
    change (if (91 ∈ authority url ∧ 93 ∉ authority url) ∨
        (93 ∈ authority url ∧ 91 ∉ authority url) then _
      else if 91 ∈ authority url ∧ 93 ∈ authority url ∧
        CPython.checkBracketedNetloc (authority url) = false then _ else _) = _ ↔ _
    generalize authority url = netloc
    by_cases bad : BadBrackets netloc
    · have refused : (if (91 ∈ netloc ∧ 93 ∉ netloc) ∨ (93 ∈ netloc ∧ 91 ∉ netloc) then
          (.error .valueError : Except Exc SplitResult)
        else .error .valueError) = .error exc ↔ exc = .valueError := by
        rw [ite_self, Except.error.injEq, eq_comm]
      simp only [plain, bad, true_and, Bool.false_eq_true, false_and, false_or]
      rw [← refused]
      split
      · rfl
      · rename_i matched
        have failed : 91 ∈ netloc ∧ 93 ∈ netloc ∧
            CPython.checkBracketedNetloc netloc = false := by
          rw [BadBrackets] at bad
          tauto
        rw [if_pos failed]
    · rw [if_neg fun unmatched => bad (.inl (by tauto)),
        if_neg fun failed => bad (.inr ⟨failed.1, failed.2.2⟩)]
      simp [plain, bad]

theorem escapes_splitUri [CPython] {uri : Bytes} : Escapes (splitUri uri) ↔ BadTarget uri := by
  unfold splitUri BadTarget
  dsimp only
  split
  · rename_i relative
    simp [Escapes, relative]
  · rename_i absolute
    cases split : urlsplit uri with
    | ok parts =>
        have fine : ¬ ∃ exc, urlsplit uri = .error exc := by simp [split]
        have good : ¬ (uri.any (128 ≤ ·) = false ∧ BadBrackets (authority uri)) :=
          fun bad => fine ⟨.valueError, urlsplit_error_iff.mpr (.inr ⟨bad.1, bad.2, rfl⟩)⟩
        simp only [Escapes, false_iff]
        exact fun bad => good bad.2
    | error exc =>
        rcases urlsplit_error_iff.mp split with ⟨foreign, rfl⟩ | ⟨plain, bad, rfl⟩
        · simp [Escapes, Exc.IsAnswered, foreign]
        · simp [Escapes, Exc.IsAnswered, plain, bad, absolute]

/-! ### The length -/

def RequestHead.lengthText (head : RequestHead) : Str :=
  head.headers.getD "CONTENT_LENGTH".toList "0".toList

theorem RequestHead.CleanValues.lengthText {head : RequestHead} (clean : head.CleanValues) :
    head.lengthText.all isValueChar = true := by
  unfold RequestHead.lengthText Dict.getD
  cases found : head.headers.get? "CONTENT_LENGTH".toList with
  | none => decide
  | some value => exact clean _ value found

/-- On one line of Latin-1 text the pattern accepts the decimal numbers. -/
theorem encode_onlyDigit {text : Str} (clean : text.all isValueChar = true) :
    ∃ encoded, encodeLatin1 text = .ok encoded ∧
      ((matchLine onlyDigitRe encoded).isSome = true ↔ IsDecimal text) := by
  have each := List.all_eq_true.mp clean
  have latin1 : (text.all fun c => decide (c.toNat < 256)) = true := by
    refine List.all_eq_true.mpr fun c mem => ?_
    have valueChar := each c mem
    simp only [isValueChar, Bool.and_eq_true] at valueChar
    exact valueChar.1.1
  have code : ∀ c ∈ text, (UInt8.ofNat c.toNat).toNat = c.toNat := by
    intro c mem
    have small := of_decide_eq_true (List.all_eq_true.mp latin1 c mem)
    exact Nat.mod_eq_of_lt small
  have encoded : encodeLatin1 text = .ok (text.map fun c => UInt8.ofNat c.toNat) := if_pos latin1
  refine ⟨_, encoded, ?_⟩
  have noFeed : (10 : UInt8) ∉ text.map fun c => UInt8.ofNat c.toNat := by
    intro mem
    obtain ⟨c, inside, feed⟩ := List.mem_map.mp mem
    have valueChar := each c inside
    have value := code c inside
    rw [feed] at value
    simp only [isValueChar, Bool.and_eq_true, decide_eq_true_eq] at valueChar
    exact valueChar.1.2 value.symm
  have digit : ∀ c ∈ text, Waitress.digit (UInt8.ofNat c.toNat).toNat = isDecimalChar c := by
    intro c mem
    rw [code c mem]
    rfl
  rw [matchLine_isSome_iff, onlyDigitRe, classOf]
  simp only [Regex.matches_plus_cls]
  constructor
  · rintro ⟨word, feed, stray, whole, _, nonempty, digits, rfl⟩
    rcases stray with rfl | rfl
    · rw [List.append_nil] at whole
      subst whole
      refine ⟨by simpa using nonempty, List.all_eq_true.mpr fun c mem => ?_⟩
      rw [← digit c mem]
      exact digits _ (List.mem_map_of_mem mem)
    · exact absurd (whole ▸ by simp) noFeed
  · rintro ⟨nonempty, digits⟩
    refine ⟨_, [], .inl rfl, (List.append_nil _).symm, [], by simpa using nonempty, ?_, rfl⟩
    intro x mem
    obtain ⟨c, inside, rfl⟩ := List.mem_map.mp mem
    rw [digit c inside]
    exact List.all_eq_true.mp digits c inside

theorem parseContentLength_result {adj : Adjustments} {head : RequestHead}
    (clean : head.CleanValues) :
    (exec (parseContentLength adj) head).1 =
      if ¬ IsDecimal head.lengthText then
        .error (.parsingError "Content-Length is invalid".toList)
      else if head.lengthText.length ≤ intMaxStrDigits then .ok ⟨⟩
      else .error .valueError := by
  obtain ⟨encoded, latin1, onlyDigits⟩ := encode_onlyDigit clean.lengthText
  unfold parseContentLength
  rw [exec_get_bind]
  change (exec (MonadExcept.ofExcept (encodeLatin1 head.lengthText) >>= _) head).1 = _
  rw [exec_bind, exec_ofExcept, latin1]
  dsimp only
  by_cases decimal : IsDecimal head.lengthText
  · rw [if_neg (by rw [onlyDigits.mpr decimal]; decide), if_neg (not_not_intro decimal)]
    change (exec (MonadExcept.ofExcept (intOfStr head.lengthText) >>= _) head).1 = _
    rw [exec_bind, exec_ofExcept, decimal.intOfStr]
    by_cases short : head.lengthText.length ≤ intMaxStrDigits
    · rw [if_pos short, if_pos short]
      dsimp only
      rw [exec_modify_bind]
      split <;> rfl
    · rw [if_neg short, if_neg short]
  · rw [if_pos (by simpa using mt onlyDigits.mp decimal), if_pos decimal]
    rfl

/-- The length is read and has more digits than `int` converts. -/
def RequestHead.LongLength (head : RequestHead) : Prop :=
  (head.version = "1.1".toList →
      encodings (head.headers.getD "TRANSFER_ENCODING".toList []) = []) ∧
    IsDecimal head.lengthText ∧ intMaxStrDigits < head.lengthText.length

theorem escapes_parseContentLength {adj : Adjustments} {head : RequestHead}
    (clean : head.CleanValues) :
    Escapes (exec (parseContentLength adj) head).1 ↔
      IsDecimal head.lengthText ∧ intMaxStrDigits < head.lengthText.length := by
  rw [parseContentLength_result clean]
  by_cases decimal : IsDecimal head.lengthText
  · rw [if_neg (not_not_intro decimal)]
    split
    · rename_i short
      simp only [Escapes, false_iff]
      exact fun long => absurd long.2 (Nat.not_lt.mpr short)
    · rename_i long
      simp only [Escapes, Exc.IsAnswered, not_false_eq_true, true_iff]
      exact ⟨decimal, Nat.lt_of_not_le long⟩
  · rw [if_pos decimal]
    simp only [Escapes, Exc.IsAnswered, not_true_eq_false, false_iff]
    exact fun long => decimal long.1

theorem parseTransferEncoding_raises (adj : Adjustments) (connection : Str) :
    RaisesOnly Exc.IsAnswered (parseTransferEncoding adj connection) := by
  unfold parseTransferEncoding
  refine raisesOnly_bind raisesOnly_get fun head => ?_
  refine raisesOnly_bind (raisesOnly_modify _) fun _ => ?_
  dsimp only
  split
  · exact raisesOnly_throw trivial
  · split
    · split
      · exact raisesOnly_throw trivial
      · refine raisesOnly_bind raisesOnly_get fun _ => ?_
        exact raisesOnly_bind (raisesOnly_modify _) fun _ => raisesOnly_modify _
    · split
      · exact raisesOnly_throw trivial
      · exact raisesOnly_modify _

theorem exec_parseTransferEncoding_plain (adj : Adjustments) (connection : Str)
    {head : RequestHead}
    (plain : encodings (head.headers.getD "TRANSFER_ENCODING".toList []) = []) :
    exec (parseTransferEncoding adj connection) head =
      (.ok ⟨⟩, head.popTransferEncoding.assignExpectation connection) := by
  unfold parseTransferEncoding
  rw [exec_get_bind, exec_modify_bind]
  dsimp only
  rw [plain, if_neg (by simp), if_neg (by simp), if_neg (by simp), exec_modify]
  rfl

theorem escapes_parseFraming {adj : Adjustments} {head : RequestHead} (clean : head.CleanValues)
    (notChunked : head.chunked = false) :
    Escapes (exec (parseFraming adj) head).1 ↔ head.LongLength := by
  have sameLength : ∀ other : RequestHead,
      other.lengthText = head.lengthText → other.CleanValues →
      (Escapes (exec (parseContentLength adj) other).1 ↔
        IsDecimal head.lengthText ∧ intMaxStrDigits < head.lengthText.length) := by
    intro other same cleanOther
    rw [escapes_parseContentLength cleanOther, same]
  unfold parseFraming
  rw [exec_get_bind, exec_get_bind, exec_bind,
    show head.headers.getD "CONNECTION".toList [] = head.connection from rfl, exec_parseKeepAlive]
  dsimp only
  have notYet : head.assignVersion.chunked = false := notChunked
  by_cases version : head.version = "1.1".toList
  · rw [if_pos version, exec_bind, RequestHead.LongLength]
    by_cases plain : encodings (head.headers.getD "TRANSFER_ENCODING".toList []) = []
    · have coded : exec (parseTransferEncoding adj head.connection) head.assignVersion = _ :=
        exec_parseTransferEncoding_plain adj head.connection plain
      have notChunkedThen : (head.assignVersion.popTransferEncoding.assignExpectation
          head.connection).chunked = false := notChunked
      rw [coded]
      dsimp only
      rw [exec_get_bind, if_pos notChunkedThen, sameLength]
      · exact ⟨fun long => ⟨fun _ => plain, long⟩, fun long => long.2⟩
      · simp only [RequestHead.lengthText, RequestHead.assignExpectation,
          RequestHead.popTransferEncoding, RequestHead.assignVersion, Dict.getD]
        rw [Dict.get?_erase, if_neg (by decide)]
      · intro name value found
        change (head.headers.erase _).get? name = some value at found
        rw [Dict.get?_erase] at found
        split at found
        · cases found
        · exact clean name value found
    · have noLength : ¬ ((head.version = "1.1".toList →
          encodings (head.headers.getD "TRANSFER_ENCODING".toList []) = []) ∧
          IsDecimal head.lengthText ∧ intMaxStrDigits < head.lengthText.length) :=
        fun long => plain (long.1 version)
      simp only [noLength, iff_false]
      rcases outcome : exec (parseTransferEncoding adj head.connection) head.assignVersion with
        ⟨exc | ⟨⟩, middle⟩
      · exact not_not_intro (parseTransferEncoding_raises adj _ _ _ _ outcome)
      · rcases parseTransferEncoding_ok outcome with ⟨none, -⟩ | ⟨-, rfl⟩
        · exact absurd none plain
        · dsimp only
          rw [exec_get_bind, if_neg (by simp [RequestHead.assignChunked,
            RequestHead.assignExpectation])]
          exact not_false
  · rw [if_neg version, exec_get_bind, if_pos notYet, sameLength head.assignVersion rfl clean,
      RequestHead.LongLength]
    simp only [version, false_implies, true_and]

/-! ### The head -/

/-- The start line and the fields are well formed, but the standard library
refuses the target or the length. -/
inductive Unanswered [CPython] (adj : Adjustments) (block : Bytes) : Prop where
  | target {command uri version : Bytes} {lines : RequestHead} :
      exec (parseLines block) {} = (.ok (command, uri, version), lines) → BadTarget uri →
      Unanswered adj block
  | length {command uri version : Bytes} {lines : RequestHead} {parts : SplitUri} :
      exec (parseLines block) {} = (.ok (command, uri, version), lines) →
      splitUri uri = .ok parts →
      (lines.assignTarget adj command uri version parts).LongLength → Unanswered adj block

theorem escapes_parseHeader [CPython] {adj : Adjustments} {block : Bytes} :
    Escapes (exec (parseHeader adj block) {}).1 ↔ Unanswered adj block := by
  unfold parseHeader
  rw [exec_bind]
  rcases read : exec (parseLines block) {} with ⟨exc | ⟨command, uri, version⟩, lines⟩
  · have answered := parseLines_raises block _ _ _ read
    refine ⟨fun escapes => absurd answered escapes, fun unanswered => ?_⟩
    cases unanswered with
    | target parsed => cases read.symm.trans parsed
    | length parsed => cases read.symm.trans parsed
  · dsimp only
    cases split : splitUri uri with
    | error exc =>
        have failed : (exec (parseTarget adj command uri version) lines).1 = .error exc := by
          simp only [parseTarget, exec_bind, exec_modify, exec_ofExcept, split]
        have bad : Escapes (splitUri uri) ↔ BadTarget uri := escapes_splitUri
        rw [split] at bad
        rw [exec_bind_error failed]
        refine Iff.trans bad ⟨fun badTarget => .target read badTarget, fun unanswered => ?_⟩
        cases unanswered with
        | target parsed badTarget =>
            cases read.symm.trans parsed
            exact badTarget
        | length parsed parts =>
            cases read.symm.trans parsed
            cases split.symm.trans parts
    | ok parts =>
        rw [exec_bind, exec_parseTarget split]
        have unread := parseLines_frame block {}
        rw [read] at unread
        have notChunked : false = lines.chunked := congrArg RequestHead.chunked unread
        have clean := parseLines_clean block {} (by rintro _ _ ⟨⟩)
        rw [read] at clean
        change Escapes (exec (parseFraming adj)
          (lines.assignTarget adj command uri version parts)).1 ↔ _
        have framed : Escapes (exec (parseFraming adj)
            (lines.assignTarget adj command uri version parts)).1 ↔ _ :=
          escapes_parseFraming clean notChunked.symm
        rw [framed]
        refine ⟨fun long => .length read split long, fun unanswered => ?_⟩
        cases unanswered with
        | target parsed badTarget =>
            cases read.symm.trans parsed
            have escapes := escapes_splitUri.mpr badTarget
            rw [split] at escapes
            exact escapes.elim
        | length parsed parts long =>
            cases read.symm.trans parsed
            cases split.symm.trans parts
            exact long

/-! ### The stream -/

namespace Reading

variable [CPython] {adj : Adjustments}

theorem headEnd_eq_raised {text : Bytes} :
    headEnd adj text = .raised ↔ Unanswered adj (Bytes.lstrip text) := by
  rw [← escapes_parseHeader]
  unfold headEnd
  split
  · rename_i blank
    have noLine : (exec (parseLines []) {}).1 =
        .error (.parsingError "HTTP message header invalid".toList) := rfl
    rw [blank, parseHeader, exec_bind_error noLine]
    exact ⟨Reading.noConfusion, fun escapes => (escapes trivial).elim⟩
  · rcases outcome : exec (parseHeader adj (Bytes.lstrip text)) {} with ⟨exc | ⟨⟩, request⟩
    · cases exc <;> simp [Escapes, Exc.IsAnswered]
    · simp only [Escapes, iff_false]
      split
      · exact Reading.noConfusion
      · split <;> exact Reading.noConfusion

/-- A head that is refused by an answered exception is an error. -/
theorem headEnd_eq_failed {text : Bytes} {exc : Exc} (nonblank : Bytes.lstrip text ≠ [])
    (failed : (exec (parseHeader adj (Bytes.lstrip text)) {}).1 = .error exc)
    (answered : exc.IsAnswered) : headEnd adj text = .failed := by
  rw [headEnd, if_neg nonblank]
  rcases outcome : exec (parseHeader adj (Bytes.lstrip text)) {} with ⟨raised | ⟨⟩, request⟩
  · rw [outcome] at failed
    cases failed
    cases exc <;> first | rfl | exact answered.elim
  · rw [outcome] at failed
    cases failed

def IsHeaded : Reading → Prop
  | .heading _ => False
  | _ => True

theorem headEnd_isHeaded (text : Bytes) : (headEnd adj text).IsHeaded := by
  unfold headEnd
  split
  · trivial
  · split
    · trivial
    · trivial
    · trivial
    · split
      · trivial
      · split <;> trivial

theorem run_raised_iff {state : Reading} (headed : state.IsHeaded) (input : Bytes) :
    ((reader adj).run state input).1 = .raised ↔ state = .raised := by
  induction input generalizing state with
  | nil => rfl
  | cons x input inductionHypothesis =>
      cases state with
      | heading text => exact headed.elim
      | body request state count =>
          rw [(reader adj).run_cons rfl]
          change ((reader adj).run (inBody adj request (state.step x) (count + 1)) input).1 = _ ↔ _
          have next : (inBody adj request (state.step x) (count + 1)).IsHeaded ∧
              inBody adj request (state.step x) (count + 1) ≠ .raised := by
            unfold inBody
            split_ifs <;> exact ⟨trivial, Reading.noConfusion⟩
          rw [inductionHypothesis next.1]
          simp [next.2]
      | blank => rw [(reader adj).run_halted rfl]
      | ready request content => rw [(reader adj).run_halted rfl]
      | failed => rw [(reader adj).run_broken rfl]
      | raised => rw [(reader adj).run_broken rfl]

end Reading

namespace Feeding

variable [CPython]

/-- The stream begins with a complete head, which is not too large. -/
def HasHead (adj : Adjustments) (stream head : Bytes) : Prop :=
  ∃ index, findDoubleNewline stream = some index ∧ (index : Int) < adj.maxRequestHeaderSize ∧
    head = Bytes.lstrip (stream.take index)

/-- The stream begins with a head that is too large. -/
def HasLargeHead (adj : Adjustments) (stream : Bytes) : Prop :=
  stream ≠ [] ∧ ((findDoubleNewline stream).getD stream.length : Int) ≥ adj.maxRequestHeaderSize

/-- Every call of `received` returns, and a head that is too large or that
`parse_header` refuses is answered with an error. -/
def Answers (adj : Adjustments) (segments : List Bytes) : Prop :=
  ((consumer adj).feed {} segments).1.raised = none ∧
    (HasLargeHead adj segments.flatten ∨
        (∃ head exc, HasHead adj segments.flatten head ∧ head ≠ [] ∧
          (exec (parseHeader adj head) {}).1 = .error exc) →
      ((consumer adj).feed {} segments).1.parser.completed = true ∧
        ((consumer adj).feed {} segments).1.parser.error.isSome = true)

theorem run_eq_raised {adj : Adjustments} {stream : Bytes} :
    ((reader adj).run (.heading []) stream).1 = .raised ↔
      ∃ head, HasHead adj stream head ∧ Unanswered adj head := by
  by_cases empty : stream = []
  · subst empty
    simp only [Incremental.Machine.run_nil, reduceCtorEq, false_iff]
    rintro ⟨head, ⟨index, found, -⟩, -⟩
    cases found
  rw [Reading.run_heading adj (by decide) empty, List.nil_append]
  cases found : findDoubleNewline stream with
  | none =>
      have noHead : ¬ ∃ head, HasHead adj stream head ∧ Unanswered adj head := by
        rintro ⟨head, ⟨index, ends, -⟩, -⟩
        cases found.symm.trans ends
      simp only [noHead, iff_false]
      split <;> exact Reading.noConfusion
  | some index =>
      rw [Option.getD_some]
      split
      · rename_i large
        simp only [reduceCtorEq, false_iff]
        rintro ⟨head, ⟨other, ends, small, -⟩, -⟩
        cases found.symm.trans ends
        omega
      · rename_i small
        dsimp only
        rw [Reading.run_raised_iff (Reading.headEnd_isHeaded _), Reading.headEnd_eq_raised]
        constructor
        · exact fun unanswered => ⟨_, ⟨index, found, by omega, rfl⟩, unanswered⟩
        · rintro ⟨head, ⟨other, ends, -, rfl⟩, unanswered⟩
          cases found.symm.trans ends
          exact unanswered

theorem run_eq_failed {adj : Adjustments} {stream : Bytes}
    (refused : HasLargeHead adj stream ∨
      ∃ head exc, HasHead adj stream head ∧ head ≠ [] ∧
        (exec (parseHeader adj head) {}).1 = .error exc ∧ exc.IsAnswered) :
    ((reader adj).run (.heading []) stream).1 = .failed := by
  rcases refused with ⟨nonempty, large⟩ |
    ⟨head, exc, ⟨index, found, small, rfl⟩, nonblank, failed, answered⟩
  · rw [Reading.run_heading adj (by decide) nonempty, List.nil_append, if_pos (by simpa using large)]
  · have nonempty : stream ≠ [] := by
      rintro rfl
      cases found
    rw [Reading.run_heading adj (by decide) nonempty, List.nil_append, found, Option.getD_some,
      if_neg (by omega)]
    dsimp only
    rw [Reading.headEnd_eq_failed nonblank failed answered, Reading.run_failed]

/-- The parser answers everything except for a head with a target or a length
that the standard library refuses. -/
theorem answers_iff (adj : Adjustments) (segments : List Bytes) :
    Answers adj segments ↔
      ¬ ∃ head, HasHead adj segments.flatten head ∧ Unanswered adj head := by
  have follows := (feed_follows adj segments).1
  rw [← run_eq_raised, ← follows.raised_iff]
  constructor
  · intro answers raised
    rw [answers.1] at raised
    cases raised
  · intro returned
    have never : ((consumer adj).feed {} segments).1.raised = none := by simpa using returned
    refine ⟨never, fun refused => ?_⟩
    have failed : ((reader adj).run (.heading []) segments.flatten).1 = .failed := by
      refine run_eq_failed (refused.imp_right ?_)
      rintro ⟨head, exc, hasHead, nonblank, failed⟩
      refine ⟨head, exc, hasHead, nonblank, failed, ?_⟩
      by_contra escapes
      have unanswered : Unanswered adj head := by
        rw [← escapes_parseHeader, failed]
        exact escapes
      exact returned (follows.raised_iff.mpr (run_eq_raised.mpr ⟨head, hasHead, unanswered⟩))
    rw [failed] at follows
    exact ⟨follows.1, follows.2.2.1⟩

omit [CPython] in
/-- An opening bracket in the authority escapes as a `ValueError`. -/
theorem not_answers_bracket :
    let _ : CPython := .unchecked
    ¬ Answers {} [ascii "GET http://[ HTTP/1.1\r\n\r\n"] := by
  intro cpython answers
  have read : ((reader {}).run (.heading []) (ascii "GET http://[ HTTP/1.1\r\n\r\n")).1 =
      .raised := by decide +kernel
  have follows := (feed_follows {} [ascii "GET http://[ HTTP/1.1\r\n\r\n"]).1
  rw [List.flatten_singleton] at follows
  have raised := follows.raised_iff.mpr read
  rw [answers.1] at raised
  cases raised

end Feeding

end Waitress
