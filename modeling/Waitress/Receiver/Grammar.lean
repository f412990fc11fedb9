import Waitress.Receiver

/-!
# The grammar of chunked messages

Chunked messages as lists of bytes, apart from any reader.  The regular
expressions accept the size lines of RFC 7230 and, in addition, a line feed at
the end of the digits or of the extensions; `chunkSize_eq_ok_iff` says so.
-/

namespace Waitress

def IsToken (word : Bytes) : Prop := word ≠ [] ∧ ∀ x ∈ word, tchar x.toNat = true

instance : DecidablePred IsToken := fun word =>
  decidable_of_iff (word ≠ [] ∧ word.all (fun x => tchar x.toNat) = true) (by simp [IsToken])

def IsQuotedChar (piece : Bytes) : Prop :=
  (∃ x, qdtext x.toNat = true ∧ piece = [x]) ∨ ∃ x, quotable x.toNat = true ∧ piece = [92, x]

def IsQuotedString (word : Bytes) : Prop :=
  ∃ pieces : List Bytes, (∀ piece ∈ pieces, IsQuotedChar piece) ∧
    word = 34 :: (pieces.flatten ++ [34])

/-- `";" chunk-ext-name [ "=" chunk-ext-val ]` -/
def IsExtensionItem (word : Bytes) : Prop :=
  ∃ name, IsToken name ∧
    (word = 59 :: name ∨
      ∃ value, (IsToken value ∨ IsQuotedString value) ∧ word = 59 :: (name ++ 61 :: value))

def IsChunkExt (word : Bytes) : Prop :=
  ∃ items : List Bytes, (∀ item ∈ items, IsExtensionItem item) ∧ word = items.flatten

theorem isChunkExt_nil : IsChunkExt [] := ⟨[], by simp, rfl⟩

def IsChunkSize (word : Bytes) : Prop := word ≠ [] ∧ ∀ x ∈ word, hexdig x.toNat = true

instance : DecidablePred IsChunkSize := fun word =>
  decidable_of_iff (word ≠ [] ∧ word.all (fun x => hexdig x.toNat) = true)
    (by simp [IsChunkSize])

/-- A size line of the RFC: hexadecimal digits and chunk extensions. -/
def SizeLine (line : Bytes) (size : Nat) : Prop :=
  ∃ digits ext, IsChunkSize digits ∧ IsChunkExt ext ∧ line = digits ++ ext ∧
    hexNumber digits = size

def IsStrayFeed (word : Bytes) : Prop := word = [] ∨ word = [10]

/-- A size line as the decoder takes it: a line feed may follow the digits, and
another one the extensions if there are any. -/
def LooseSizeLine (line : Bytes) (size : Nat) : Prop :=
  ∃ digits feed tail, IsChunkSize digits ∧ IsStrayFeed feed ∧
    (tail = [] ∨ ∃ ext lastFeed, IsChunkExt ext ∧ ext ≠ [] ∧ IsStrayFeed lastFeed ∧
      tail = ext ++ lastFeed) ∧
    line = digits ++ feed ++ tail ∧ hexNumber digits = size

def IsTrailer (text : Bytes) : Prop :=
  text = crlf ∨ ¬ crlf <+: text ∧ findDoubleNewline text = some text.length

/-- `ChunkedMessage sizeLine lines wire content`: the bytes `wire` are a chunked
message with these size lines and this content.  Blank lines may stand before
a size line. -/
inductive ChunkedMessage (sizeLine : Bytes → Nat → Prop) : List Bytes → Bytes → Bytes → Prop where
  | blank {lines wire content} :
      ChunkedMessage sizeLine lines wire content →
      ChunkedMessage sizeLine lines (crlf ++ wire) content
  | chunk {line chunk lines wire content} :
      sizeLine line chunk.length → chunk ≠ [] →
      ChunkedMessage sizeLine lines wire content →
      ChunkedMessage sizeLine (line :: lines) (line ++ crlf ++ (chunk ++ crlf ++ wire))
        (chunk ++ content)
  | last {line trailer} :
      sizeLine line 0 → IsTrailer trailer →
      ChunkedMessage sizeLine [line] (line ++ crlf ++ trailer) []

/-! ### The regular expressions -/

theorem lit_matches {n : Nat} {word : Bytes} {captures : Regex.Captures UInt8} (small : n < 256) :
    Regex.Matches (lit UInt8.toNat n) word captures ↔ word = [UInt8.ofNat n] ∧ captures = [] := by
  simp only [lit, Regex.matches_cls, decide_eq_true_eq]
  refine and_congr_left fun _ => ?_
  constructor
  · rintro ⟨x, code, rfl⟩
    simp [← code]
  · rintro rfl
    exact ⟨_, UInt8.toNat_ofNat_of_lt' small, rfl⟩

theorem token_matches {word : Bytes} {captures : Regex.Captures UInt8} :
    Regex.Matches (token UInt8.toNat) word captures ↔ IsToken word ∧ captures = [] := by
  simp only [token, classOf, Regex.matches_plus_cls, IsToken, and_assoc]

theorem quotedChar_matches {word : Bytes} :
    (word ≠ [] ∧ ∃ captures,
      Regex.Matches (.alt (classOf UInt8.toNat qdtext) (quotedPair UInt8.toNat)) word captures) ↔
      IsQuotedChar word := by
  simp only [quotedPair, classOf, Regex.matches_alt, Regex.matches_seq, Regex.matches_group,
    Regex.matches_cls, lit_matches (show 92 < 256 by decide), IsQuotedChar]
  constructor
  · rintro ⟨-, captures, ⟨⟨x, plain, rfl⟩, rfl⟩ |
      ⟨_, _, _, _, ⟨rfl, rfl⟩, ⟨_, ⟨⟨x, quoted, rfl⟩, rfl⟩, rfl⟩, rfl, rfl⟩⟩
    · exact .inl ⟨x, plain, rfl⟩
    · exact .inr ⟨x, quoted, rfl⟩
  · rintro (⟨x, plain, rfl⟩ | ⟨x, quoted, rfl⟩)
    · exact ⟨by simp, [], .inl ⟨⟨x, plain, rfl⟩, rfl⟩⟩
    · exact ⟨by simp, _, .inr ⟨_, _, _, _, ⟨rfl, rfl⟩, ⟨_, ⟨⟨x, quoted, rfl⟩, rfl⟩, rfl⟩, rfl, rfl⟩⟩

theorem quotedString_matches {word : Bytes} :
    (∃ captures, Regex.Matches (quotedString UInt8.toNat) word captures) ↔ IsQuotedString word := by
  have body : ∀ inner : Bytes,
      (∃ captures, Regex.Matches (.star true
        (.alt (classOf UInt8.toNat qdtext) (quotedPair UInt8.toNat))) inner captures) ↔
      ∃ pieces : List Bytes, (∀ piece ∈ pieces, IsQuotedChar piece) ∧ inner = pieces.flatten := by
    intro inner
    rw [Regex.exists_matches_star]
    simp only [quotedChar_matches]
    exact exists_congr fun pieces => and_comm
  simp only [quotedString, Regex.matches_seq, lit_matches (show 34 < 256 by decide), IsQuotedString]
  constructor
  · rintro ⟨_, _, _, _, _, ⟨rfl, rfl⟩, ⟨inner, captures, _, _, matched, ⟨rfl, rfl⟩, rfl, rfl⟩, rfl, rfl⟩
    obtain ⟨pieces, each, rfl⟩ := (body inner).mp ⟨_, matched⟩
    exact ⟨pieces, each, rfl⟩
  · rintro ⟨pieces, each, rfl⟩
    obtain ⟨captures, matched⟩ := (body pieces.flatten).mpr ⟨pieces, each, rfl⟩
    exact ⟨_, _, _, _, _, ⟨rfl, rfl⟩, ⟨_, _, _, _, matched, ⟨rfl, rfl⟩, rfl, rfl⟩, rfl, rfl⟩

theorem extensionItem_matches {word : Bytes} :
    (∃ captures, Regex.Matches (chunkExtItem UInt8.toNat) word captures) ↔
      IsExtensionItem word := by
  have value : ∀ text : Bytes,
      (∃ captures, Regex.Matches (.alt (token UInt8.toNat) (quotedString UInt8.toNat)) text captures) ↔
        IsToken text ∨ IsQuotedString text := by
    intro text
    simp only [Regex.matches_alt, exists_or, quotedString_matches, token_matches, exists_and_left,
      exists_eq, and_true]
  simp only [chunkExtItem, Regex.matches_seq, Regex.matches_group, Regex.matches_opt,
    lit_matches (show 59 < 256 by decide), lit_matches (show 61 < 256 by decide), token_matches,
    IsExtensionItem]
  constructor
  · rintro ⟨_, _, _, _, _, ⟨rfl, rfl⟩, ⟨name, _, _, _, ⟨_, ⟨isToken, rfl⟩, rfl⟩, tail, rfl, rfl⟩,
      rfl, rfl⟩
    refine ⟨name, isToken, ?_⟩
    rcases tail with ⟨_, _, text, _, ⟨rfl, rfl⟩, ⟨captures, matched, rfl⟩, rfl, rfl⟩ | ⟨rfl, rfl⟩
    · exact .inr ⟨text, (value text).mp ⟨captures, matched⟩, rfl⟩
    · exact .inl (by simp)
  · rintro ⟨name, isToken, rfl | ⟨text, isValue, rfl⟩⟩
    · exact ⟨_, _, _, name, _, ⟨rfl, rfl⟩, ⟨name, _, [], [], ⟨_, ⟨isToken, rfl⟩, rfl⟩,
        .inr ⟨rfl, rfl⟩, by simp, rfl⟩, rfl, rfl⟩
    · obtain ⟨captures, matched⟩ := (value text).mpr isValue
      exact ⟨_, _, _, _, _, ⟨rfl, rfl⟩, ⟨name, _, _, _, ⟨_, ⟨isToken, rfl⟩, rfl⟩,
        .inl ⟨_, _, text, _, ⟨rfl, rfl⟩, ⟨captures, matched, rfl⟩, rfl, rfl⟩, rfl, rfl⟩, rfl, rfl⟩

theorem IsExtensionItem.head {word : Bytes} (item : IsExtensionItem word) :
    ∃ rest, word = 59 :: rest := by
  obtain ⟨name, -, rfl | ⟨value, -, rfl⟩⟩ := item
  · exact ⟨_, rfl⟩
  · exact ⟨_, rfl⟩

theorem chunkExt_matches {word : Bytes} :
    (∃ captures, Regex.Matches chunkExtRe word captures) ↔ IsChunkExt word := by
  rw [chunkExtRe, chunkExt, Regex.exists_matches_star, IsChunkExt]
  simp only [extensionItem_matches]
  refine exists_congr fun items => ?_
  constructor
  · rintro ⟨rfl, each⟩
    exact ⟨fun item mem => (each item mem).2, rfl⟩
  · rintro ⟨each, rfl⟩
    refine ⟨rfl, fun item mem => ⟨?_, each item mem⟩⟩
    obtain ⟨rest, rfl⟩ := (each item mem).head
    simp

theorem chunkSize_matches {word : Bytes} :
    (∃ captures, Regex.Matches onlyHexdigRe word captures) ↔ IsChunkSize word := by
  simp [onlyHexdigRe, classOf, IsChunkSize]

/-- The dollar of the patterns lets a line feed pass at the end. -/
theorem matchLine_isSome_iff {regex : Regex UInt8} {line : Bytes} :
    (matchLine regex line).isSome = true ↔
      ∃ word feed, IsStrayFeed feed ∧ line = word ++ feed ∧
        ∃ captures, Regex.Matches regex word captures := by
  rw [matchLine, Regex.lineMatch?_isSome_iff]
  constructor
  · rintro ⟨word, captures, rfl | rfl, matched⟩
    · exact ⟨line, [], .inl rfl, by simp, captures, matched⟩
    · exact ⟨word, [10], .inr rfl, rfl, captures, matched⟩
  · rintro ⟨word, feed, rfl | rfl, rfl, captures, matched⟩
    · exact ⟨word, captures, .inl (by simp), matched⟩
    · exact ⟨word, captures, .inr rfl, matched⟩

/-! ### Size lines -/

theorem IsChunkSize.not_mem {digits : Bytes} (size : IsChunkSize digits) {x : UInt8}
    (other : hexdig x.toNat = false) : x ∉ digits := by
  intro mem
  rw [size.2 x mem] at other
  exact absurd other (by simp)

theorem IsQuotedString.not_mem {word : Bytes} (quoted : IsQuotedString word) {x : UInt8}
    (other : quotable x.toNat = false) : x ∉ word := by
  have plain : qdtext x.toNat = false := by
    simp only [qdtext, quotable, vchar, obsText, Bool.or_eq_false_iff, decide_eq_false_iff_not,
      Bool.and_eq_false_iff] at other ⊢
    omega
  have notQuote : x ≠ 34 ∧ x ≠ 92 := by
    constructor <;> rintro rfl <;> exact absurd other (by decide)
  obtain ⟨pieces, each, rfl⟩ := quoted
  intro mem
  simp only [List.mem_cons, List.mem_append, List.mem_flatten, List.not_mem_nil, or_false] at mem
  rcases mem with isQuote | ⟨piece, inPieces, inPiece⟩ | isQuote
  · exact notQuote.1 isQuote
  · rcases each piece inPieces with ⟨y, isPlain, rfl⟩ | ⟨y, isQuotable, rfl⟩
    · obtain rfl := List.mem_singleton.mp inPiece
      exact absurd (isPlain.symm.trans plain) (by simp)
    · simp only [List.mem_cons, List.not_mem_nil, or_false] at inPiece
      rcases inPiece with isBackslash | rfl
      · exact notQuote.2 isBackslash
      · exact absurd (isQuotable.symm.trans other) (by simp)
  · exact notQuote.1 isQuote

theorem IsChunkExt.not_mem {ext : Bytes} (isExt : IsChunkExt ext) {x : UInt8}
    (other : quotable x.toNat = false) : x ∉ ext := by
  have noToken : ∀ {word : Bytes}, IsToken word → x ∉ word := by
    intro word isToken mem
    have isTchar := isToken.2 x mem
    have isQuotable : quotable x.toNat = true := by
      simp only [tchar, digit, alpha, quotable, vchar, Bool.or_eq_true, Bool.and_eq_true,
        decide_eq_true_eq] at isTchar ⊢
      omega
    exact absurd (isQuotable.symm.trans other) (by simp)
  have notMark : x ≠ 59 ∧ x ≠ 61 := by
    constructor <;> rintro rfl <;> exact absurd other (by decide)
  obtain ⟨items, each, rfl⟩ := isExt
  intro mem
  obtain ⟨item, inItems, inItem⟩ := List.mem_flatten.mp mem
  obtain ⟨name, isName, rfl | ⟨value, isValue, rfl⟩⟩ := each item inItems
  · rcases List.mem_cons.mp inItem with isSemi | inName
    · exact notMark.1 isSemi
    · exact noToken isName inName
  · simp only [List.mem_cons, List.mem_append] at inItem
    rcases inItem with isSemi | inName | isEquals | inValue
    · exact notMark.1 isSemi
    · exact noToken isName inName
    · exact notMark.2 isEquals
    · exact isValue.elim (fun token => noToken token inValue) fun quoted =>
        quoted.not_mem other inValue

theorem IsChunkExt.head {ext : Bytes} (isExt : IsChunkExt ext) (nonempty : ext ≠ []) :
    ∃ rest, ext = 59 :: rest := by
  obtain ⟨items, each, rfl⟩ := isExt
  cases items with
  | nil => exact absurd rfl nonempty
  | cons item items =>
      obtain ⟨rest, rfl⟩ := (each item (by simp)).head
      exact ⟨rest ++ items.flatten, rfl⟩

theorem Bytes.dropWhile_isSpace {s : Bytes} (clean : ∀ x ∈ s, Bytes.isSpace x = false) :
    s.dropWhile Bytes.isSpace = s := by
  cases s with
  | nil => rfl
  | cons x s => simp [clean x (by simp)]

/-- `int` does not see the line feed that the pattern let pass. -/
theorem int16_eq {digits feed : Bytes} (size : IsChunkSize digits) (stray : IsStrayFeed feed) :
    int16 (digits ++ feed) = hexNumber digits := by
  have clean : ∀ x ∈ digits, Bytes.isSpace x = false := by
    intro x mem
    have isHex := size.2 x mem
    by_contra space
    simp only [Bytes.isSpace, Bool.not_eq_false, Bool.or_eq_true, Bool.and_eq_true,
      decide_eq_true_eq, UInt8.le_iff_toNat_le, ← UInt8.toNat_inj] at space
    simp only [hexdig, Bool.or_eq_true, Bool.and_eq_true, decide_eq_true_eq] at isHex
    simp at space
    omega
  have reversed : ∀ x ∈ digits.reverse, Bytes.isSpace x = false :=
    fun x mem => clean x (List.mem_reverse.mp mem)
  have stripped : Bytes.rstrip (digits ++ feed) = digits := by
    rcases stray with rfl | rfl
    · simp [Bytes.rstrip, Bytes.dropWhile_isSpace reversed]
    · have isFeed : Bytes.isSpace 10 = true := by decide
      simp [Bytes.rstrip, isFeed, Bytes.dropWhile_isSpace reversed]
  rw [int16, stripped, Bytes.lstrip, Bytes.dropWhile_isSpace clean]

theorem chunkSize_plain {word : Bytes} (absent : 59 ∉ word) :
    ChunkedReceiver.chunkSize word =
      if (matchLine onlyHexdigRe word).isSome = false then
        .error (.badRequest "Invalid chunk size".toList)
      else .ok (int16 word) := by
  have plain : Search.find (ascii ";") word = none := Search.find_eq_none_of_not_mem absent
  simp only [ChunkedReceiver.chunkSize, plain, Option.isSome_none, Option.getD_none,
    List.take_length, Bool.false_eq_true, false_and, if_false]

theorem chunkSize_extended {word ext : Bytes} (absent : 59 ∉ word) :
    ChunkedReceiver.chunkSize (word ++ 59 :: ext) =
      if (matchLine chunkExtRe (59 :: ext)).isSome = false then
        .error (.badRequest "Invalid chunk extension".toList)
      else if (matchLine onlyHexdigRe word).isSome = false then
        .error (.badRequest "Invalid chunk size".toList)
      else .ok (int16 word) := by
  have semi : Search.find (ascii ";") (word ++ 59 :: ext) = some word.length := by
    have first : Search.find [59] (word ++ [59] ++ ext) = some word.length :=
      Search.find_append_of_not_mem ext absent
    rwa [List.append_assoc] at first
  simp only [ChunkedReceiver.chunkSize, semi, Option.isSome_some, Option.getD_some,
    List.take_left, List.drop_left, true_and]

/-- The decoder reads exactly the loose size lines. -/
theorem chunkSize_eq_ok_iff {line : Bytes} {size : Nat} :
    ChunkedReceiver.chunkSize line = .ok size ↔ LooseSizeLine line size := by
  constructor
  · intro accepted
    by_cases semi : 59 ∈ line
    · obtain ⟨word, rest, rfl, absent⟩ := List.eq_append_cons_of_mem semi
      rw [chunkSize_extended absent] at accepted
      split at accepted
      · exact absurd accepted (by simp)
      · rename_i isExt
        split at accepted
        · exact absurd accepted (by simp)
        · rename_i isSize
          simp only [Bool.not_eq_false, matchLine_isSome_iff, chunkExt_matches,
            chunkSize_matches] at isExt isSize
          obtain ⟨digits, feed, stray, rfl, isDigits⟩ := isSize
          obtain ⟨ext, lastFeed, lastStray, split, isExt⟩ := isExt
          rw [int16_eq isDigits stray] at accepted
          refine ⟨digits, feed, _, isDigits, stray, .inr ⟨ext, lastFeed, isExt, ?_, lastStray,
            split⟩, rfl, Except.ok.inj accepted⟩
          rintro rfl
          rcases lastStray with rfl | rfl <;> simp at split
    · rw [chunkSize_plain semi] at accepted
      split at accepted
      · exact absurd accepted (by simp)
      · rename_i isSize
        simp only [Bool.not_eq_false, matchLine_isSome_iff, chunkSize_matches] at isSize
        obtain ⟨digits, feed, stray, rfl, isDigits⟩ := isSize
        rw [int16_eq isDigits stray] at accepted
        exact ⟨digits, feed, [], isDigits, stray, .inl rfl, by simp, Except.ok.inj accepted⟩
  · rintro ⟨digits, feed, tail, isDigits, stray, shape, rfl, rfl⟩
    have absent : 59 ∉ digits ++ feed := by
      rw [List.mem_append, not_or]
      refine ⟨isDigits.not_mem (by decide), ?_⟩
      rcases stray with rfl | rfl <;> decide
    have isSize : (matchLine onlyHexdigRe (digits ++ feed)).isSome = true :=
      matchLine_isSome_iff.mpr ⟨digits, feed, stray, rfl, chunkSize_matches.mpr isDigits⟩
    rcases shape with rfl | ⟨ext, lastFeed, isExt, nonempty, lastStray, rfl⟩
    · rw [List.append_nil, chunkSize_plain absent, isSize, int16_eq isDigits stray]
      rfl
    · have matched : (matchLine chunkExtRe (ext ++ lastFeed)).isSome = true :=
        matchLine_isSome_iff.mpr ⟨ext, lastFeed, lastStray, rfl, chunkExt_matches.mpr isExt⟩
      obtain ⟨rest, rfl⟩ := isExt.head nonempty
      rw [List.cons_append] at matched ⊢
      rw [chunkSize_extended absent, matched, isSize, int16_eq isDigits stray]
      rfl

theorem IsStrayFeed.not_mem {feed : Bytes} (stray : IsStrayFeed feed) {x : UInt8} (other : x ≠ 10) :
    x ∉ feed := by
  rcases stray with rfl | rfl <;> simp [other]

theorem LooseSizeLine.no_return {line : Bytes} {size : Nat} (loose : LooseSizeLine line size) :
    13 ∉ line := by
  obtain ⟨digits, feed, tail, isDigits, stray, shape, rfl, -⟩ := loose
  simp only [List.mem_append, not_or]
  refine ⟨⟨isDigits.not_mem (by decide), stray.not_mem (by decide)⟩, ?_⟩
  rcases shape with rfl | ⟨ext, lastFeed, isExt, -, lastStray, rfl⟩
  · simp
  · simp only [List.mem_append, not_or]
    exact ⟨isExt.not_mem (by decide), lastStray.not_mem (by decide)⟩

theorem LooseSizeLine.head {line : Bytes} {size : Nat} (loose : LooseSizeLine line size) :
    ∃ x rest, line = x :: rest ∧ x ≠ 13 := by
  have noReturn := loose.no_return
  obtain ⟨digits, feed, tail, isDigits, -, -, rfl, -⟩ := loose
  cases digits with
  | nil => exact absurd rfl isDigits.1
  | cons x digits => exact ⟨x, _, rfl, fun same => noReturn (by simp [same])⟩

theorem LooseSizeLine.unique {line : Bytes} {size other : Nat} (loose : LooseSizeLine line size)
    (again : LooseSizeLine line other) : size = other :=
  Except.ok.inj ((chunkSize_eq_ok_iff.mpr loose).symm.trans (chunkSize_eq_ok_iff.mpr again))

theorem SizeLine.loose {line : Bytes} {size : Nat} (sizeLine : SizeLine line size) :
    LooseSizeLine line size := by
  obtain ⟨digits, ext, isDigits, isExt, rfl, value⟩ := sizeLine
  refine ⟨digits, [], ext, isDigits, .inl rfl, ?_, by simp, value⟩
  by_cases empty : ext = []
  · exact .inl empty
  · exact .inr ⟨ext, [], isExt, empty, .inl rfl, by simp⟩

/-- The size lines of the RFC are the loose ones without a line feed. -/
theorem sizeLine_iff {line : Bytes} {size : Nat} :
    SizeLine line size ↔ LooseSizeLine line size ∧ 10 ∉ line := by
  constructor
  · intro sizeLine
    refine ⟨sizeLine.loose, ?_⟩
    obtain ⟨digits, ext, isDigits, isExt, rfl, -⟩ := sizeLine
    rw [List.mem_append, not_or]
    exact ⟨isDigits.not_mem (by decide), isExt.not_mem (by decide)⟩
  · rintro ⟨⟨digits, feed, tail, isDigits, stray, shape, rfl, value⟩, noFeed⟩
    simp only [List.mem_append, not_or] at noFeed
    obtain rfl : feed = [] := stray.resolve_right (by rintro rfl; exact noFeed.1.2 (by simp))
    rcases shape with rfl | ⟨ext, lastFeed, isExt, -, lastStray, rfl⟩
    · exact ⟨digits, [], isDigits, ⟨[], by simp, rfl⟩, by simp, value⟩
    · obtain rfl : lastFeed = [] :=
        lastStray.resolve_right (by rintro rfl; exact noFeed.2 (by simp))
      exact ⟨digits, ext, isDigits, isExt, by simp, value⟩

/-! ### Messages -/

namespace ChunkedMessage

theorem imp {first second : Bytes → Nat → Prop} {lines : List Bytes} {wire content : Bytes}
    (message : ChunkedMessage first lines wire content)
    (weaker : ∀ line ∈ lines, ∀ size, first line size → second line size) :
    ChunkedMessage second lines wire content := by
  induction message with
  | blank _ inductionHypothesis => exact .blank (inductionHypothesis weaker)
  | chunk sizeLine nonempty _ inductionHypothesis =>
      exact .chunk (weaker _ (by simp) _ sizeLine) nonempty
        (inductionHypothesis fun line mem => weaker line (by simp [mem]))
  | last sizeLine trailer => exact .last (weaker _ (by simp) _ sizeLine) trailer

/-- The messages of the RFC are the loose ones without a line feed in a size line. -/
theorem strict_iff {lines : List Bytes} {wire content : Bytes} :
    ChunkedMessage SizeLine lines wire content ↔
      ChunkedMessage LooseSizeLine lines wire content ∧ ∀ line ∈ lines, 10 ∉ line := by
  constructor
  · intro message
    refine ⟨message.imp fun _ _ _ => SizeLine.loose, ?_⟩
    induction message with
    | blank _ inductionHypothesis => exact inductionHypothesis
    | chunk sizeLine _ _ inductionHypothesis =>
        exact List.forall_mem_cons.mpr ⟨(sizeLine_iff.mp sizeLine).2, inductionHypothesis⟩
    | last sizeLine _ => simpa using (sizeLine_iff.mp sizeLine).2
  · rintro ⟨message, noFeed⟩
    exact message.imp fun line mem size loose => sizeLine_iff.mpr ⟨loose, noFeed line mem⟩

/-- The text up to the first line end tells the size line. -/
theorem line_unique {line other : Bytes} {size otherSize : Nat} {after otherAfter : Bytes}
    (loose : LooseSizeLine line size) (otherLoose : LooseSizeLine other otherSize)
    (same : line ++ crlf ++ after = other ++ crlf ++ otherAfter) :
    line = other ∧ after = otherAfter := by
  have found : Search.find crlf (line ++ crlf ++ after) = some line.length :=
    Search.find_append_of_not_mem after loose.no_return
  have otherFound : Search.find crlf (other ++ crlf ++ otherAfter) = some other.length :=
    Search.find_append_of_not_mem otherAfter otherLoose.no_return
  rw [same] at found
  have lengths := Option.some.inj (found.symm.trans otherFound)
  obtain ⟨lines, rests⟩ := List.append_inj same (by simp [lengths])
  exact ⟨List.append_cancel_right lines, rests⟩

theorem head_ne_return {line : Bytes} {size : Nat} {after other : Bytes}
    (loose : LooseSizeLine line size) : crlf ++ other ≠ line ++ crlf ++ after := by
  obtain ⟨x, rest, rfl, different⟩ := loose.head
  intro same
  exact different (List.cons.inj same).1.symm

/-- The bytes of a stream determine the size lines at its beginning. -/
theorem lines_unique {lines otherLines : List Bytes} {wire otherWire content otherContent rest
    otherRest : Bytes} (message : ChunkedMessage LooseSizeLine lines wire content)
    (other : ChunkedMessage LooseSizeLine otherLines otherWire otherContent)
    (same : wire ++ rest = otherWire ++ otherRest) : lines = otherLines := by
  induction message generalizing otherLines otherWire otherContent with
  | blank _ inductionHypothesis =>
      cases other with
      | blank other =>
          simp only [List.append_assoc] at same
          exact inductionHypothesis other (List.append_cancel_left same)
      | chunk otherLoose _ _ =>
          simp only [List.append_assoc _ _ rest, List.append_assoc _ _ otherRest] at same
          exact absurd same (head_ne_return otherLoose)
      | last otherLoose _ =>
          simp only [List.append_assoc _ _ rest, List.append_assoc _ _ otherRest] at same
          exact absurd same (head_ne_return otherLoose)
  | chunk loose nonempty _ inductionHypothesis =>
      cases other with
      | blank other =>
          simp only [List.append_assoc _ _ rest, List.append_assoc _ _ otherRest] at same
          exact absurd same.symm (head_ne_return loose)
      | chunk otherLoose otherNonempty other =>
          simp only [List.append_assoc _ _ rest, List.append_assoc _ _ otherRest] at same
          obtain ⟨rfl, after⟩ := line_unique loose otherLoose same
          obtain ⟨-, afterChunk⟩ := List.append_inj after (by simp [loose.unique otherLoose])
          rw [inductionHypothesis other afterChunk]
      | last otherLoose _ =>
          simp only [List.append_assoc _ _ rest, List.append_assoc _ _ otherRest] at same
          obtain ⟨rfl, -⟩ := line_unique loose otherLoose same
          exact absurd (List.length_eq_zero_iff.mp (loose.unique otherLoose)) nonempty
  | last loose _ =>
      cases other with
      | blank other =>
          simp only [List.append_assoc _ _ rest, List.append_assoc _ _ otherRest] at same
          exact absurd same.symm (head_ne_return loose)
      | chunk otherLoose otherNonempty _ =>
          simp only [List.append_assoc _ _ rest, List.append_assoc _ _ otherRest] at same
          obtain ⟨rfl, -⟩ := line_unique loose otherLoose same
          exact absurd (List.length_eq_zero_iff.mp (otherLoose.unique loose)) otherNonempty
      | last otherLoose _ =>
          simp only [List.append_assoc _ _ rest, List.append_assoc _ _ otherRest] at same
          rw [(line_unique loose otherLoose same).1]

end ChunkedMessage

end Waitress
