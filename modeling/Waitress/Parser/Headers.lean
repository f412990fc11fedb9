import Waitress.Parser.Lines
import Waitress.Python.Text

/-!
# The header fields

What `get_header_lines` and the loop over its lines make of a header block,
said without the loops: the block is cut into logical lines, each of them is a
field, and the dictionary maps a name to the joined values of its fields.
-/

namespace Waitress

open Raising Regex

/-! ### Logical lines -/

def isContinuation (line : Bytes) : Bool := line.head? = some 32 || line.head? = some 9

def unfoldLines : List Bytes → List Bytes
  | [] => []
  | line :: lines =>
      match unfoldLines lines with
      | [] => [line]
      | next :: others =>
          if isContinuation next = true then (line ++ next) :: others else line :: next :: others

def physicalLines (header : Bytes) : List Bytes :=
  (Bytes.splitLines header).filter fun line => line ≠ []

theorem isContinuation_append {line : Bytes} (nonempty : line ≠ []) (more : Bytes) :
    isContinuation (line ++ more) = isContinuation line := by
  cases line with
  | nil => exact absurd rfl nonempty
  | cons x line => rfl

theorem unfoldLines_cons (line : Bytes) (lines : List Bytes) :
    ∃ more others, unfoldLines (line :: lines) = (line ++ more) :: others := by
  rw [unfoldLines]
  split
  · exact ⟨[], [], by rw [List.append_nil]⟩
  · split
    · exact ⟨_, _, rfl⟩
    · exact ⟨[], _, by rw [List.append_nil]⟩

theorem unfoldLines_continuation {last line : Bytes} (nonempty : line ≠ [])
    (continuation : isContinuation line = true) (lines : List Bytes) :
    unfoldLines (last :: line :: lines) = unfoldLines ((last ++ line) :: lines) := by
  conv_lhs => rw [unfoldLines]
  rw [unfoldLines, unfoldLines]
  cases unfoldLines lines with
  | nil => simp only [continuation, if_true]
  | cons next others =>
      dsimp only
      by_cases joined : isContinuation next = true
      · rw [if_pos joined, if_pos joined]
        dsimp only
        rw [isContinuation_append nonempty, if_pos continuation, List.append_assoc]
      · rw [if_neg joined, if_neg joined]
        dsimp only
        rw [if_pos continuation]

theorem unfoldLines_start {last line : Bytes} (nonempty : line ≠ [])
    (start : isContinuation line = false) (lines : List Bytes) :
    unfoldLines (last :: line :: lines) = last :: unfoldLines (line :: lines) := by
  obtain ⟨more, others, first⟩ := unfoldLines_cons line lines
  rw [unfoldLines, first]
  simp only [isContinuation_append nonempty, start, Bool.false_eq_true, if_false]

theorem headerLinesLoop_cons {r lines : List Bytes} {line : Bytes} (clean : CleanLine line)
    (nonempty : line ≠ []) :
    headerLinesLoop r (line :: lines) =
      if isContinuation line = true then
        match r.getLast? with
        | none =>
            .error (.parsingError
              ("Malformed header line \"".toList ++ decodeLatin1 line ++ "\"".toList))
        | some last => headerLinesLoop (r.dropLast ++ [last ++ line]) lines
      else headerLinesLoop (r ++ [line]) lines := by
  have condition : (line.head? = some 32 ∨ line.head? = some 9) ↔ isContinuation line = true := by
    rw [isContinuation, Bool.or_eq_true, decide_eq_true_eq, decide_eq_true_eq]
  rw [headerLinesLoop, if_neg nonempty, if_neg (not_or.mpr ⟨clean.2, clean.1⟩)]
  exact if_congr condition rfl rfl

theorem headerLinesLoop_eq {r lines : List Bytes} {last : Bytes}
    (clean : ∀ line ∈ lines, CleanLine line) :
    headerLinesLoop (r ++ [last]) lines =
      .ok (r ++ unfoldLines (last :: lines.filter fun line => line ≠ [])) := by
  induction lines generalizing r last with
  | nil => rfl
  | cons line lines inductionHypothesis =>
      rw [List.forall_mem_cons] at clean
      by_cases empty : line = []
      · rw [headerLinesLoop, if_pos empty, List.filter_cons_of_neg (by simpa using empty)]
        exact inductionHypothesis clean.2
      rw [headerLinesLoop_cons clean.1 empty, List.filter_cons_of_pos (by simpa using empty)]
      by_cases continuation : isContinuation line = true
      · rw [if_pos continuation, unfoldLines_continuation empty continuation]
        simp only [List.getLast?_append, List.getLast?_singleton, Option.some_or,
          List.dropLast_concat]
        exact inductionHypothesis clean.2
      · rw [if_neg continuation, unfoldLines_start empty (by simpa using continuation),
          inductionHypothesis clean.2, List.append_assoc, List.singleton_append]

/-- The first line, if there is one, does not continue another. -/
def HasFirstLine (lines : List Bytes) : Prop := ∀ line ∈ lines.head?, isContinuation line = false

theorem headerLinesLoop_nil {lines : List Bytes} (clean : ∀ line ∈ lines, CleanLine line) :
    (HasFirstLine (lines.filter fun line => line ≠ []) ∧
        headerLinesLoop [] lines = .ok (unfoldLines (lines.filter fun line => line ≠ []))) ∨
      (¬ HasFirstLine (lines.filter fun line => line ≠ []) ∧
        ∃ message, headerLinesLoop [] lines = .error (.parsingError message)) := by
  induction lines with
  | nil => exact .inl ⟨by simp [HasFirstLine], rfl⟩
  | cons line lines inductionHypothesis =>
      rw [List.forall_mem_cons] at clean
      by_cases empty : line = []
      · rw [headerLinesLoop, if_pos empty, List.filter_cons_of_neg (by simpa using empty)]
        exact inductionHypothesis clean.2
      rw [headerLinesLoop_cons clean.1 empty, List.filter_cons_of_pos (by simpa using empty)]
      by_cases continuation : isContinuation line = true
      · rw [if_pos continuation]
        exact .inr ⟨by simp [HasFirstLine, continuation], _, rfl⟩
      · rw [if_neg continuation]
        exact .inl ⟨by simpa [HasFirstLine] using continuation, headerLinesLoop_eq clean.2⟩

/-! ### White space around a value -/

theorem stripChars_append_left {chars front : Bytes} (white : ∀ x ∈ front, x ∈ chars)
    (s : Bytes) : Bytes.stripChars chars (front ++ s) = Bytes.stripChars chars s := by
  rw [Bytes.stripChars, Bytes.stripChars, List.dropWhile_append_of_pos (by simpa using white)]

theorem stripChars_append_right {chars back : Bytes} (white : ∀ x ∈ back, x ∈ chars)
    (s : Bytes) : Bytes.stripChars chars (s ++ back) = Bytes.stripChars chars s := by
  have gone : back.dropWhile (· ∈ chars) = [] :=
    List.dropWhile_eq_nil_iff.mpr (by simpa using white)
  rw [Bytes.stripChars, Bytes.stripChars, List.dropWhile_append]
  split
  · rename_i blank
    rw [gone, List.isEmpty_iff.mp blank]
  · rw [List.reverse_append, List.dropWhile_append_of_pos (by simpa using white)]

/-- A text is its stripped part between two stretches of white space. -/
theorem stripChars_split (chars s : Bytes) :
    ∃ front back, s = front ++ (Bytes.stripChars chars s ++ back) ∧
      (∀ x ∈ front, x ∈ chars) ∧ ∀ x ∈ back, x ∈ chars := by
  refine ⟨s.takeWhile (· ∈ chars), ((s.dropWhile (· ∈ chars)).reverse.takeWhile (· ∈ chars)).reverse,
    ?_, fun x mem => ?_, fun x mem => ?_⟩
  · rw [Bytes.stripChars, ← List.reverse_append, List.takeWhile_append_dropWhile,
      List.reverse_reverse, List.takeWhile_append_dropWhile]
  · have white := List.mem_takeWhile_imp mem
    simpa using white
  · have white := List.mem_takeWhile_imp (List.mem_reverse.mp mem)
    simpa using white

theorem head?_dropWhile {test : UInt8 → Bool} {s : Bytes} {x : UInt8}
    (first : x ∈ (s.dropWhile test).head?) : test x = false := by
  have outside := List.head?_dropWhile_not test s
  rw [Option.mem_def] at first
  rwa [first] at outside

theorem stripChars_ends (chars s : Bytes) :
    (∀ x ∈ (Bytes.stripChars chars s).head?, x ∉ chars) ∧
      ∀ x ∈ (Bytes.stripChars chars s).getLast?, x ∉ chars := by
  constructor
  · intro x first
    have whole : s.dropWhile (· ∈ chars) = Bytes.stripChars chars s ++
        ((s.dropWhile (· ∈ chars)).reverse.takeWhile (· ∈ chars)).reverse := by
      rw [Bytes.stripChars, ← List.reverse_append, List.takeWhile_append_dropWhile,
        List.reverse_reverse]
    have firstToo : x ∈ (s.dropWhile (· ∈ chars)).head? := by
      rw [whole, List.head?_append, Option.mem_def, Option.mem_def.mp first, Option.some_or]
    simpa using head?_dropWhile firstToo
  · intro x last
    rw [Bytes.stripChars, List.getLast?_reverse] at last
    simpa using head?_dropWhile last

/-! ### Field lines -/

/-- A byte of a field value other than white space. -/
abbrev isFieldVchar (x : UInt8) : Bool := fieldVchar x.toNat

abbrev isWs (x : UInt8) : Bool := ws x.toNat

/-- A token and a colon, followed by white space and visible bytes only. -/
def IsField (line : Bytes) : Prop :=
  ∃ name rest, line = name ++ 58 :: rest ∧ name ≠ [] ∧ (∀ x ∈ name, tchar x.toNat = true) ∧
    ∀ x ∈ rest, isWs x = true ∨ isFieldVchar x = true

def fieldName (line : Bytes) : Bytes := line.takeWhile (· ≠ 58)

/-- The value of a field, stripped of spaces and tabs. -/
def fieldText (line : Bytes) : Bytes :=
  Bytes.stripChars (ascii " \t") ((line.dropWhile (· ≠ 58)).drop 1)

theorem isWs_iff {x : UInt8} : isWs x = true ↔ x ∈ ascii " \t" := by
  rw [show ascii " \t" = [32, 9] by decide, isWs, ws]
  simp only [Bool.or_eq_true, decide_eq_true_eq, List.mem_cons, List.not_mem_nil, or_false,
    ← UInt8.toNat_inj]
  rfl

theorem isWs_eq_false {x : UInt8} (visible : isFieldVchar x = true) : isWs x = false := by
  simp only [fieldVchar, vchar, obsText, Bool.or_eq_true, Bool.and_eq_true,
    decide_eq_true_eq] at visible
  simp only [ws, Bool.or_eq_false_iff, decide_eq_false_iff_not]
  omega

/-- A word that begins and ends with visible bytes. -/
def IsFieldValue (word : Bytes) : Prop :=
  (∀ x ∈ word, isWs x = true ∨ isFieldVchar x = true) ∧
    (∀ x ∈ word.head?, isFieldVchar x = true) ∧ ∀ x ∈ word.getLast?, isFieldVchar x = true

/-- White space and then visible bytes, again and again. -/
theorem exists_matches_words {text : Bytes}
    (each : ∀ x ∈ text, isWs x = true ∨ isFieldVchar x = true)
    (first : ∀ x ∈ text.head?, isWs x = true) (last : ∀ x ∈ text.getLast?, isFieldVchar x = true) :
    ∃ captures, Matches (.star true (.seq (.plus true (classOf UInt8.toNat ws))
      (.plus true (classOf UInt8.toNat fieldVchar)))) text captures := by
  induction size : text.length using Nat.strongRecOn generalizing text with
  | _ length inductionHypothesis =>
      by_cases empty : text = []
      · exact ⟨[], empty ▸ .stop⟩
      have split : text = text.takeWhile isWs ++ text.dropWhile isWs :=
        List.takeWhile_append_dropWhile.symm
      have begins : text.takeWhile isWs ≠ [] := by
        obtain ⟨x, tail, rfl⟩ := List.exists_cons_of_ne_nil empty
        rw [List.takeWhile_cons_of_pos (first x rfl)]
        exact List.cons_ne_nil _ _
      have goesOn : text.dropWhile isWs ≠ [] := by
        intro none
        have isLast := List.getLast?_eq_some_getLast empty
        have white := List.dropWhile_eq_nil_iff.mp none _ (List.mem_of_getLast? isLast)
        rw [isWs_eq_false (last _ isLast)] at white
        cases white
      obtain ⟨y, tail, rest⟩ := List.exists_cons_of_ne_nil goesOn
      have inside : ∀ x ∈ text.dropWhile isWs, x ∈ text :=
        fun x mem => (List.dropWhile_sublist _).subset mem
      have visible : isFieldVchar y = true := by
        have black : isWs y = false := head?_dropWhile (by rw [rest]; rfl)
        have either := each y (inside y (by rw [rest]; exact List.mem_cons_self))
        rw [black] at either
        exact either.resolve_left Bool.false_ne_true
      have shape : text.dropWhile isWs =
          (text.dropWhile isWs).takeWhile isFieldVchar ++
            (text.dropWhile isWs).dropWhile isFieldVchar :=
        List.takeWhile_append_dropWhile.symm
      have words : (text.dropWhile isWs).takeWhile isFieldVchar ≠ [] := by
        rw [rest, List.takeWhile_cons_of_pos visible]
        exact List.cons_ne_nil _ _
      have lengths := congrArg List.length split
      have restLengths := congrArg List.length shape
      rw [List.length_append] at lengths restLengths
      have positive := List.length_pos_iff.mpr begins
      have insideToo : ∀ x ∈ (text.dropWhile isWs).dropWhile isFieldVchar, x ∈ text :=
        fun x mem => inside x ((List.dropWhile_sublist _).subset mem)
      obtain ⟨captures, more⟩ := inductionHypothesis _ (by omega)
        (fun x mem => each x (insideToo x mem))
        (fun x isFirst => by
          have either := each x (insideToo x (List.mem_of_head? isFirst))
          rw [head?_dropWhile isFirst] at either
          exact either.resolve_right Bool.false_ne_true)
        (fun x isLast => last x (by
          rw [split, shape, ← List.append_assoc, List.getLast?_append, Option.mem_def,
            Option.mem_def.mp isLast, Option.some_or])) rfl
      have once : Matches (.seq (.plus true (classOf UInt8.toNat ws))
          (.plus true (classOf UInt8.toNat fieldVchar)))
          (text.takeWhile isWs ++ (text.dropWhile isWs).takeWhile isFieldVchar) ([] ++ []) :=
        .seq
          (matches_plus_cls.mpr
            ⟨begins, fun x mem => show isWs x = true from List.mem_takeWhile_imp mem, rfl⟩)
          (matches_plus_cls.mpr
            ⟨words, fun x mem => show isFieldVchar x = true from List.mem_takeWhile_imp mem, rfl⟩)
      refine ⟨captures ++ ([] ++ []), ?_⟩
      rw [split, shape, ← List.append_assoc]
      exact .again (by simp [begins]) once more

/-- The parts that the expression repeats go on with white space and end visibly. -/
theorem IsFieldValue.append_words {word : Bytes} (value : IsFieldValue word) (nonempty : word ≠ [])
    {parts : List Bytes}
    (each : ∀ part ∈ parts, part ≠ [] ∧ ∃ captures,
      Matches (.seq (.plus true (classOf UInt8.toNat ws))
        (.plus true (classOf UInt8.toNat fieldVchar))) part captures) :
    IsFieldValue (word ++ parts.flatten) := by
  induction parts generalizing word with
  | nil => rwa [List.flatten_nil, List.append_nil]
  | cons part parts inductionHypothesis =>
      rw [List.forall_mem_cons] at each
      obtain ⟨⟨-, captures, matched⟩, others⟩ := each
      simp only [matches_seq, classOf, matches_plus_cls] at matched
      obtain ⟨space, _, words, _, ⟨-, white, -⟩, ⟨some, visible, -⟩, rfl, -⟩ := matched
      rw [List.flatten_cons, ← List.append_assoc]
      refine inductionHypothesis ⟨fun x mem => ?_, fun x first => ?_, fun x last => ?_⟩
        (by simp [nonempty]) others
      · rcases List.mem_append.mp mem with old | new
        · exact value.1 x old
        · exact (List.mem_append.mp new).imp (white x) (visible x)
      · obtain ⟨y, tail, rfl⟩ := List.exists_cons_of_ne_nil nonempty
        exact value.2.1 x first
      · have isLast := List.getLast?_eq_some_getLast some
        rw [← List.append_assoc, List.getLast?_append, isLast, Option.some_or,
          Option.mem_some_iff] at last
        exact last ▸ visible _ (List.mem_of_getLast? isLast)

theorem exists_matches_fieldValue {word : Bytes} :
    (∃ captures, Matches (fieldValue UInt8.toNat) word captures) ↔ IsFieldValue word := by
  simp only [fieldValue, matches_opt, fieldContent, matches_seq]
  constructor
  · rintro ⟨captures, ⟨front, _, back, more, matched, words, rfl, -⟩ | ⟨rfl, -⟩⟩
    · rw [classOf, matches_plus_cls] at matched
      obtain ⟨parts, rfl, each⟩ := exists_matches_star.mp ⟨more, words⟩
      refine IsFieldValue.append_words ⟨fun x mem => .inr (matched.2.1 x mem),
        fun x first => matched.2.1 x (List.mem_of_head? first),
        fun x last => matched.2.1 x (List.mem_of_getLast? last)⟩ matched.1 each
    · exact ⟨by simp, by simp, by simp⟩
  · rintro ⟨each, first, last⟩
    by_cases empty : word = []
    · exact ⟨[], .inr ⟨empty, rfl⟩⟩
    have split : word = word.takeWhile isFieldVchar ++ word.dropWhile isFieldVchar :=
      List.takeWhile_append_dropWhile.symm
    have inside : ∀ x ∈ word.dropWhile isFieldVchar, x ∈ word :=
      fun x mem => (List.dropWhile_sublist _).subset mem
    have begins : word.takeWhile isFieldVchar ≠ [] := by
      obtain ⟨x, tail, rfl⟩ := List.exists_cons_of_ne_nil empty
      rw [List.takeWhile_cons_of_pos (first x rfl)]
      exact List.cons_ne_nil _ _
    obtain ⟨captures, words⟩ := exists_matches_words
      (fun x (mem : x ∈ word.dropWhile isFieldVchar) => each x (inside x mem))
      (fun x isFirst => by
        have either := each x (inside x (List.mem_of_head? isFirst))
        rw [head?_dropWhile isFirst] at either
        exact either.resolve_right Bool.false_ne_true)
      (fun x isLast => last x (by
        rw [split, List.getLast?_append, Option.mem_def, Option.mem_def.mp isLast,
          Option.some_or]))
    exact ⟨_, .inl ⟨_, [], _, captures,
      matches_plus_cls.mpr
        ⟨begins, fun x mem => show isFieldVchar x = true from List.mem_takeWhile_imp mem, rfl⟩,
      words, split, rfl⟩⟩

theorem matches_headerFieldRe {word : Bytes} {captures : Captures UInt8} :
    Matches headerFieldRe word captures ↔
      ∃ name front value back, word = name ++ 58 :: (front ++ (value ++ back)) ∧ name ≠ [] ∧
        (∀ x ∈ name, tchar x.toNat = true) ∧ (∀ x ∈ front, isWs x = true) ∧
        IsFieldValue value ∧ (∀ x ∈ back, isWs x = true) ∧
        captures = [("value", value), ("name", name)] := by
  simp only [headerFieldRe, matches_seq, matches_group, token, ows, lit, classOf, matches_plus_cls,
    matches_star_cls, matches_cls]
  constructor
  · rintro ⟨name, _, _, _, ⟨_, ⟨nonempty, tokens, rfl⟩, rfl⟩, ⟨_, _, _, _, ⟨⟨x, colon, rfl⟩, rfl⟩,
      ⟨front, _, _, _, ⟨white, rfl⟩, ⟨value, _, back, _, ⟨inner, matched, rfl⟩, ⟨whiteToo, rfl⟩,
        rfl, rfl⟩, rfl, rfl⟩, rfl, rfl⟩, rfl, rfl⟩
    obtain rfl : x = 58 := UInt8.toNat_inj.mp (of_decide_eq_true colon)
    obtain rfl := matched.captures_eq_nil rfl
    exact ⟨name, front, value, back, rfl, nonempty, tokens, white,
      exists_matches_fieldValue.mp ⟨[], matched⟩, whiteToo, rfl⟩
  · rintro ⟨name, front, value, back, rfl, nonempty, tokens, white, isValue, whiteToo, rfl⟩
    obtain ⟨inner, matched⟩ := exists_matches_fieldValue.mpr isValue
    obtain rfl := matched.captures_eq_nil rfl
    exact ⟨name, _, _, _, ⟨_, ⟨nonempty, tokens, rfl⟩, rfl⟩, ⟨[58], _, _, _, ⟨⟨58, rfl, rfl⟩, rfl⟩,
      ⟨front, _, _, _, ⟨white, rfl⟩, ⟨value, _, back, _, ⟨_, matched, rfl⟩, ⟨whiteToo, rfl⟩,
        rfl, rfl⟩, rfl, rfl⟩, rfl, rfl⟩, rfl, rfl⟩

theorem tchar_ne_colon {name : Bytes} (tokens : ∀ x ∈ name, tchar x.toNat = true) :
    ∀ x ∈ name, x ≠ 58 := by
  rintro _ mem rfl
  exact absurd (tokens 58 mem) (by decide)

theorem fieldName_append {name : Bytes} (tokens : ∀ x ∈ name, tchar x.toNat = true)
    (rest : Bytes) : fieldName (name ++ 58 :: rest) = name := by
  have colon : ∀ x ∈ name, decide (x ≠ 58) = true := by simpa using tchar_ne_colon tokens
  rw [fieldName, List.takeWhile_append_of_pos colon, List.takeWhile_cons_of_neg (by decide),
    List.append_nil]

theorem fieldText_append {name : Bytes} (tokens : ∀ x ∈ name, tchar x.toNat = true)
    (rest : Bytes) : fieldText (name ++ 58 :: rest) = Bytes.stripChars (ascii " \t") rest := by
  have colon : ∀ x ∈ name, decide (x ≠ 58) = true := by simpa using tchar_ne_colon tokens
  rw [fieldText, List.dropWhile_append_of_pos colon, List.dropWhile_cons_of_neg (by decide),
    List.drop_one, List.tail_cons]

/-- A line is matched if it is a field. -/
theorem isField_iff_exists_matches {line : Bytes} :
    IsField line ↔ ∃ captures, Matches headerFieldRe line captures := by
  simp only [matches_headerFieldRe]
  constructor
  · rintro ⟨name, rest, rfl, nonempty, tokens, each⟩
    obtain ⟨front, back, split, white, whiteToo⟩ := stripChars_split (ascii " \t") rest
    obtain ⟨begins, ends⟩ := stripChars_ends (ascii " \t") rest
    have inside : ∀ x ∈ Bytes.stripChars (ascii " \t") rest, x ∉ ascii " \t" →
        isFieldVchar x = true :=
      fun x mem black => (each x (stripChars_subset _ _ mem)).resolve_left
        fun isWhite => black (isWs_iff.mp isWhite)
    refine ⟨_, name, front, Bytes.stripChars (ascii " \t") rest, back, by rw [← split], nonempty,
      tokens, fun x mem => isWs_iff.mpr (white x mem), ⟨fun x mem => ?_, fun x first => ?_,
        fun x last => ?_⟩, fun x mem => isWs_iff.mpr (whiteToo x mem), rfl⟩
    · exact each x (stripChars_subset _ _ mem)
    · exact inside x (List.mem_of_head? first) (begins x first)
    · exact inside x (List.mem_of_getLast? last) (ends x last)
  · rintro ⟨captures, name, front, value, back, rfl, nonempty, tokens, white, isValue, whiteToo, -⟩
    refine ⟨name, _, rfl, nonempty, tokens, fun x mem => ?_⟩
    rcases List.mem_append.mp mem with isFront | mem
    · exact .inl (white x isFront)
    · rcases List.mem_append.mp mem with inside | isBack
      · exact isValue.1 x inside
      · exact .inl (whiteToo x isBack)

/-- What the loop gets to know of a line. -/
theorem matchLine_headerFieldRe {line : Bytes} (clean : CleanLine line) :
    (IsField line ∧ ∃ header, matchLine headerFieldRe line = some header ∧
        (header.lookup "name").getD [] = fieldName line ∧
        Bytes.stripChars (ascii " \t") ((header.lookup "value").getD []) = fieldText line) ∨
      (¬ IsField line ∧ matchLine headerFieldRe line = none) := by
  have whole : ∀ word, line = word ∨ line = word ++ [10] → line = word := by
    rintro word (same | rfl)
    · exact same
    · exact absurd (by simp) clean.1
  cases matched : matchLine headerFieldRe line with
  | none =>
      refine .inr ⟨fun isField => ?_, rfl⟩
      obtain ⟨captures, fits⟩ := isField_iff_exists_matches.mp isField
      have found : (matchLine headerFieldRe line).isSome = true :=
        lineMatch?_isSome_iff.mpr ⟨line, captures, .inl rfl, fits⟩
      rw [matched] at found
      cases found
  | some header =>
      obtain ⟨word, ending, fits⟩ := matches_of_lineMatch? matched
      obtain rfl := whole word ending
      refine .inl ⟨isField_iff_exists_matches.mpr ⟨header, fits⟩, header, rfl, ?_⟩
      obtain ⟨name, front, value, back, rfl, -, tokens, white, -, whiteToo, rfl⟩ :=
        matches_headerFieldRe.mp fits
      rw [fieldName_append tokens, fieldText_append tokens,
        stripChars_append_left fun x mem => isWs_iff.mp (white x mem),
        stripChars_append_right fun x mem => isWs_iff.mp (whiteToo x mem)]
      exact ⟨rfl, rfl⟩

/-! ### Names -/

def keyByte (x : UInt8) : UInt8 := if Bytes.upperByte x = 45 then 95 else Bytes.upperByte x

theorem headerKey_eq (name : Bytes) : headerKey name = decodeLatin1 (name.map keyByte) := by
  rw [headerKey, Bytes.replaceByte, Bytes.upper, List.map_map]
  rfl

theorem keyByte_lowerByte : ∀ x, keyByte (Bytes.lowerByte x) = keyByte x := by decide +kernel

theorem lowerByte_eq : ∀ x, x ≠ 95 →
    Bytes.lowerByte x = if keyByte x = 95 then 45 else Bytes.lowerByte (keyByte x) := by
  decide +kernel

theorem headerKey_eq_iff {first second : Bytes} (plain : 95 ∉ first) (plainToo : 95 ∉ second) :
    headerKey first = headerKey second ↔ Bytes.lower first = Bytes.lower second := by
  have keys (name : Bytes) : name.map keyByte = (Bytes.lower name).map keyByte := by
    rw [Bytes.lower, List.map_map]
    exact List.map_congr_left fun x _ => (keyByte_lowerByte x).symm
  have lowers {name : Bytes} (plain : 95 ∉ name) : Bytes.lower name =
      (name.map keyByte).map fun x => if x = 95 then 45 else Bytes.lowerByte x := by
    rw [Bytes.lower, List.map_map]
    refine List.map_congr_left fun x mem => lowerByte_eq x ?_
    rintro rfl
    exact plain mem
  rw [headerKey_eq, headerKey_eq, decodeLatin1_injective.eq_iff]
  constructor
  · intro same
    rw [lowers plain, lowers plainToo, same]
  · intro same
    rw [keys first, keys second, same]

def singletonNames : List Bytes :=
  [ascii "host", ascii "content-length", ascii "content-type"]

theorem headerKey_mem_singletonFields {name : Bytes} (plain : 95 ∉ name) :
    headerKey name ∈ singletonFields ↔ Bytes.lower name ∈ singletonNames := by
  have fields : singletonFields = singletonNames.map headerKey := by decide +kernel
  have names : ∀ other ∈ singletonNames, 95 ∉ other ∧ Bytes.lower other = other := by decide +kernel
  rw [fields, List.mem_map]
  constructor
  · rintro ⟨other, mem, same⟩
    obtain ⟨plainToo, lower⟩ := names other mem
    rw [headerKey_eq_iff plainToo plain, lower] at same
    rwa [← same]
  · intro mem
    obtain ⟨plainToo, lower⟩ := names _ mem
    exact ⟨_, mem, (headerKey_eq_iff plainToo plain).mpr lower⟩

theorem not_mem_of_singletonNames {name : Bytes} (single : Bytes.lower name ∈ singletonNames) :
    95 ∉ name := by
  intro mem
  have underscore : 95 ∈ Bytes.lower name := List.mem_map.mpr ⟨95, mem, by decide⟩
  have names : ∀ other ∈ singletonNames, 95 ∉ other := by decide +kernel
  exact names _ single underscore

/-! ### The dictionary -/

def fieldValues (lines : List Bytes) (key : Str) : List Str :=
  (lines.filter fun line => 95 ∉ fieldName line ∧ headerKey (fieldName line) = key).map
    fun line => decodeLatin1 (fieldText line)

def headerValue (lines : List Bytes) (key : Str) : Option Str :=
  match fieldValues lines key with
  | [] => none
  | values => some (Str.join ", ".toList values)

/-- Two fields of one of the names that must not be given twice. -/
def Clashes (first second : Bytes) : Prop :=
  Bytes.lower (fieldName first) = Bytes.lower (fieldName second) ∧
    Bytes.lower (fieldName second) ∈ singletonNames

/-- A header block, after its continuation lines have been joined. -/
structure IsHeaderBlock (header : Bytes) : Prop where
  firstLine : HasFirstLine (physicalLines header)
  fields : ∀ line ∈ unfoldLines (physicalLines header), IsField line
  singletons : (unfoldLines (physicalLines header)).Pairwise fun first second =>
    ¬ Clashes first second

theorem Str.join_cons (separator part : Str) {rest : List Str} (nonempty : rest ≠ []) :
    Str.join separator (part :: rest) = part ++ separator ++ Str.join separator rest := by
  obtain ⟨next, others, rfl⟩ := List.exists_cons_of_ne_nil nonempty
  rfl

theorem Str.join_concat (separator : Str) {parts : List Str} (nonempty : parts ≠ []) (part : Str) :
    Str.join separator (parts ++ [part]) = Str.join separator parts ++ separator ++ part := by
  induction parts with
  | nil => exact absurd rfl nonempty
  | cons first rest inductionHypothesis =>
      by_cases last : rest = []
      · subst last
        rfl
      · rw [List.cons_append, Str.join_cons separator first (by simp), inductionHypothesis last,
          Str.join_cons separator first last]
        simp only [List.append_assoc]

theorem headerValue_eq_none {lines : List Bytes} {key : Str} :
    headerValue lines key = none ↔
      ∀ line ∈ lines, ¬ (95 ∉ fieldName line ∧ headerKey (fieldName line) = key) := by
  have values : headerValue lines key = none ↔ fieldValues lines key = [] := by
    rw [headerValue]
    cases fieldValues lines key <;> simp
  rw [values, fieldValues, List.map_eq_nil_iff, List.filter_eq_nil_iff]
  simp only [decide_eq_true_eq]

theorem headerValue_concat (lines : List Bytes) (line : Bytes) (key : Str) :
    headerValue (lines ++ [line]) key =
      if 95 ∉ fieldName line ∧ headerKey (fieldName line) = key then
        match headerValue lines key with
        | none => some (decodeLatin1 (fieldText line))
        | some given => some (given ++ ", ".toList ++ decodeLatin1 (fieldText line))
      else headerValue lines key := by
  have values : fieldValues (lines ++ [line]) key = fieldValues lines key ++
      if 95 ∉ fieldName line ∧ headerKey (fieldName line) = key then
        [decodeLatin1 (fieldText line)] else [] := by
    rw [fieldValues, List.filter_append, List.map_append, List.filter_singleton]
    congr 1
    by_cases named : 95 ∉ fieldName line ∧ headerKey (fieldName line) = key
    · rw [if_pos named, decide_eq_true named]
      rfl
    · rw [if_neg named, decide_eq_false named]
      rfl
  rw [headerValue, values]
  by_cases named : 95 ∉ fieldName line ∧ headerKey (fieldName line) = key
  · rw [if_pos named, if_pos named, headerValue]
    by_cases first : fieldValues lines key = []
    · rw [first]
      rfl
    · have joined := Str.join_concat ", ".toList first (decodeLatin1 (fieldText line))
      obtain ⟨value, others, more⟩ := List.exists_cons_of_ne_nil first
      rw [more] at joined ⊢
      exact congrArg some joined
  · rw [if_neg named, if_neg named, List.append_nil]
    rfl

/-! ### The loop over the lines -/

/-- One round of the loop, when `done` are the lines before. -/
theorem exec_parseHeaderLine {done : List Bytes} {line : Bytes} {head : RequestHead}
    (clean : CleanLine line) (agrees : ∀ key, head.headers.get? key = headerValue done key) :
    ((IsField line ∧ ∀ earlier ∈ done, ¬ Clashes earlier line) ∧
        ∃ next, exec (parseHeaderLine line) head = (.ok ⟨⟩, next) ∧
          ∀ key, next.headers.get? key = headerValue (done ++ [line]) key) ∨
      (¬ (IsField line ∧ ∀ earlier ∈ done, ¬ Clashes earlier line) ∧
        ∃ message, (exec (parseHeaderLine line) head).1 = .error (.parsingError message)) := by
  unfold parseHeaderLine
  rcases matchLine_headerFieldRe clean with ⟨isField, header, matched, named, given⟩ |
    ⟨notField, unmatched⟩
  · rw [matched]
    dsimp only
    rw [named, given]
    by_cases underscore : 95 ∈ fieldName line
    · rw [if_pos underscore]
      refine .inl ⟨⟨isField, fun earlier _ clash => ?_⟩, head, rfl, fun key => ?_⟩
      · exact not_mem_of_singletonNames clash.2 underscore
      · rw [headerValue_concat, if_neg fun both => both.1 underscore, agrees]
    rw [if_neg underscore, exec_get_bind, agrees]
    have stored (value : Str) : ∀ key,
        (head.headers.set (headerKey (fieldName line)) value).get? key =
          if 95 ∉ fieldName line ∧ headerKey (fieldName line) = key then some value
          else headerValue done key := by
      intro key
      rw [Dict.get?_set, agrees]
      simp only [underscore, not_false_eq_true, true_and]
    have same {earlier : Bytes} (single : Bytes.lower (fieldName line) ∈ singletonNames) :
        Clashes earlier line ↔
          95 ∉ fieldName earlier ∧ headerKey (fieldName earlier) = headerKey (fieldName line) := by
      constructor
      · intro clash
        have plain := not_mem_of_singletonNames (clash.1.symm ▸ clash.2)
        exact ⟨plain, (headerKey_eq_iff plain underscore).mpr clash.1⟩
      · rintro ⟨plain, sameKey⟩
        exact ⟨(headerKey_eq_iff plain underscore).mp sameKey, single⟩
    cases found : headerValue done (headerKey (fieldName line)) with
    | none =>
        refine .inl ⟨⟨isField, fun earlier mem clash => ?_⟩, _, exec_modify _ _, fun key => ?_⟩
        · exact headerValue_eq_none.mp found earlier mem ((same clash.2).mp clash)
        · rw [stored, headerValue_concat]
          by_cases here : 95 ∉ fieldName line ∧ headerKey (fieldName line) = key
          · rw [if_pos here, if_pos here, ← here.2, found]
          · rw [if_neg here, if_neg here]
    | some value =>
        dsimp only
        by_cases single : headerKey (fieldName line) ∈ singletonFields
        · rw [if_pos single]
          rw [headerKey_mem_singletonFields underscore] at single
          refine .inr ⟨fun both => ?_, _, rfl⟩
          have unseen : headerValue done (headerKey (fieldName line)) = none :=
            headerValue_eq_none.mpr fun earlier mem seen =>
              both.2 earlier mem ((same single).mpr seen)
          rw [found] at unseen
          cases unseen
        · rw [if_neg single]
          rw [headerKey_mem_singletonFields underscore] at single
          refine .inl ⟨⟨isField, fun earlier _ clash => single clash.2⟩, _, exec_modify _ _,
            fun key => ?_⟩
          rw [stored, headerValue_concat]
          by_cases here : 95 ∉ fieldName line ∧ headerKey (fieldName line) = key
          · rw [if_pos here, if_pos here, ← here.2, found]
            dsimp only
            rw [decodeLatin1, List.map_append, List.append_assoc]
            rfl
          · rw [if_neg here, if_neg here]
  · rw [unmatched]
    exact .inr ⟨fun both => notField both.1, _, rfl⟩

/-- The lines that are left are fields and clash with no line before them. -/
def Parses (done lines : List Bytes) : Prop :=
  (∀ line ∈ lines, IsField line) ∧
    (lines.Pairwise fun first second => ¬ Clashes first second) ∧
      ∀ earlier ∈ done, ∀ line ∈ lines, ¬ Clashes earlier line

theorem parses_cons {done lines : List Bytes} {line : Bytes} :
    Parses done (line :: lines) ↔
      (IsField line ∧ ∀ earlier ∈ done, ¬ Clashes earlier line) ∧ Parses (done ++ [line]) lines := by
  simp only [Parses, List.forall_mem_cons, List.pairwise_cons, List.forall_mem_append, forall_and]
  tauto

theorem exec_forM_parseHeaderLine {done lines : List Bytes} {head : RequestHead}
    (clean : ∀ line ∈ lines, CleanLine line)
    (agrees : ∀ key, head.headers.get? key = headerValue done key) :
    (Parses done lines ∧
        ∃ final, exec (forM lines parseHeaderLine) head = (.ok ⟨⟩, final) ∧
          ∀ key, final.headers.get? key = headerValue (done ++ lines) key) ∨
      (¬ Parses done lines ∧
        ∃ message, (exec (forM lines parseHeaderLine) head).1 =
          .error (.parsingError message)) := by
  induction lines generalizing done head with
  | nil => exact .inl ⟨by simp [Parses], head, rfl, by simpa using agrees⟩
  | cons line lines inductionHypothesis =>
      rw [List.forall_mem_cons] at clean
      rw [parses_cons, List.forM_cons, exec_bind]
      rcases exec_parseHeaderLine clean.1 agrees with ⟨fits, next, parsed, agreesNext⟩ |
        ⟨unfit, message, failed⟩
      · rw [parsed]
        have rest := inductionHypothesis clean.2 agreesNext
        rw [List.append_assoc, List.singleton_append] at rest
        simpa only [iff_true_intro fits, true_and] using rest
      · rcases outcome : exec (parseHeaderLine line) head with ⟨_ | _, after⟩
        · rw [outcome] at failed
          exact .inr ⟨fun both => unfit both.1, message, failed⟩
        · rw [outcome] at failed
          cases failed

def readHeaders (header : Bytes) : HeadM Unit := do
  let lines ← MonadExcept.ofExcept (getHeaderLines header)
  forM lines parseHeaderLine

theorem exec_readHeaders_lines {header : Bytes} {lines : List Bytes}
    (split : getHeaderLines header = .ok lines) (head : RequestHead) :
    exec (readHeaders header) head = exec (forM lines parseHeaderLine) head := by
  rw [readHeaders, exec_bind, exec_ofExcept, split]

/-- A block is refused or read into the dictionary, and never anything else. -/
theorem exec_readHeaders {header : Bytes} (only : OnlyCrlf header) {head : RequestHead}
    (fresh : head.headers = {}) :
    (IsHeaderBlock header ∧
        ∃ final, exec (readHeaders header) head = (.ok ⟨⟩, final) ∧
          ∀ key, final.headers.get? key =
            headerValue (unfoldLines (physicalLines header)) key) ∨
      (¬ IsHeaderBlock header ∧
        ∃ message, (exec (readHeaders header) head).1 = .error (.parsingError message)) := by
  rcases headerLinesLoop_nil (onlyCrlf_iff.mp only) with ⟨first, split⟩ | ⟨continued, message, failed⟩
  · have lines : getHeaderLines header = .ok (unfoldLines (physicalLines header)) := split
    rw [exec_readHeaders_lines lines]
    have agrees : ∀ key, head.headers.get? key = headerValue [] key := by
      intro key
      rw [fresh]
      rfl
    refine (exec_forM_parseHeaderLine (getHeaderLines_clean lines) agrees).imp ?_ ?_
    · exact fun parsed => ⟨⟨first, parsed.1.1, parsed.1.2.1⟩, parsed.2⟩
    · exact fun failed => ⟨fun block => failed.1 ⟨block.fields, block.singletons, by simp⟩, failed.2⟩
  · have lines : getHeaderLines header = .error (.parsingError message) := failed
    rw [readHeaders, exec_bind, exec_ofExcept, lines]
    exact .inr ⟨fun block => continued block.firstLine, message, rfl⟩

/-- Reading the header fields is what the specification says, errors included. -/
theorem readHeaders_spec {header : Bytes} (only : OnlyCrlf header) {head : RequestHead}
    (fresh : head.headers = {}) :
    ((∀ message, (exec (readHeaders header) head).1 ≠ .error (.parsingError message)) ↔
        IsHeaderBlock header) ∧
      (IsHeaderBlock header → ∃ final, exec (readHeaders header) head = (.ok ⟨⟩, final) ∧
        ∀ key, final.headers.get? key = headerValue (unfoldLines (physicalLines header)) key) := by
  rcases exec_readHeaders only fresh with ⟨block, final, read, agrees⟩ | ⟨noBlock, message, failed⟩
  · refine ⟨⟨fun _ => block, fun _ message => ?_⟩, fun _ => ⟨final, read, agrees⟩⟩
    rw [read]
    rintro ⟨⟩
  · refine ⟨⟨fun never => absurd failed (never message), fun block => absurd block noBlock⟩,
      fun block => absurd block noBlock⟩

/-- The dictionary of a head whose lines were all accepted. -/
theorem parseLines_headers {block : Bytes} {start final : RequestHead}
    {cracked : Bytes × Bytes × Bytes} (fresh : start.headers = {})
    (parsed : exec (parseLines block) start = (.ok cracked, final)) :
    ∃ index, Search.find crlf block = some index ∧ IsHeaderBlock (block.drop (index + 2)) ∧
      ∀ key, final.headers.get? key =
        headerValue (unfoldLines (physicalLines (block.drop (index + 2)))) key := by
  unfold parseLines at parsed
  split at parsed
  · cases parsed
  · rename_i index found
    dsimp only at parsed
    split at parsed
    · cases parsed
    · obtain ⟨_, named, assigned, parsed⟩ := exec_bind_ok parsed
      rw [exec_modify] at assigned
      cases assigned
      obtain ⟨lines, _, split, parsed⟩ := exec_bind_ok parsed
      obtain ⟨⟨⟩, read, loop, parsed⟩ := exec_bind_ok parsed
      obtain ⟨line, _, cracked, parsed⟩ := exec_bind_ok parsed
      rw [exec_ofExcept] at split cracked
      obtain ⟨cut, rfl⟩ := Prod.mk.inj split
      obtain ⟨-, rfl⟩ := Prod.mk.inj cracked
      have same : read = final := by
        split at parsed
        · cases parsed
        · exact (Prod.mk.inj parsed).2
      have whole := (exec_readHeaders_lines cut _).trans loop
      have freshThen : RequestHead.headers
          { start with firstLine := some (Bytes.rstrip (block.take index)) } = {} := fresh
      refine ⟨index, found, ?_⟩
      rcases exec_readHeaders (onlyCrlf_iff.mpr (headerLinesLoop_ok cut)) freshThen with
        ⟨isBlock, other, agrees, values⟩ | ⟨-, message, failed⟩
      · rw [← same, (Prod.mk.inj (whole.symm.trans agrees)).2]
        exact ⟨isBlock, values⟩
      · rw [whole] at failed
        cases failed

theorem readHeaders_spec_folded :
    ((∀ message, (exec (readHeaders (ascii "Host: a\r\nX-Y: b\r\n c\r\nx-y:d \r\n\r\n")) {}).1 ≠
          .error (.parsingError message)) ↔
        IsHeaderBlock (ascii "Host: a\r\nX-Y: b\r\n c\r\nx-y:d \r\n\r\n")) ∧
      (IsHeaderBlock (ascii "Host: a\r\nX-Y: b\r\n c\r\nx-y:d \r\n\r\n") →
        ∃ final, exec (readHeaders (ascii "Host: a\r\nX-Y: b\r\n c\r\nx-y:d \r\n\r\n")) {} =
            (.ok ⟨⟩, final) ∧
          ∀ key, final.headers.get? key =
            headerValue (unfoldLines
              (physicalLines (ascii "Host: a\r\nX-Y: b\r\n c\r\nx-y:d \r\n\r\n"))) key) := by
  refine readHeaders_spec (onlyCrlf_iff.mpr ?_) rfl
  simp only [CleanLine]
  decide +kernel

example : headerValue (unfoldLines
    (physicalLines (ascii "Host: a\r\nX-Y: b\r\n c\r\nx-y:d \r\n\r\n"))) "X_Y".toList =
      some "b c, d".toList := by decide +kernel

end Waitress
