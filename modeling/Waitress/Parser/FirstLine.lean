import Waitress.Parser

/-!
# The start line

`first_line_re` allows for an absolute URI in front of the target, which neither
adds targets nor moves their ends: a target is any nonempty text without spaces.
-/

namespace Waitress

/-- `method SP uri [SP "HTTP/" digit "." digit]`, where a missing version is empty. -/
structure StartLine (line method uri version : Bytes) : Prop where
  method_ne_nil : method ≠ []
  isToken : ∀ x ∈ method, tchar x.toNat = true
  uri_ne_nil : uri ≠ []
  noSpace : 32 ∉ uri
  parts : (version = [] ∧ line = method ++ 32 :: uri) ∨
    ∃ major minor, digit major.toNat = true ∧ digit minor.toNat = true ∧
      version = [major, 46, minor] ∧ line = method ++ 32 :: (uri ++ ascii " HTTP/" ++ version)

def IsLowercase (x : UInt8) : Prop := 97 ≤ x ∧ x ≤ 122

namespace StartLine

variable {line method uri version : Bytes}

theorem space_not_mem (start : StartLine line method uri version) : 32 ∉ method := by
  intro mem
  exact absurd (start.isToken 32 mem) (by decide)

/-- What stands behind the method, up to the next space, is the target. -/
theorem rest (start : StartLine line method uri version) :
    line.takeWhile (· ≠ 32) = method ∧
      ((line.dropWhile (· ≠ 32)).drop 1).takeWhile (· ≠ 32) = uri ∧
      (((line.dropWhile (· ≠ 32)).drop 1).dropWhile (· ≠ 32)).drop 6 = version := by
  have passes : ∀ {s : Bytes}, 32 ∉ s → ∀ x ∈ s, decide (x ≠ 32) = true := by
    intro s absent x mem
    refine decide_eq_true ?_
    rintro rfl
    exact absent mem
  have inMethod := passes start.space_not_mem
  have inUri := passes start.noSpace
  rcases start.parts with ⟨rfl, rfl⟩ | ⟨major, minor, -, -, rfl, rfl⟩
  · rw [List.takeWhile_append_of_pos inMethod, List.dropWhile_append_of_pos inMethod,
      List.takeWhile_cons_of_neg (by decide), List.dropWhile_cons_of_neg (by decide),
      List.append_nil, List.drop_one, List.tail_cons, List.takeWhile_eq_self_iff.mpr inUri,
      List.dropWhile_eq_nil_iff.mpr inUri]
    exact ⟨rfl, rfl, rfl⟩
  · have behind : ascii " HTTP/" ++ [major, 46, minor] =
        32 :: (ascii "HTTP/" ++ [major, 46, minor]) := rfl
    rw [List.takeWhile_append_of_pos inMethod, List.dropWhile_append_of_pos inMethod,
      List.takeWhile_cons_of_neg (by decide), List.dropWhile_cons_of_neg (by decide),
      List.append_nil, List.drop_one, List.tail_cons, List.append_assoc, behind,
      List.takeWhile_append_of_pos inUri, List.dropWhile_append_of_pos inUri,
      List.takeWhile_cons_of_neg (by decide), List.dropWhile_cons_of_neg (by decide),
      List.append_nil]
    exact ⟨rfl, rfl, rfl⟩

theorem unique {method' uri' version' : Bytes} (start : StartLine line method uri version)
    (other : StartLine line method' uri' version') :
    method = method' ∧ uri = uri' ∧ version = version' := by
  obtain ⟨methods, uris, versions⟩ := start.rest
  obtain ⟨methods', uris', versions'⟩ := other.rest
  exact ⟨methods.symm.trans methods', uris.symm.trans uris', versions.symm.trans versions'⟩

end StartLine

/-! ### The expression -/

section Expression

open Regex

variable {line method uri version word : Bytes} {captures : Captures UInt8}

def absolutePrefixRe : Regex UInt8 :=
  let outside (codes : List Nat) : Regex UInt8 := .cls fun x => x.toNat ∉ codes
  .seq (.plus true (outside [32, 58, 63, 35]))
    (.seq (.literal (ascii "://"))
      (.seq (.star true (outside [32, 63, 35, 47]))
        (.opt (.upTo (classOf UInt8.toNat digit) 4))))

def numbersRe : Regex UInt8 :=
  .seq (classOf UInt8.toNat digit) (.seq (.literal (ascii ".")) (classOf UInt8.toNat digit))

/-- The expression, by its groups. -/
theorem firstLineRe_eq : firstLineRe =
    .seq (.group "method" (.plus true (classOf UInt8.toNat tchar)))
      (.seq (.literal (ascii " "))
        (.seq
          (.group "uri"
            (.seq (.opt absolutePrefixRe) (.plus true (.cls fun x => x.toNat ∉ [32]))))
          (.opt
            (.seq (.literal (ascii " HTTP/"))
              (.group "version" numbersRe))))) := rfl

/-- The prefix of an absolute URI contains no space and no groups. -/
theorem absolutePrefixRe_word (matched : Matches (.opt absolutePrefixRe) word captures) :
    32 ∉ word ∧ captures = [] := by
  have outside : ∀ (codes : List Nat), 32 ∈ codes →
      Over (fun x : UInt8 => x ≠ 32) (.cls fun x => x.toNat ∉ codes) := by
    rintro codes listed x accepted rfl
    exact of_decide_eq_true accepted listed
  have isDigit : Over (fun x : UInt8 => x ≠ 32) (classOf UInt8.toNat digit) := by
    rintro x accepted rfl
    cases accepted
  have slashes : Over (fun x : UInt8 => x ≠ 32) (.literal (ascii "://")) :=
    over_literal fun x mem => by
      rintro rfl
      exact absurd mem (by decide)
  have spaceless : Over (fun x : UInt8 => x ≠ 32) (.opt absolutePrefixRe) :=
    ⟨⟨⟨outside _ (by decide), outside _ (by decide)⟩, slashes, outside _ (by decide),
      ⟨isDigit, ⟨isDigit, ⟨isDigit, ⟨isDigit, isDigit, trivial⟩, trivial⟩, trivial⟩, trivial⟩,
      trivial⟩, trivial⟩
  exact ⟨fun mem => matched.forall_of_over spaceless 32 mem rfl, matched.captures_eq_nil rfl⟩

theorem matches_uri :
    Matches (.seq (.opt absolutePrefixRe) (.plus true (.cls fun x => x.toNat ∉ [32]))) word
        captures ↔ word ≠ [] ∧ 32 ∉ word ∧ captures = [] := by
  have noSpace : ∀ s : Bytes, (∀ x ∈ s, decide (x.toNat ∉ [32]) = true) ↔ 32 ∉ s := by
    intro s
    constructor
    · intro outside mem
      exact absurd (outside 32 mem) (by decide)
    · intro absent x mem
      refine decide_eq_true fun code => absent ?_
      have same : x = 32 := UInt8.toNat_inj.mp (List.mem_singleton.mp code)
      exact same ▸ mem
  rw [matches_seq]
  constructor
  · rintro ⟨front, once, back, more, front', back', rfl, rfl⟩
    obtain ⟨absent, rfl⟩ := absolutePrefixRe_word front'
    obtain ⟨nonempty, outside, rfl⟩ := matches_plus_cls.mp back'
    refine ⟨by simp [nonempty], fun mem => ?_, rfl⟩
    rcases List.mem_append.mp mem with inFront | inBack
    · exact absent inFront
    · exact (noSpace back).mp outside inBack
  · rintro ⟨nonempty, absent, rfl⟩
    exact ⟨[], [], word, [], matches_opt.mpr (.inr ⟨rfl, rfl⟩),
      matches_plus_cls.mpr ⟨nonempty, (noSpace word).mpr absent, rfl⟩, rfl, rfl⟩

/-- The matches of the expression are the decompositions of the line. -/
theorem matches_firstLineRe :
    Matches firstLineRe line captures ↔
      ∃ method uri version, StartLine line method uri version ∧
        captures = (if version = [] then [] else [("version", version)]) ++
          [("uri", uri), ("method", method)] := by
  have dot : Matches (.literal (ascii ".")) [46] ([] : Captures UInt8) :=
    matches_literal.mpr ⟨rfl, rfl⟩
  rw [firstLineRe_eq]
  constructor
  · intro matched
    obtain ⟨method, _, _, _, isMethod, behindMethod, rfl, rfl⟩ := matches_seq.mp matched
    obtain ⟨_, _, _, _, isSpace, behindSpace, rfl, rfl⟩ := matches_seq.mp behindMethod
    obtain ⟨uri, _, _, _, isUri, behindUri, rfl, rfl⟩ := matches_seq.mp behindSpace
    obtain ⟨_, token, rfl⟩ := matches_group.mp isMethod
    obtain ⟨methodNe, isToken, rfl⟩ := matches_plus_cls.mp token
    obtain ⟨rfl, rfl⟩ := matches_literal.mp isSpace
    obtain ⟨_, target, rfl⟩ := matches_group.mp isUri
    obtain ⟨uriNe, noSpace, rfl⟩ := matches_uri.mp target
    rcases matches_opt.mp behindUri with versioned | ⟨rfl, rfl⟩
    · obtain ⟨_, _, _, _, slash, isVersion, rfl, rfl⟩ := matches_seq.mp versioned
      obtain ⟨rfl, rfl⟩ := matches_literal.mp slash
      obtain ⟨_, numbers, rfl⟩ := matches_group.mp isVersion
      obtain ⟨_, _, _, _, isMajor, behindMajor, rfl, rfl⟩ := matches_seq.mp numbers
      obtain ⟨_, _, _, _, isDot, isMinor, rfl, rfl⟩ := matches_seq.mp behindMajor
      obtain ⟨rfl, rfl⟩ := matches_literal.mp isDot
      obtain ⟨⟨major, majorDigit, rfl⟩, rfl⟩ := matches_cls.mp isMajor
      obtain ⟨⟨minor, minorDigit, rfl⟩, rfl⟩ := matches_cls.mp isMinor
      refine ⟨method, uri, [major, 46, minor], ⟨methodNe, isToken, uriNe, noSpace,
        .inr ⟨major, minor, majorDigit, minorDigit, rfl, ?_⟩⟩, rfl⟩
      simp [ascii]
    · refine ⟨method, uri, [], ⟨methodNe, isToken, uriNe, noSpace, .inl ⟨rfl, ?_⟩⟩, rfl⟩
      simp [ascii]
  · rintro ⟨method, uri, version, start, rfl⟩
    have isMethod : Matches (.group "method" (.plus true (classOf UInt8.toNat tchar))) method
        [("method", method)] :=
      .group (matches_plus_cls.mpr ⟨start.method_ne_nil, start.isToken, rfl⟩)
    have isSpace : Matches (.literal (ascii " ")) [32] ([] : Captures UInt8) :=
      matches_literal.mpr ⟨rfl, rfl⟩
    have isUri : Matches (.group "uri"
        (.seq (.opt absolutePrefixRe) (.plus true (.cls fun x => x.toNat ∉ [32])))) uri
        [("uri", uri)] :=
      .group (matches_uri.mpr ⟨start.uri_ne_nil, start.noSpace, rfl⟩)
    rcases start.parts with ⟨rfl, rfl⟩ | ⟨major, minor, isMajor, isMinor, rfl, rfl⟩
    · have noVersion : Matches (.opt (.seq (.literal (ascii " HTTP/")) (.group "version" numbersRe)))
          ([] : Bytes) [] := matches_opt.mpr (.inr ⟨rfl, rfl⟩)
      have whole := Matches.seq isMethod (.seq isSpace (.seq isUri noVersion))
      simpa [numbersRe] using whole
    · have isVersion : Matches (.group "version" numbersRe) [major, 46, minor]
          [("version", [major, 46, minor])] := by
        have isMajorWord : Matches (classOf UInt8.toNat digit) [major] [] := .cls isMajor
        have isMinorWord : Matches (classOf UInt8.toNat digit) [minor] [] := .cls isMinor
        exact .group (.seq isMajorWord (.seq dot isMinorWord))
      have slash : Matches (.literal (ascii " HTTP/")) (ascii " HTTP/") ([] : Captures UInt8) :=
        matches_literal.mpr ⟨rfl, rfl⟩
      have versioned : Matches (.opt (.seq (.literal (ascii " HTTP/")) (.group "version" numbersRe)))
          (ascii " HTTP/" ++ [major, 46, minor]) ([("version", [major, 46, minor])] ++ []) :=
        matches_opt.mpr (.inl (.seq slash isVersion))
      have whole := Matches.seq isMethod (.seq isSpace (.seq isUri versioned))
      simpa [numbersRe] using whole

end Expression

/-! ### The lines that are read -/

section Reading

variable {line method uri version : Bytes}

/-- Changing the case of a text keeps it exactly if no letter is lowercase. -/
theorem upper_eq_self_iff {s : Bytes} : Bytes.upper s = s ↔ ∀ x ∈ s, ¬ IsLowercase x := by
  have each : ∀ x : UInt8, Bytes.upperByte x = x ↔ ¬ IsLowercase x := by
    intro x
    by_cases lowercase : IsLowercase x
    · have moved : Bytes.upperByte x = x - 32 := by
        simp [Bytes.upperByte, lowercase.1, lowercase.2]
      rw [moved]
      obtain ⟨low, high⟩ := lowercase
      refine ⟨fun same => ?_, fun notLowercase => absurd ⟨low, high⟩ notLowercase⟩
      have codes := congrArg UInt8.toNat same
      rw [UInt8.toNat_sub_of_le x 32 (UInt8.le_trans (by decide) low)] at codes
      have least : 97 ≤ x.toNat := UInt8.le_iff_toNat_le.mp low
      have code : (32 : UInt8).toNat = 32 := rfl
      omega
    · have kept : Bytes.upperByte x = x := by
        have outside : ¬ (decide (97 ≤ x) && decide (x ≤ 122)) = true := by
          simpa [IsLowercase] using lowercase
        exact if_neg outside
      exact ⟨fun _ => lowercase, fun _ => kept⟩
  calc Bytes.upper s = s ↔ s.map Bytes.upperByte = s.map id := by rw [Bytes.upper, List.map_id]
    _ ↔ ∀ x ∈ s, Bytes.upperByte x = x := List.map_eq_map_iff
    _ ↔ ∀ x ∈ s, ¬ IsLowercase x := forall_congr' fun x => imp_congr_right fun _ => each x

/-- The result on a line of the form. -/
theorem StartLine.crackFirstLine_eq (start : StartLine line method uri version) :
    crackFirstLine line =
      if method ≠ Bytes.upper method then
        .error (.parsingError
          ("Malformed HTTP method \"".toList ++ decodeLatin1 method ++ "\"".toList))
      else .ok (method, uri, version) := by
  have found : (firstLineRe.fullMatch? line).isSome = true :=
    Regex.fullMatch?_isSome_iff.mpr ⟨_, matches_firstLineRe.mpr ⟨_, _, _, start, rfl⟩⟩
  obtain ⟨captures, result⟩ := Option.isSome_iff_exists.mp found
  obtain ⟨method', uri', version', other, rfl⟩ :=
    matches_firstLineRe.mp (Regex.matches_of_fullMatch? result)
  obtain ⟨rfl, rfl, rfl⟩ := start.unique other
  rw [crackFirstLine, result]
  by_cases missing : version = []
  · subst missing
    rfl
  · simp only [if_neg missing]
    rfl

/-- Every other line gives empty strings. -/
theorem crackFirstLine_eq_empty (none : ∀ method uri version, ¬ StartLine line method uri version) :
    crackFirstLine line = .ok ([], [], []) := by
  have missed : firstLineRe.fullMatch? line = .none := by
    refine Option.not_isSome_iff_eq_none.mp fun found => ?_
    obtain ⟨captures, matched⟩ := Regex.fullMatch?_isSome_iff.mp found
    obtain ⟨method, uri, version, start, -⟩ := matches_firstLineRe.mp matched
    exact none method uri version start
  rw [crackFirstLine, missed]

/-- A line is read by the grammar alone: its parts if the method has no lowercase letter,
an error if it has one, and empty strings if there are no parts. -/
theorem crackFirstLine_reads_grammar (line : Bytes) :
    (∀ method uri version,
      (crackFirstLine line = .ok (method, uri, version) ∧ method ≠ []) ↔
        StartLine line method uri version ∧ ∀ x ∈ method, ¬ IsLowercase x) ∧
    ((∃ message, crackFirstLine line = .error (.parsingError message)) ↔
      ∃ method uri version, StartLine line method uri version ∧ ∃ x ∈ method, IsLowercase x) ∧
    ((∀ method uri version, ¬ StartLine line method uri version) →
      crackFirstLine line = .ok ([], [], [])) ∧
    ∀ method uri version method' uri' version',
      StartLine line method uri version → StartLine line method' uri' version' →
        method = method' ∧ uri = uri' ∧ version = version' := by
  refine ⟨?parts, ?raises, crackFirstLine_eq_empty, fun _ _ _ _ _ _ => StartLine.unique⟩
  case parts =>
    intro method uri version
    constructor
    · rintro ⟨returns, nonempty⟩
      by_cases form : ∃ method uri version, StartLine line method uri version
      · obtain ⟨method', uri', version', start⟩ := form
        rw [start.crackFirstLine_eq] at returns
        split at returns
        · cases returns
        · rename_i same
          cases returns
          exact ⟨start, upper_eq_self_iff.mp (not_not.mp same).symm⟩
      · rw [crackFirstLine_eq_empty fun m u v start => form ⟨m, u, v, start⟩] at returns
        cases returns
        exact absurd rfl nonempty
    · rintro ⟨start, uppercase⟩
      have same : ¬ method ≠ Bytes.upper method :=
        not_not.mpr (upper_eq_self_iff.mpr uppercase).symm
      exact ⟨start.crackFirstLine_eq.trans (if_neg same), start.method_ne_nil⟩
  case raises =>
    constructor
    · rintro ⟨message, raised⟩
      by_cases form : ∃ method uri version, StartLine line method uri version
      · obtain ⟨method, uri, version, start⟩ := form
        refine ⟨method, uri, version, start, ?_⟩
        rw [start.crackFirstLine_eq] at raised
        split at raised
        · rename_i different
          by_contra noneLowercase
          push Not at noneLowercase
          exact different (upper_eq_self_iff.mpr noneLowercase).symm
        · cases raised
      · rw [crackFirstLine_eq_empty fun m u v start => form ⟨m, u, v, start⟩] at raised
        cases raised
    · rintro ⟨method, uri, version, start, x, mem, lowercase⟩
      have different : method ≠ Bytes.upper method := fun same =>
        upper_eq_self_iff.mp same.symm x mem lowercase
      exact ⟨_, start.crackFirstLine_eq.trans (if_pos different)⟩

end Reading

end Waitress
