import Waitress.Parser
import Waitress.Python.Text

/-!
# Reading the request target

The two branches of `split_uri` read a path the same way, except that `urlsplit`
first removes tabs, carriage returns and line feeds, of which a request line may
contain the first.
-/

namespace Waitress

/-! ### Percent-decoding -/

section Unquoting

variable {x : UInt8} {s : Bytes}

def StartsEscape (s : Bytes) : Prop :=
  ∃ high low rest h l, s = high :: low :: rest ∧ hexValue? high = some h ∧ hexValue? low = some l

theorem unquoteToBytes_cons (plain : ¬(x = 37 ∧ StartsEscape s)) :
    unquoteToBytes (x :: s) = x :: unquoteToBytes s := by
  rw [unquoteToBytes.eq_def]
  split
  · next high low rest same =>
      cases same
      split
      · next h l isHigh isLow =>
          exact absurd ⟨rfl, high, low, rest, h, l, rfl, isHigh, isLow⟩ plain
      · rfl
  · next same =>
      cases same
      rfl
  · next same => cases same

theorem unquoteToBytes_cons_of_ne (notPercent : x ≠ 37) :
    unquoteToBytes (x :: s) = x :: unquoteToBytes s :=
  unquoteToBytes_cons fun escape => notPercent escape.1

theorem unquoteToBytes_escape {high low : UInt8} {h l : Nat} (isHigh : hexValue? high = some h)
    (isLow : hexValue? low = some l) :
    unquoteToBytes (37 :: high :: low :: s) = UInt8.ofNat (16 * h + l) :: unquoteToBytes s := by
  rw [unquoteToBytes, isHigh, isLow]

theorem ne_of_hexValue? {y : UInt8} {h : Nat} (value : hexValue? y = some h) :
    y ≠ 37 ∧ y ≠ 47 := by
  constructor
  · rintro rfl
    cases value
  · rintro rfl
    cases value

theorem length_unquoteToBytes_cons_le (x : UInt8) (s : Bytes) :
    (unquoteToBytes (x :: s)).length ≤ (unquoteToBytes s).length + 1 := by
  by_cases escape : x = 37 ∧ StartsEscape s
  · obtain ⟨rfl, high, low, rest, h, l, rfl, isHigh, isLow⟩ := escape
    rw [unquoteToBytes_escape isHigh isLow,
      unquoteToBytes_cons_of_ne (ne_of_hexValue? isHigh).1,
      unquoteToBytes_cons_of_ne (ne_of_hexValue? isLow).1]
    simp only [List.length_cons]
    omega
  · rw [unquoteToBytes_cons escape, List.length_cons]

/-- A slash is no part of an escape. -/
theorem unquoteToBytes_append_slash (front s : Bytes) :
    unquoteToBytes (front ++ 47 :: s) = unquoteToBytes front ++ unquoteToBytes (47 :: s) := by
  induction front using unquoteToBytes.induct with
  | case1 high low rest h l isLow isHigh inductionHypothesis =>
      rw [unquoteToBytes_escape isHigh isLow, List.cons_append, List.cons_append, List.cons_append,
        unquoteToBytes_escape isHigh isLow, inductionHypothesis]
      rfl
  | case2 high low rest notEscape inductionHypothesis =>
      have plain : ∀ more, ¬((37 : UInt8) = 37 ∧ StartsEscape (high :: low :: rest ++ more)) := by
        rintro more ⟨-, _, _, _, h, l, same, isHigh, isLow⟩
        cases same
        exact notEscape h l isHigh isLow
      have alone := plain []
      rw [List.append_nil] at alone
      rw [List.cons_append, unquoteToBytes_cons (plain _), inductionHypothesis,
        unquoteToBytes_cons alone]
      rfl
  | case3 x rest notLong inductionHypothesis =>
      have plain : ¬(x = 37 ∧ StartsEscape rest) := by
        rintro ⟨rfl, high, low, more, -, -, rfl, -⟩
        exact notLong high low more rfl rfl
      have plainToo : ¬(x = 37 ∧ StartsEscape (rest ++ 47 :: s)) := by
        rintro ⟨rfl, high, low, more, h, l, same, isHigh, isLow⟩
        match rest, same with
        | [], same =>
            cases same
            exact (ne_of_hexValue? isHigh).2 rfl
        | [only], same =>
            cases same
            exact (ne_of_hexValue? isLow).2 rfl
        | first :: second :: others, _ => exact notLong first second others rfl rfl
      rw [List.cons_append, unquoteToBytes_cons plainToo, inductionHypothesis,
        unquoteToBytes_cons plain]
      rfl
  | case4 => rfl

end Unquoting

/-! ### What `urlsplit` removes -/

def isRemoved (x : UInt8) : Bool := x ∈ ([9, 10, 13] : Bytes)

def cleaned (s : Bytes) : Bytes := s.filter fun x => !isRemoved x

theorem isRemoved_hexValue? {y : UInt8} {h : Nat} (value : hexValue? y = some h) :
    isRemoved y = false := by
  rw [isRemoved]
  refine decide_eq_false fun mem => ?_
  simp only [List.mem_cons, List.not_mem_nil, or_false] at mem
  rcases mem with rfl | rfl | rfl
  · cases value
  · cases value
  · cases value

theorem cleaned_eq_self_iff {s : Bytes} : cleaned s = s ↔ ∀ x ∈ s, isRemoved x = false := by
  rw [cleaned, List.filter_eq_self]
  simp

/-- What is removed is missing from the decoded text, where it may also have split an escape. -/
theorem length_unquoteToBytes_cleaned (s : Bytes) :
    (unquoteToBytes (cleaned s)).length + (s.filter isRemoved).length ≤
      (unquoteToBytes s).length := by
  induction s using unquoteToBytes.induct with
  | case1 high low rest h l isLow isHigh inductionHypothesis =>
      have kept : cleaned (37 :: high :: low :: rest) = 37 :: high :: low :: cleaned rest := by
        simp [cleaned, isRemoved_hexValue? isHigh, isRemoved_hexValue? isLow,
          show isRemoved 37 = false from rfl]
      have removed : (37 :: high :: low :: rest).filter isRemoved = rest.filter isRemoved := by
        simp [isRemoved_hexValue? isHigh, isRemoved_hexValue? isLow,
          show isRemoved 37 = false from rfl]
      rw [kept, removed, unquoteToBytes_escape isHigh isLow, unquoteToBytes_escape isHigh isLow,
        List.length_cons, List.length_cons]
      omega
  | case2 high low rest notEscape inductionHypothesis =>
      have plain : ¬((37 : UInt8) = 37 ∧ StartsEscape (high :: low :: rest)) := by
        rintro ⟨-, _, _, _, h, l, same, isHigh, isLow⟩
        cases same
        exact notEscape h l isHigh isLow
      have kept : cleaned (37 :: high :: low :: rest) = 37 :: cleaned (high :: low :: rest) := rfl
      have removed : (37 :: high :: low :: rest).filter isRemoved =
          (high :: low :: rest).filter isRemoved := rfl
      have step := length_unquoteToBytes_cons_le 37 (cleaned (high :: low :: rest))
      rw [kept, removed, unquoteToBytes_cons plain, List.length_cons]
      omega
  | case3 x rest notLong inductionHypothesis =>
      have plain : ¬(x = 37 ∧ StartsEscape rest) := by
        rintro ⟨rfl, high, low, more, -, -, rfl, -⟩
        exact notLong high low more rfl rfl
      rw [unquoteToBytes_cons plain, List.length_cons]
      cases gone : isRemoved x with
      | true =>
          rw [cleaned, List.filter_cons_of_neg (by simp [gone]), List.filter_cons_of_pos gone,
            List.length_cons]
          rw [cleaned] at inductionHypothesis
          omega
      | false =>
          have step := length_unquoteToBytes_cons_le x (cleaned rest)
          rw [cleaned] at step inductionHypothesis
          rw [cleaned, List.filter_cons_of_pos (by simp [gone]),
            List.filter_cons_of_neg (by simp [gone])]
          omega
  | case4 => rfl

/-! ### The parts of a target -/

def isMark (x : UInt8) : Bool := x = 63 || x = 35

def targetPath (uri : Bytes) : Bytes := uri.takeWhile fun x => !isMark x

def targetQuery (uri : Bytes) : Bytes :=
  match uri.dropWhile fun x => !isMark x with
  | 63 :: rest => rest.takeWhile (· ≠ 35)
  | _ => []

def targetFragment (uri : Bytes) : Bytes := (uri.dropWhile (· ≠ 35)).drop 1

/-- The parts are those of the target as it stands. -/
structure ReadsTarget (uri : Bytes) (parts : SplitUri) : Prop where
  path : parts.path = unquoteBytesToWsgi (targetPath uri)
  query : parts.query = decodeLatin1 (targetQuery uri)
  fragment : parts.fragment = decodeLatin1 (targetFragment uri)

section Parts

variable {x : UInt8} {s front : Bytes}

theorem targetPath_cons (ordinary : isMark x = false) :
    targetPath (x :: s) = x :: targetPath s := by
  rw [targetPath, List.takeWhile_cons_of_pos (by simp [ordinary])]
  rfl

theorem targetQuery_cons (ordinary : isMark x = false) :
    targetQuery (x :: s) = targetQuery s := by
  rw [targetQuery, List.dropWhile_cons_of_pos (by simp [ordinary])]
  rfl

theorem targetFragment_cons (ordinary : isMark x = false) :
    targetFragment (x :: s) = targetFragment s := by
  have notSign : x ≠ 35 := by
    rintro rfl
    cases ordinary
  rw [targetFragment, List.dropWhile_cons_of_pos (by simp [notSign])]
  rfl

theorem isMark_iff : isMark x = true ↔ x = 63 ∨ x = 35 := by
  rw [isMark, Bool.or_eq_true, decide_eq_true_eq, decide_eq_true_eq]

/-- Splitting at `#` first and then at `?` gives the parts. -/
theorem partitionAt_target (s : Bytes) :
    Bytes.partitionAt 63 (Bytes.partitionAt 35 s).1 = (targetPath s, targetQuery s) ∧
      (Bytes.partitionAt 35 s).2 = targetFragment s := by
  refine ⟨?_, rfl⟩
  induction s with
  | nil => rfl
  | cons x rest inductionHypothesis =>
      cases mark : isMark x with
      | true =>
          rcases isMark_iff.mp mark with rfl | rfl
          · rfl
          · rfl
      | false =>
          have notQuestion : x ≠ 63 := by
            rintro rfl
            cases mark
          have notSign : x ≠ 35 := by
            rintro rfl
            cases mark
          rw [targetPath_cons mark, targetQuery_cons mark]
          have split := Prod.mk.inj inductionHypothesis
          simp only [Bytes.partitionAt] at split ⊢
          rw [List.takeWhile_cons_of_pos (by simp [notSign]),
            List.takeWhile_cons_of_pos (by simp [notQuestion]),
            List.dropWhile_cons_of_pos (by simp [notQuestion]), split.1, split.2]

theorem isRemoved_mark (mark : isMark x = true) : isRemoved x = false := by
  rcases isMark_iff.mp mark with rfl | rfl
  · rfl
  · rfl

theorem cleaned_cons (kept : isRemoved x = false) : cleaned (x :: s) = x :: cleaned s := by
  rw [cleaned, List.filter_cons_of_pos (by simp [kept])]
  rfl

theorem cleaned_cons_removed (gone : isRemoved x = true) : cleaned (x :: s) = cleaned s := by
  rw [cleaned, List.filter_cons_of_neg (by simp [gone])]
  rfl

/-- What is removed ends no part. -/
theorem takeWhile_cleaned {test : UInt8 → Bool}
    (passes : ∀ x, isRemoved x = true → test x = true) (s : Bytes) :
    (cleaned s).takeWhile test = cleaned (s.takeWhile test) ∧
      (cleaned s).dropWhile test = cleaned (s.dropWhile test) := by
  induction s with
  | nil => exact ⟨rfl, rfl⟩
  | cons x rest inductionHypothesis =>
      cases gone : isRemoved x with
      | true =>
          rw [cleaned_cons_removed gone, List.takeWhile_cons_of_pos (passes x gone),
            List.dropWhile_cons_of_pos (passes x gone), cleaned_cons_removed gone]
          exact inductionHypothesis
      | false =>
          rw [cleaned_cons gone]
          cases passing : test x with
          | true =>
              rw [List.takeWhile_cons_of_pos passing, List.takeWhile_cons_of_pos passing,
                List.dropWhile_cons_of_pos passing, List.dropWhile_cons_of_pos passing,
                cleaned_cons gone, inductionHypothesis.1, inductionHypothesis.2]
              exact ⟨rfl, rfl⟩
          | false =>
              have stops : ¬test x = true := by simp [passing]
              rw [List.takeWhile_cons_of_neg stops, List.takeWhile_cons_of_neg stops,
                List.dropWhile_cons_of_neg stops, List.dropWhile_cons_of_neg stops,
                cleaned_cons gone]
              exact ⟨rfl, rfl⟩

theorem not_mark_of_isRemoved (x : UInt8) (gone : isRemoved x = true) :
    (!isMark x) = true ∧ decide (x ≠ 35) = true := by
  constructor
  · cases mark : isMark x with
    | true =>
        rw [isRemoved_mark mark] at gone
        cases gone
    | false => rfl
  · refine decide_eq_true ?_
    rintro rfl
    cases gone

theorem target_cleaned (s : Bytes) :
    targetPath (cleaned s) = cleaned (targetPath s) ∧
      targetQuery (cleaned s) = cleaned (targetQuery s) ∧
      targetFragment (cleaned s) = cleaned (targetFragment s) := by
  obtain ⟨path, behind⟩ :=
    takeWhile_cleaned (fun x gone => (not_mark_of_isRemoved x gone).1) s
  have untilSign := takeWhile_cleaned fun x gone => (not_mark_of_isRemoved x gone).2
  refine ⟨path, ?_, ?_⟩
  · rw [targetQuery, targetQuery, behind]
    cases rest : s.dropWhile fun x => !isMark x with
    | nil => rfl
    | cons x rest' =>
        have stopped := List.head?_dropWhile_not (fun x => !isMark x) s
        rw [rest, List.head?_cons] at stopped
        have mark : isMark x = true := by simpa using stopped
        rw [cleaned_cons (isRemoved_mark mark)]
        rcases isMark_iff.mp mark with rfl | rfl
        · exact (untilSign rest').1
        · rfl
  · rw [targetFragment, targetFragment, (untilSign s).2]
    cases rest : s.dropWhile (· ≠ 35) with
    | nil => rfl
    | cons x rest' =>
        have stopped := List.head?_dropWhile_not (fun x : UInt8 => decide (x ≠ 35)) s
        rw [rest, List.head?_cons] at stopped
        obtain rfl : x = 35 := by simpa using stopped
        rfl

theorem target_append (ordinary : ∀ x ∈ front, isMark x = false) :
    targetPath (front ++ s) = front ++ targetPath s ∧
      targetQuery (front ++ s) = targetQuery s ∧
      targetFragment (front ++ s) = targetFragment s := by
  induction front with
  | nil => exact ⟨rfl, rfl, rfl⟩
  | cons x front inductionHypothesis =>
      obtain ⟨first, others⟩ := List.forall_mem_cons.mp ordinary
      obtain ⟨path, query, fragment⟩ := inductionHypothesis others
      rw [List.cons_append, targetPath_cons first, targetQuery_cons first,
        targetFragment_cons first, path, query, fragment]
      exact ⟨rfl, rfl, rfl⟩

theorem mem_target {y : UInt8} (mem : y ∈ s) (ordinary : isMark y = false) :
    y ∈ targetPath s ∨ y ∈ targetQuery s ∨ y ∈ targetFragment s := by
  induction s with
  | nil => cases mem
  | cons x rest inductionHypothesis =>
      cases mark : isMark x with
      | true =>
          have inside : y ∈ rest := by
            rcases List.mem_cons.mp mem with rfl | inside
            · rw [ordinary] at mark
              cases mark
            · exact inside
          rcases isMark_iff.mp mark with rfl | rfl
          · have notSign : y ≠ 35 := by
              rintro rfl
              cases ordinary
            rw [← List.takeWhile_append_dropWhile (p := (· ≠ 35)) (l := rest),
              List.mem_append] at inside
            rcases inside with query | behind
            · exact .inr (.inl query)
            · refine .inr (.inr ?_)
              have fragment : targetFragment (63 :: rest) = (rest.dropWhile (· ≠ 35)).drop 1 := rfl
              rw [fragment]
              cases ended : rest.dropWhile (· ≠ 35) with
              | nil =>
                  rw [ended] at behind
                  cases behind
              | cons z more =>
                  have stopped := List.head?_dropWhile_not (fun x : UInt8 => decide (x ≠ 35)) rest
                  rw [ended, List.head?_cons] at stopped
                  obtain rfl : z = 35 := by simpa using stopped
                  rw [ended] at behind
                  exact (List.mem_cons.mp behind).resolve_left notSign
          · exact .inr (.inr inside)
      | false =>
          rw [targetPath_cons mark, targetQuery_cons mark, targetFragment_cons mark]
          rcases List.mem_cons.mp mem with rfl | inside
          · exact .inl List.mem_cons_self
          · rcases inductionHypothesis inside with path | others
            · exact .inl (List.mem_cons_of_mem x path)
            · exact .inr others

end Parts

/-! ### `split_uri` -/

/-- The authority that is taken off contains no mark, and what is left of the path is empty or
starts with a slash. -/
theorem exists_of_splitNetloc (url : Bytes) :
    ∃ front, url = front ++ (splitNetloc url).2 ∧ (∀ x ∈ front, isMark x = false) ∧
      (front = [] ∨ targetPath (splitNetloc url).2 = [] ∨
        (targetPath (splitNetloc url).2).head? = some 47) := by
  rw [splitNetloc]
  split
  · next slashes =>
      refine ⟨url.take 2 ++ (url.drop 2).takeWhile (· ∉ ascii "/?#"), ?_, ?_, .inr ?_⟩
      · rw [List.append_assoc, List.takeWhile_append_dropWhile, List.take_append_drop]
      · intro x mem
        rcases List.mem_append.mp mem with slash | inside
        · rw [slashes] at slash
          obtain rfl : x = 47 := by simpa [ascii] using slash
          rfl
        · have outside := List.mem_takeWhile_imp inside
          cases mark : isMark x with
          | false => rfl
          | true =>
              rcases isMark_iff.mp mark with rfl | rfl
              · cases outside
              · cases outside
      · cases rest : (url.drop 2).dropWhile (· ∉ ascii "/?#") with
        | nil => exact .inl rfl
        | cons x more =>
            have stopped := List.head?_dropWhile_not (fun x => decide (x ∉ ascii "/?#"))
              (url.drop 2)
            rw [rest, List.head?_cons] at stopped
            have delimiter : x ∈ ascii "/?#" := by simpa using stopped
            have cases : x = 47 ∨ x = 63 ∨ x = 35 := by simpa [ascii] using delimiter
            rcases cases with rfl | rfl | rfl
            · exact .inr rfl
            · exact .inl rfl
            · exact .inl rfl
  · exact ⟨[], rfl, by simp, .inl rfl⟩

theorem splitScheme_slash {url : Bytes} (slash : url.head? = some 47) :
    splitScheme url = ([], url) := by
  cases url with
  | nil => cases slash
  | cons x rest =>
      cases slash
      rw [splitScheme]
      exact if_neg fun scheme => by cases scheme.2.1

/-- The decoded text of a path that was cleaned, without an authority, is too short. -/
theorem targetPath_of_unquoted {uri : Bytes}
    (same : unquoteToBytes (targetPath (splitNetloc (cleaned uri)).2) =
      unquoteToBytes (targetPath uri)) : ∀ x ∈ targetPath uri, isRemoved x = false := by
  obtain ⟨front, whole, ordinary, ending⟩ := exists_of_splitNetloc (cleaned uri)
  have path : cleaned (targetPath uri) = front ++ targetPath (splitNetloc (cleaned uri)).2 := by
    rw [← (target_cleaned uri).1, ← (target_append ordinary).1, ← whole]
  have shorter : (unquoteToBytes (targetPath (splitNetloc (cleaned uri)).2)).length ≤
      (unquoteToBytes (cleaned (targetPath uri))).length := by
    rw [path]
    rcases ending with rfl | empty | slash
    · exact Nat.le_refl _
    · rw [empty]
      exact Nat.zero_le _
    · cases behind : targetPath (splitNetloc (cleaned uri)).2 with
      | nil => exact Nat.zero_le _
      | cons x rest =>
          rw [behind] at slash
          cases slash
          rw [unquoteToBytes_append_slash, List.length_append]
          exact Nat.le_add_left _ _
  have total := length_unquoteToBytes_cleaned (targetPath uri)
  rw [same] at shorter
  have none : ((targetPath uri).filter isRemoved).length = 0 := by omega
  intro x mem
  cases gone : isRemoved x with
  | false => rfl
  | true =>
      have listed := List.mem_filter.mpr ⟨mem, gone⟩
      rw [List.length_eq_zero_iff.mp none] at listed
      cases listed

section Splitting

variable [CPython] {uri : Bytes} {parts : SplitUri}

/-- `urlsplit` of a target that starts with a slash reads the cleaned target. -/
theorem urlsplit_slash (slash : uri.head? = some 47) {result : SplitResult}
    (returned : urlsplit uri = .ok result) :
    result.path = targetPath (splitNetloc (cleaned uri)).2 ∧
      result.query = targetQuery (splitNetloc (cleaned uri)).2 ∧
      result.fragment = targetFragment (splitNetloc (cleaned uri)).2 := by
  have stripped : (uri.dropWhile (· ≤ 32)).filter (· ∉ ([9, 10, 13] : Bytes)) = cleaned uri := by
    have kept : uri.dropWhile (· ≤ 32) = uri := by
      cases uri with
      | nil => rfl
      | cons x rest =>
          cases slash
          rfl
    rw [kept, cleaned]
    refine List.filter_congr fun x _ => ?_
    rw [isRemoved, decide_not]
  have first : (cleaned uri).head? = some 47 := by
    cases uri with
    | nil => cases slash
    | cons x rest =>
        cases slash
        rfl
  rw [urlsplit, stripped] at returned
  split at returned
  · cases returned
  dsimp only at returned
  rw [splitScheme_slash first] at returned
  dsimp only at returned
  split at returned
  · cases returned
  split at returned
  · cases returned
  cases returned
  obtain ⟨both, fragment⟩ := partitionAt_target (splitNetloc (cleaned uri)).2
  obtain ⟨path, query⟩ := Prod.mk.inj both
  exact ⟨path, query, fragment⟩

/-- The parts are those of the target as it stands, unless a target that starts with a single
slash contains something that `urlsplit` removes. -/
theorem splitUri_readsTarget_iff (slash : uri.head? = some 47) (returned : splitUri uri = .ok parts) :
    ReadsTarget uri parts ↔
      uri.take 2 = ascii "//" ∨ ∀ x ∈ uri, x ≠ 9 ∧ x ≠ 10 ∧ x ≠ 13 := by
  have removed : ∀ x : UInt8, isRemoved x = false ↔ x ≠ 9 ∧ x ≠ 10 ∧ x ≠ 13 := by
    intro x
    simp [isRemoved]
  simp only [← removed]
  rw [splitUri] at returned
  split at returned
  · next slashes =>
      cases returned
      obtain ⟨both, fragment⟩ := partitionAt_target uri
      obtain ⟨path, query⟩ := Prod.mk.inj both
      refine ⟨fun _ => .inl slashes, fun _ => ⟨?_, ?_, ?_⟩⟩
      · exact congrArg unquoteBytesToWsgi path
      · exact congrArg decodeLatin1 query
      · exact congrArg decodeLatin1 fragment
  · next single =>
      split at returned
      · next result split =>
          cases returned
          obtain ⟨path, query, fragment⟩ := urlsplit_slash slash split
          obtain ⟨front, whole, ordinary, -⟩ := exists_of_splitNetloc (cleaned uri)
          obtain ⟨-, sameQuery, sameFragment⟩ := target_append ordinary
          rw [← whole, (target_cleaned uri).2.1] at sameQuery
          rw [← whole, (target_cleaned uri).2.2] at sameFragment
          rw [← sameQuery] at query
          rw [← sameFragment] at fragment
          constructor
          · rintro ⟨pathIs, queryIs, fragmentIs⟩
            refine .inr fun x mem => ?_
            have paths : unquoteToBytes (targetPath (splitNetloc (cleaned uri)).2) =
                unquoteToBytes (targetPath uri) := by
              rw [← path]
              exact decodeLatin1_injective pathIs
            have queries : cleaned (targetQuery uri) = targetQuery uri := by
              rw [← query]
              exact decodeLatin1_injective queryIs
            have fragments : cleaned (targetFragment uri) = targetFragment uri := by
              rw [← fragment]
              exact decodeLatin1_injective fragmentIs
            cases mark : isMark x with
            | true => exact isRemoved_mark mark
            | false =>
                rcases mem_target mem mark with inPath | inQuery | inFragment
                · exact targetPath_of_unquoted paths x inPath
                · exact cleaned_eq_self_iff.mp queries x inQuery
                · exact cleaned_eq_self_iff.mp fragments x inFragment
          · rintro (slashes | plain)
            · exact absurd slashes single
            · have same : cleaned uri = uri := cleaned_eq_self_iff.mpr plain
              have whole : (splitNetloc uri).2 = uri := by rw [splitNetloc, if_neg single]
              rw [same, whole] at path
              have partsOf := target_cleaned uri
              rw [same] at partsOf
              refine ⟨congrArg unquoteBytesToWsgi path, ?_, ?_⟩
              · exact congrArg decodeLatin1 (query.trans partsOf.2.1.symm)
              · exact congrArg decodeLatin1 (fragment.trans partsOf.2.2.symm)
      · cases returned
      · cases returned

end Splitting

theorem splitUri_readsTarget_plain :
    ReadsTarget (ascii "/a%20b?c=d#e") ⟨[], [], "/a b".toList, "c=d".toList, "e".toList⟩ ↔
      (ascii "/a%20b?c=d#e").take 2 = ascii "//" ∨
        ∀ x ∈ ascii "/a%20b?c=d#e", x ≠ 9 ∧ x ≠ 10 ∧ x ≠ 13 :=
  @splitUri_readsTarget_iff CPython.unchecked (ascii "/a%20b?c=d#e") _ rfl (by decide +kernel)

/-- A tab gets lost from a path that starts with a single slash. -/
theorem splitUri_tab :
    crackFirstLine (ascii "GET /a\tb HTTP/1.1") =
        .ok (ascii "GET", ascii "/a\tb", ascii "1.1") ∧
      ¬∀ parts, @splitUri CPython.unchecked (ascii "/a\tb") = .ok parts →
        ReadsTarget (ascii "/a\tb") parts := by
  refine ⟨by decide +kernel, fun always => ?_⟩
  have split : @splitUri CPython.unchecked (ascii "/a\tb") =
      .ok ⟨[], [], "/ab".toList, [], []⟩ := by decide +kernel
  exact absurd (always _ split).path (by decide +kernel)

end Waitress
