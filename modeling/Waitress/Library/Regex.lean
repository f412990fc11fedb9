import Mathlib.Data.List.Basic

/-!
# Backtracking regular expressions

Regular expressions with named groups, in the style of Perl and Python.
`run` lists the matches of a prefix in the order in which a backtracking
engine tries them, so that its first element is the match such an engine
returns.  `Matches` is the order-free meaning, and `mem_run_iff` says that the
engine finds exactly the matches there are.
-/

universe u

/-- A regular expression over symbols `α`; classes are given by their test. -/
inductive Regex (α : Type u) where
  | empty
  | cls (accepts : α → Bool)
  | seq (first second : Regex α)
  | alt (left right : Regex α)
  | star (greedy : Bool) (body : Regex α)
  | group (name : String) (body : Regex α)

namespace Regex

variable {α : Type u}

abbrev Captures (α : Type u) := List (String × List α)

def plus (greedy : Bool) (body : Regex α) : Regex α := .seq body (.star greedy body)

def opt (body : Regex α) : Regex α := .alt body .empty

/-- Between one and `limit + 1` occurrences, preferably many. -/
def upTo (body : Regex α) : Nat → Regex α
  | 0 => body
  | limit + 1 => .seq body (opt (upTo body limit))

/-- Repetitions of an engine's body; an iteration has to consume something. -/
def repeats (greedy : Bool) (body : List α → List (Captures α × List α)) :
    Nat → List α → List (Captures α × List α)
  | 0, text => [([], text)]
  | fuel + 1, text =>
      let again := (body text).flatMap fun once =>
        if once.2.length < text.length then
          (repeats greedy body fuel once.2).map fun more => (more.1 ++ once.1, more.2)
        else []
      if greedy then again ++ [([], text)] else ([], text) :: again

/-- Matches of a prefix of the text with the rest behind it, best match first. -/
def run : Regex α → List α → List (Captures α × List α)
  | .empty, text => [([], text)]
  | .cls _, [] => []
  | .cls accepts, x :: rest => if accepts x then [([], rest)] else []
  | .seq first second, text =>
      (run first text).flatMap fun once =>
        (run second once.2).map fun more => (more.1 ++ once.1, more.2)
  | .alt left right, text => run left text ++ run right text
  | .star greedy body, text => repeats greedy (run body) text.length text
  | .group name body, text =>
      (run body text).map fun once =>
        ((name, text.take (text.length - once.2.length)) :: once.1, once.2)

/-- `Matches regex word captures`: the expression matches exactly `word`. -/
inductive Matches : Regex α → List α → Captures α → Prop where
  | empty : Matches .empty [] []
  | cls {accepts : α → Bool} {x : α} : accepts x = true → Matches (.cls accepts) [x] []
  | seq {first second : Regex α} {word more : List α} {captures moreCaptures : Captures α} :
      Matches first word captures → Matches second more moreCaptures →
      Matches (.seq first second) (word ++ more) (moreCaptures ++ captures)
  | left {left right : Regex α} {word : List α} {captures : Captures α} :
      Matches left word captures → Matches (.alt left right) word captures
  | right {left right : Regex α} {word : List α} {captures : Captures α} :
      Matches right word captures → Matches (.alt left right) word captures
  | stop {greedy : Bool} {body : Regex α} : Matches (.star greedy body) [] []
  | again {greedy : Bool} {body : Regex α} {word more : List α}
      {captures moreCaptures : Captures α} :
      word ≠ [] → Matches body word captures →
      Matches (.star greedy body) more moreCaptures →
      Matches (.star greedy body) (word ++ more) (moreCaptures ++ captures)
  | group {name : String} {body : Regex α} {word : List α} {captures : Captures α} :
      Matches body word captures → Matches (.group name body) word ((name, word) :: captures)

/-! ### The engine finds exactly the matches -/

/-- What the engine should list for an expression. -/
def Finds (found : List α → List (Captures α × List α)) (regex : Regex α) : Prop :=
  ∀ text captures rest, (captures, rest) ∈ found text ↔
    ∃ word, text = word ++ rest ∧ Matches regex word captures

theorem mem_repeats_succ {greedy : Bool} {body : List α → List (Captures α × List α)}
    {fuel : Nat} {text rest : List α} {captures : Captures α} :
    (captures, rest) ∈ repeats greedy body (fuel + 1) text ↔
      (captures = [] ∧ rest = text) ∨
      ∃ once ∈ body text, once.2.length < text.length ∧
        ∃ more ∈ repeats greedy body fuel once.2, captures = more.1 ++ once.1 ∧ rest = more.2 := by
  have again : (captures, rest) ∈ ((body text).flatMap fun once =>
        if once.2.length < text.length then
          (repeats greedy body fuel once.2).map fun more => (more.1 ++ once.1, more.2)
        else []) ↔
      ∃ once ∈ body text, once.2.length < text.length ∧
        ∃ more ∈ repeats greedy body fuel once.2, captures = more.1 ++ once.1 ∧ rest = more.2 := by
    simp only [List.mem_flatMap]
    refine exists_congr fun once => and_congr_right fun _ => ?_
    by_cases shorter : once.2.length < text.length
    · simp only [shorter, if_true, List.mem_map, Prod.mk.injEq, true_and]
      refine exists_congr fun more => and_congr_right fun _ => ?_
      exact and_congr eq_comm eq_comm
    · simp [shorter]
  cases greedy with
  | true =>
      simp only [repeats, if_true, List.mem_append, again, List.mem_singleton, Prod.mk.injEq]
      exact or_comm
  | false =>
      simp only [repeats, Bool.false_eq_true, if_false, List.mem_cons, again, Prod.mk.injEq]

theorem repeats_finds {greedy : Bool} {body : Regex α} (finds : Finds (run body) body)
    (fuel : Nat) {text rest : List α} {captures : Captures α} (enough : text.length ≤ fuel) :
    (captures, rest) ∈ repeats greedy (run body) fuel text ↔
      ∃ word, text = word ++ rest ∧ Matches (.star greedy body) word captures := by
  induction fuel generalizing text rest captures with
  | zero =>
      have none : text = [] := List.length_eq_zero_iff.mp (Nat.le_zero.mp enough)
      subst none
      simp only [repeats, List.mem_singleton, Prod.mk.injEq]
      constructor
      · rintro ⟨rfl, rfl⟩
        exact ⟨[], rfl, .stop⟩
      · rintro ⟨word, split, star⟩
        obtain ⟨rfl, rfl⟩ := List.append_eq_nil_iff.mp split.symm
        generalize eq : ([] : List α) = word at star
        cases star with
        | stop => exact ⟨rfl, rfl⟩
        | again nonempty _ _ => exact absurd (List.append_eq_nil_iff.mp eq.symm).1 nonempty
  | succ fuel inductionHypothesis =>
      rw [mem_repeats_succ]
      constructor
      · rintro (⟨rfl, rfl⟩ | ⟨once, found, shorter, more, foundMore, rfl, rfl⟩)
        · exact ⟨[], rfl, .stop⟩
        · obtain ⟨word, split, matched⟩ := (finds _ _ _).mp found
          obtain ⟨tail, splitTail, matchedTail⟩ :=
            (inductionHypothesis (by omega)).mp foundMore
          refine ⟨word ++ tail, by rw [split, splitTail, List.append_assoc], ?_⟩
          refine .again ?_ matched matchedTail
          rintro rfl
          rw [split, List.nil_append] at shorter
          exact Nat.lt_irrefl _ shorter
      · rintro ⟨word, split, star⟩
        cases star with
        | stop => exact .inl ⟨rfl, by simpa using split.symm⟩
        | @again _ _ word more once moreCaptures nonempty matched matchedTail =>
            right
            have length := congrArg List.length split
            have positive := List.length_pos_iff.mpr nonempty
            simp only [List.length_append] at length
            refine ⟨(once, more ++ rest), (finds _ _ _).mpr ⟨word, by
              rw [split, List.append_assoc], matched⟩, ?_, (moreCaptures, rest), ?_, rfl, rfl⟩
            · simp only [List.length_append]
              omega
            · refine (inductionHypothesis ?_).mpr ⟨more, rfl, matchedTail⟩
              simp only [List.length_append]
              omega

/-- The engine lists exactly the matches of prefixes of the text. -/
theorem mem_run_iff (regex : Regex α) : Finds (run regex) regex := by
  induction regex with
  | empty =>
      intro text captures rest
      simp only [run, List.mem_singleton, Prod.mk.injEq]
      constructor
      · rintro ⟨rfl, rfl⟩
        exact ⟨[], rfl, .empty⟩
      · rintro ⟨word, rfl, matched⟩
        cases matched
        exact ⟨rfl, rfl⟩
  | cls accepts =>
      intro text captures rest
      constructor
      · cases text with
        | nil => simp [run]
        | cons x text =>
            by_cases accepted : accepts x = true
            · simp only [run, accepted, if_true, List.mem_singleton, Prod.mk.injEq]
              rintro ⟨rfl, rfl⟩
              exact ⟨[x], rfl, .cls accepted⟩
            · simp [run, accepted]
      · rintro ⟨word, rfl, matched⟩
        cases matched with
        | cls accepted => simp [run, accepted]
  | seq first second findsFirst findsSecond =>
      intro text captures rest
      simp only [run, List.mem_flatMap, List.mem_map, Prod.mk.injEq]
      constructor
      · rintro ⟨once, found, more, foundMore, rfl, rfl⟩
        obtain ⟨word, split, matched⟩ := (findsFirst _ _ _).mp found
        obtain ⟨tail, splitTail, matchedTail⟩ := (findsSecond _ _ _).mp foundMore
        exact ⟨word ++ tail, by rw [split, splitTail, List.append_assoc],
          .seq matched matchedTail⟩
      · rintro ⟨word, rfl, matched⟩
        cases matched with
        | @seq _ _ word more once moreCaptures matched matchedTail =>
            refine ⟨(once, more ++ rest), (findsFirst _ _ _).mpr ⟨word, ?_, matched⟩,
              (moreCaptures, rest), (findsSecond _ _ _).mpr ⟨more, rfl, matchedTail⟩, rfl, rfl⟩
            rw [List.append_assoc]
  | alt left right findsLeft findsRight =>
      intro text captures rest
      simp only [run, List.mem_append, findsLeft text captures rest, findsRight text captures rest]
      constructor
      · rintro (⟨word, split, matched⟩ | ⟨word, split, matched⟩)
        · exact ⟨word, split, .left matched⟩
        · exact ⟨word, split, .right matched⟩
      · rintro ⟨word, split, matched⟩
        cases matched with
        | left matched => exact .inl ⟨word, split, matched⟩
        | right matched => exact .inr ⟨word, split, matched⟩
  | star greedy body finds =>
      intro text captures rest
      exact repeats_finds finds _ (Nat.le_refl _)
  | group name body finds =>
      intro text captures rest
      simp only [run, List.mem_map, Prod.mk.injEq]
      constructor
      · rintro ⟨once, found, rfl, rfl⟩
        obtain ⟨word, rfl, matched⟩ := (finds _ _ _).mp found
        exact ⟨word, rfl, by simpa using Matches.group matched⟩
      · rintro ⟨word, rfl, matched⟩
        cases matched with
        | @group _ _ _ captures matched =>
            exact ⟨(captures, rest), (finds _ _ _).mpr ⟨word, rfl, matched⟩, by simp, rfl⟩

/-! ### Entry points -/

/-- The match of a prefix of the text, with the rest of the text. -/
def matchPrefix? (regex : Regex α) (text : List α) : Option (Captures α × List α) :=
  (regex.run text).head?

/-- Replaces the matches from left to right; the search goes on behind each of them.
An empty match is not replaced. -/
def substitute (regex : Regex α) (replacement : Captures α → List α) : List α → List α
  | [] => []
  | x :: rest =>
      match regex.matchPrefix? (x :: rest) with
      | none => x :: substitute regex replacement rest
      | some found =>
          if found.2.length ≤ rest.length then
            replacement found.1 ++ substitute regex replacement found.2
          else x :: substitute regex replacement rest
termination_by text => text.length

/-- The match of the whole text. -/
def fullMatch? (regex : Regex α) (text : List α) : Option (Captures α) :=
  ((regex.run text).find? fun once => once.2.isEmpty).map Prod.fst

/-- The match under `^…$`: the dollar also matches before a final newline. -/
def lineMatch? [DecidableEq α] (newline : α) (regex : Regex α) (text : List α) :
    Option (Captures α) :=
  ((regex.run text).find? fun once => decide (once.2 = [] ∨ once.2 = [newline])).map Prod.fst

theorem matches_of_matchPrefix? {regex : Regex α} {text rest : List α} {captures : Captures α}
    (found : regex.matchPrefix? text = some (captures, rest)) :
    ∃ word, text = word ++ rest ∧ Matches regex word captures :=
  (mem_run_iff regex text captures rest).mp (List.mem_of_head? found)

theorem matchPrefix?_isSome_of_matches {regex : Regex α} {word rest : List α}
    {captures : Captures α} (matched : Matches regex word captures) :
    (regex.matchPrefix? (word ++ rest)).isSome = true := by
  have listed : (captures, rest) ∈ regex.run (word ++ rest) :=
    (mem_run_iff regex _ captures rest).mpr ⟨word, rfl, matched⟩
  rw [matchPrefix?, List.isSome_head?]
  exact List.ne_nil_of_mem listed

theorem substitute_none {regex : Regex α} {replacement : Captures α → List α} {x : α}
    {rest : List α} (absent : regex.matchPrefix? (x :: rest) = none) :
    regex.substitute replacement (x :: rest) = x :: regex.substitute replacement rest := by
  rw [substitute, absent]

theorem substitute_some {regex : Regex α} {replacement : Captures α → List α} {x : α}
    {rest behind : List α} {captures : Captures α}
    (found : regex.matchPrefix? (x :: rest) = some (captures, behind))
    (shorter : behind.length ≤ rest.length) :
    regex.substitute replacement (x :: rest) =
      replacement captures ++ regex.substitute replacement behind := by
  rw [substitute, found]
  exact if_pos shorter

theorem matches_of_fullMatch? {regex : Regex α} {text : List α} {captures : Captures α}
    (found : regex.fullMatch? text = some captures) : Matches regex text captures := by
  obtain ⟨once, chosen, rfl⟩ := Option.map_eq_some_iff.mp found
  have whole : once.2 = [] := by simpa using List.find?_some chosen
  obtain ⟨word, split, matched⟩ :=
    (mem_run_iff regex text once.1 once.2).mp (List.mem_of_find?_eq_some chosen)
  rw [split, whole, List.append_nil]
  exact matched

theorem fullMatch?_isSome_iff {regex : Regex α} {text : List α} :
    (regex.fullMatch? text).isSome = true ↔ ∃ captures, Matches regex text captures := by
  constructor
  · intro found
    obtain ⟨captures, result⟩ := Option.isSome_iff_exists.mp found
    exact ⟨captures, matches_of_fullMatch? result⟩
  · rintro ⟨captures, matched⟩
    have listed : (captures, []) ∈ regex.run text :=
      (mem_run_iff regex text captures []).mpr ⟨text, by simp, matched⟩
    simp only [fullMatch?, Option.isSome_map, List.find?_isSome]
    exact ⟨_, listed, rfl⟩

theorem matches_of_lineMatch? [DecidableEq α] {newline : α} {regex : Regex α} {text : List α}
    {captures : Captures α} (found : regex.lineMatch? newline text = some captures) :
    ∃ word, (text = word ∨ text = word ++ [newline]) ∧ Matches regex word captures := by
  obtain ⟨once, chosen, rfl⟩ := Option.map_eq_some_iff.mp found
  have atEnd : once.2 = [] ∨ once.2 = [newline] := by simpa using List.find?_some chosen
  obtain ⟨word, split, matched⟩ :=
    (mem_run_iff regex text once.1 once.2).mp (List.mem_of_find?_eq_some chosen)
  refine ⟨word, ?_, matched⟩
  rcases atEnd with whole | newlineLeft
  · exact .inl (by rw [split, whole, List.append_nil])
  · exact .inr (by rw [split, newlineLeft])

theorem lineMatch?_isSome_iff [DecidableEq α] {newline : α} {regex : Regex α} {text : List α} :
    (regex.lineMatch? newline text).isSome = true ↔
      ∃ word captures, (text = word ∨ text = word ++ [newline]) ∧ Matches regex word captures := by
  constructor
  · intro found
    obtain ⟨captures, result⟩ := Option.isSome_iff_exists.mp found
    obtain ⟨word, ending, matched⟩ := matches_of_lineMatch? result
    exact ⟨word, captures, ending, matched⟩
  · rintro ⟨word, captures, ending, matched⟩
    simp only [lineMatch?, Option.isSome_map, List.find?_isSome]
    rcases ending with rfl | rfl
    · exact ⟨(captures, []), (mem_run_iff regex _ captures []).mpr
        ⟨text, by simp, matched⟩, by simp⟩
    · exact ⟨(captures, [newline]), (mem_run_iff regex _ captures [newline]).mpr
        ⟨word, rfl, matched⟩, by simp⟩

/-! ### Inversion, one lemma for each form -/

@[simp]
theorem matches_empty {word : List α} {captures : Captures α} :
    Matches .empty word captures ↔ word = [] ∧ captures = [] := by
  constructor
  · intro matched
    cases matched
    exact ⟨rfl, rfl⟩
  · rintro ⟨rfl, rfl⟩
    exact .empty

@[simp]
theorem matches_cls {accepts : α → Bool} {word : List α} {captures : Captures α} :
    Matches (.cls accepts) word captures ↔ (∃ x, accepts x = true ∧ word = [x]) ∧ captures = [] := by
  constructor
  · intro matched
    cases matched with
    | cls accepted => exact ⟨⟨_, accepted, rfl⟩, rfl⟩
  · rintro ⟨⟨x, accepted, rfl⟩, rfl⟩
    exact .cls accepted

@[simp]
theorem matches_seq {first second : Regex α} {word : List α} {captures : Captures α} :
    Matches (.seq first second) word captures ↔
      ∃ front once back more, Matches first front once ∧ Matches second back more ∧
        word = front ++ back ∧ captures = more ++ once := by
  constructor
  · intro matched
    cases matched with
    | seq matched matchedTail => exact ⟨_, _, _, _, matched, matchedTail, rfl, rfl⟩
  · rintro ⟨front, once, back, more, matched, matchedTail, rfl, rfl⟩
    exact .seq matched matchedTail

@[simp]
theorem matches_alt {left right : Regex α} {word : List α} {captures : Captures α} :
    Matches (.alt left right) word captures ↔
      Matches left word captures ∨ Matches right word captures := by
  constructor
  · intro matched
    cases matched with
    | left matched => exact .inl matched
    | right matched => exact .inr matched
  · exact fun matched => matched.elim .left .right

@[simp]
theorem matches_group {name : String} {body : Regex α} {word : List α} {captures : Captures α} :
    Matches (.group name body) word captures ↔
      ∃ inner, Matches body word inner ∧ captures = (name, word) :: inner := by
  constructor
  · intro matched
    cases matched with
    | group matched => exact ⟨_, matched, rfl⟩
  · rintro ⟨inner, matched, rfl⟩
    exact .group matched

theorem matches_opt {body : Regex α} {word : List α} {captures : Captures α} :
    Matches (opt body) word captures ↔
      Matches body word captures ∨ word = [] ∧ captures = [] := by
  simp [opt]

theorem exists_matches_star {greedy : Bool} {body : Regex α} {word : List α} :
    (∃ captures, Matches (.star greedy body) word captures) ↔
      ∃ parts : List (List α), word = parts.flatten ∧
        ∀ part ∈ parts, part ≠ [] ∧ ∃ captures, Matches body part captures := by
  constructor
  · rintro ⟨captures, matched⟩
    generalize form : Regex.star greedy body = regex at matched
    induction matched with
    | stop => exact ⟨[], rfl, by simp⟩
    | @again _ _ front back once more nonempty matched _ _ inductionHypothesis =>
        cases form
        obtain ⟨parts, rfl, each⟩ := inductionHypothesis rfl
        refine ⟨front :: parts, rfl, ?_⟩
        simpa [nonempty] using ⟨⟨once, matched⟩, each⟩
    | _ => cases form
  · rintro ⟨parts, rfl, each⟩
    induction parts with
    | nil => exact ⟨[], .stop⟩
    | cons part parts inductionHypothesis =>
        obtain ⟨nonempty, once, matched⟩ := each part (by simp)
        obtain ⟨more, rest⟩ := inductionHypothesis fun other mem => each other (by simp [mem])
        exact ⟨more ++ once, .again nonempty matched rest⟩

@[simp]
theorem matches_star_cls {greedy : Bool} {accepts : α → Bool} {word : List α}
    {captures : Captures α} :
    Matches (.star greedy (.cls accepts)) word captures ↔
      (∀ x ∈ word, accepts x = true) ∧ captures = [] := by
  constructor
  · intro matched
    generalize form : Regex.star greedy (.cls accepts) = regex at matched
    induction matched with
    | stop => simp
    | @again _ _ front back once more _ matched _ _ inductionHypothesis =>
        cases form
        obtain ⟨⟨x, accepted, rfl⟩, rfl⟩ := matches_cls.mp matched
        obtain ⟨rest, rfl⟩ := inductionHypothesis rfl
        refine ⟨?_, rfl⟩
        simpa [accepted] using rest
    | _ => cases form
  · rintro ⟨accepted, rfl⟩
    induction word with
    | nil => exact .stop
    | cons x word inductionHypothesis =>
        have first : Matches (.cls accepts) [x] [] := .cls (accepted x (by simp))
        exact .again (by simp) first (inductionHypothesis fun y mem => accepted y (by simp [mem]))

@[simp]
theorem matches_plus_cls {greedy : Bool} {accepts : α → Bool} {word : List α}
    {captures : Captures α} :
    Matches (plus greedy (.cls accepts)) word captures ↔
      word ≠ [] ∧ (∀ x ∈ word, accepts x = true) ∧ captures = [] := by
  simp only [plus, matches_seq, matches_cls, matches_star_cls]
  constructor
  · rintro ⟨_, _, rest, _, ⟨⟨x, accepted, rfl⟩, rfl⟩, ⟨all, rfl⟩, rfl, rfl⟩
    refine ⟨by simp, ?_, rfl⟩
    simpa [accepted] using all
  · rintro ⟨nonempty, all, rfl⟩
    cases word with
    | nil => exact absurd rfl nonempty
    | cons x rest =>
        exact ⟨[x], [], rest, [], ⟨⟨x, all x (by simp), rfl⟩, rfl⟩,
          ⟨fun y mem => all y (by simp [mem]), rfl⟩, rfl, rfl⟩

/-- The words of an expression are words over a class that its own classes stay in. -/
def Over (test : α → Prop) : Regex α → Prop
  | .empty => True
  | .cls accepts => ∀ x, accepts x = true → test x
  | .seq first second => Over test first ∧ Over test second
  | .alt left right => Over test left ∧ Over test right
  | .star _ body => Over test body
  | .group _ body => Over test body

theorem Matches.forall_of_over {test : α → Prop} {regex : Regex α} {word : List α}
    {captures : Captures α} (matched : Matches regex word captures) (within : Over test regex) :
    ∀ x ∈ word, test x := by
  induction matched with
  | empty | stop => simp
  | cls accepted => simpa using within _ accepted
  | seq _ _ first second =>
      intro x mem
      exact (List.mem_append.mp mem).elim (first within.1 x) (second within.2 x)
  | left _ inductionHypothesis => exact inductionHypothesis within.1
  | right _ inductionHypothesis => exact inductionHypothesis within.2
  | again _ _ _ first second =>
      intro x mem
      exact (List.mem_append.mp mem).elim (first within x) (second within x)
  | group _ inductionHypothesis => exact inductionHypothesis within

def literal [DecidableEq α] (word : List α) : Regex α :=
  word.foldr (fun x more => .seq (.cls (· = x)) more) .empty

@[simp]
theorem matches_literal [DecidableEq α] {text word : List α} {captures : Captures α} :
    Matches (literal text) word captures ↔ word = text ∧ captures = [] := by
  induction text generalizing word captures with
  | nil => exact matches_empty
  | cons x text inductionHypothesis =>
      rw [show literal (x :: text) = .seq (.cls (· = x)) (literal text) from rfl, matches_seq]
      constructor
      · rintro ⟨front, once, back, more, first, rest, rfl, rfl⟩
        obtain ⟨⟨y, same, rfl⟩, rfl⟩ := matches_cls.mp first
        obtain ⟨rfl, rfl⟩ := inductionHypothesis.mp rest
        obtain rfl : y = x := of_decide_eq_true same
        exact ⟨rfl, rfl⟩
      · rintro ⟨rfl, rfl⟩
        exact ⟨[x], [], text, [], .cls (decide_eq_true rfl), inductionHypothesis.mpr ⟨rfl, rfl⟩,
          rfl, rfl⟩

theorem over_literal [DecidableEq α] {test : α → Prop} {text : List α}
    (each : ∀ x ∈ text, test x) : Over test (literal text) := by
  induction text with
  | nil => exact trivial
  | cons x text inductionHypothesis =>
      obtain ⟨first, rest⟩ := List.forall_mem_cons.mp each
      refine ⟨fun y same => ?_, inductionHypothesis rest⟩
      rwa [of_decide_eq_true same]

/-! ### Captures -/

def isPlain : Regex α → Bool
  | .empty => true
  | .cls _ => true
  | .seq first second => first.isPlain && second.isPlain
  | .alt left right => left.isPlain && right.isPlain
  | .star _ body => body.isPlain
  | .group _ _ => false

theorem Matches.captures_eq_nil {regex : Regex α} {word : List α} {captures : Captures α}
    (matched : Matches regex word captures) (plain : regex.isPlain = true) : captures = [] := by
  induction matched with
  | empty | cls | stop => rfl
  | seq _ _ first second =>
      rw [isPlain, Bool.and_eq_true] at plain
      rw [first plain.1, second plain.2, List.append_nil]
  | left _ inductionHypothesis =>
      rw [isPlain, Bool.and_eq_true] at plain
      exact inductionHypothesis plain.1
  | right _ inductionHypothesis =>
      rw [isPlain, Bool.and_eq_true] at plain
      exact inductionHypothesis plain.2
  | again _ _ _ first second => rw [first plain, second plain, List.append_nil]
  | group => cases plain

/-- A group captures a part of the word. -/
theorem Matches.subset_of_captured {regex : Regex α} {word : List α} {captures : Captures α}
    (matched : Matches regex word captures) {name : String} {part : List α}
    (captured : (name, part) ∈ captures) : part ⊆ word := by
  induction matched with
  | empty | cls | stop => simp at captured
  | seq _ _ first second | again _ _ _ first second =>
      rcases List.mem_append.mp captured with later | earlier
      · exact List.subset_append_of_subset_right _ (second later)
      · exact List.subset_append_of_subset_left _ (first earlier)
  | left _ inductionHypothesis | right _ inductionHypothesis =>
      exact inductionHypothesis captured
  | group _ inductionHypothesis =>
      rcases List.mem_cons.mp captured with outer | inner
      · obtain ⟨-, rfl⟩ := Prod.mk.inj outer
        exact List.Subset.refl _
      · exact inductionHypothesis inner

theorem subset_of_lineMatch? [DecidableEq α] {newline : α} {regex : Regex α} {text : List α}
    {captures : Captures α} (found : regex.lineMatch? newline text = some captures)
    (name : String) : (captures.lookup name).getD [] ⊆ text := by
  obtain ⟨word, ending, matched⟩ := matches_of_lineMatch? found
  have inWord : (captures.lookup name).getD [] ⊆ word := by
    cases captured : captures.lookup name with
    | none => exact List.nil_subset _
    | some part =>
        obtain ⟨before, after, rfl, -⟩ := List.lookup_eq_some_iff.mp captured
        have listed : (name, part) ∈ before ++ (name, part) :: after := by simp
        exact matched.subset_of_captured listed
  rcases ending with rfl | rfl
  · exact inWord
  · exact List.subset_append_of_subset_left _ inWord

end Regex
