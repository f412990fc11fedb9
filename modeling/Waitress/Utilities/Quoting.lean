import Waitress.Utilities

/-!
# Quoted strings

`Quotes value body` says that the characters of `body`, read between double
quotes, stand for `value`.  `undquote` returns what a quoted string stands for
and accepts nothing else that starts or ends with a double quote.
-/

namespace Waitress

namespace Str

/-- HTAB, SP, VCHAR and obs-text. -/
def IsText (c : Char) : Prop := quotable c.toNat = true

instance : DecidablePred IsText := fun c => inferInstanceAs (Decidable (quotable c.toNat = true))

/-- A double quote and a backslash have to be escaped, other characters may be. -/
inductive Quotes : Str → Str → Prop where
  | nil : Quotes [] []
  | plain {c : Char} {value body : Str} :
      c ≠ '"' → c ≠ '\\' → Quotes value body → Quotes (c :: value) (c :: body)
  | escaped {c : Char} {value body : Str} :
      Quotes value body → Quotes (c :: value) ('\\' :: c :: body)

/-- The text is a quoted string that stands for the value. -/
def Quoting (value text : Str) : Prop := ∃ body, Quotes value body ∧ text = '"' :: (body ++ ['"'])

end Str

open Str

/-- What stands behind the closing quote is not part of the quoted string. -/
theorem Str.Quotes.closing {value other body otherBody rest more : Str}
    (quotes : Quotes value body) (otherQuotes : Quotes other otherBody)
    (same : body ++ '"' :: rest = otherBody ++ '"' :: more) : value = other ∧ rest = more := by
  induction quotes generalizing other otherBody with
  | nil =>
      cases otherQuotes with
      | nil => exact ⟨rfl, (List.cons.inj same).2⟩
      | plain notQuote _ _ => exact absurd (List.cons.inj same).1.symm notQuote
      | escaped _ => exact absurd (List.cons.inj same).1 (by decide)
  | plain notQuote notBackslash _ inductionHypothesis =>
      cases otherQuotes with
      | nil => exact absurd (List.cons.inj same).1 notQuote
      | plain _ _ tail =>
          obtain ⟨head, rest⟩ := List.cons.inj same
          obtain ⟨values, rests⟩ := inductionHypothesis tail rest
          exact ⟨by rw [head, values], rests⟩
      | escaped _ => exact absurd (List.cons.inj same).1 notBackslash
  | escaped _ inductionHypothesis =>
      cases otherQuotes with
      | nil => exact absurd (List.cons.inj same).1 (by decide)
      | plain _ notBackslash _ => exact absurd (List.cons.inj same).1.symm notBackslash
      | escaped tail =>
          obtain ⟨head, rest⟩ := List.cons.inj (List.cons.inj same).2
          obtain ⟨values, rests⟩ := inductionHypothesis tail rest
          exact ⟨by rw [head, values], rests⟩

/-! ### The two expressions -/

section Expressions

variable {c : Char} {rest value body text : Str}

theorem matchPrefix?_quotedPair (isText : IsText c) :
    quotedPairRe.matchPrefix? ('\\' :: c :: rest) = some ([("1", [c])], rest) := by
  have accepted : quotable c.toNat = true := isText
  simp [quotedPairRe, quotedPair, Regex.matchPrefix?, Regex.run, lit, classOf, accepted]

theorem matchPrefix?_quotedPair_none (notBackslash : c ≠ '\\') :
    quotedPairRe.matchPrefix? (c :: rest) = none := by
  have rejected : c.toNat ≠ 92 := fun code => notBackslash (Char.toNat_inj.mp code)
  simp [quotedPairRe, quotedPair, Regex.matchPrefix?, Regex.run, lit, classOf, rejected]

/-- The substitution reads a quoted body. -/
theorem substitute_quotedPair (quotes : Quotes value body) (isText : ∀ c ∈ value, IsText c) :
    quotedPairRe.substitute (fun captures => (captures.lookup "1").getD []) body = value := by
  induction quotes with
  | nil => rw [Regex.substitute]
  | @plain c value body _ notBackslash _ inductionHypothesis =>
      have tail := inductionHypothesis fun x mem => isText x (List.mem_cons_of_mem c mem)
      rw [Regex.substitute_none (matchPrefix?_quotedPair_none notBackslash), tail]
  | @escaped c value body _ inductionHypothesis =>
      have first : IsText c := isText c List.mem_cons_self
      have tail := inductionHypothesis fun x mem => isText x (List.mem_cons_of_mem c mem)
      rw [Regex.substitute_some (matchPrefix?_quotedPair first) (by simp), tail]
      rfl

theorem qdtext_iff : qdtext c.toNat = true ↔ IsText c ∧ c ≠ '"' ∧ c ≠ '\\' := by
  have quote : c = '"' ↔ c.toNat = 34 := by rw [← Char.toNat_inj]; rfl
  have backslash : c = '\\' ↔ c.toNat = 92 := by rw [← Char.toNat_inj]; rfl
  rw [ne_eq, ne_eq, quote, backslash]
  simp only [IsText, qdtext, quotable, obsText, vchar, Bool.or_eq_true, Bool.and_eq_true,
    decide_eq_true_eq]
  omega

theorem matches_quotedItem {part : Str} :
    (∃ captures, Regex.Matches
      (.alt (classOf Char.toNat qdtext) (quotedPair Char.toNat)) part captures) ↔
      ∃ c, IsText c ∧ (part = [c] ∧ c ≠ '"' ∧ c ≠ '\\' ∨ part = ['\\', c]) := by
  have code : ∀ x : Char, x.toNat = 92 ↔ x = '\\' := fun x => by rw [← Char.toNat_inj]; rfl
  simp only [Regex.matches_alt, classOf, quotedPair, lit, Regex.matches_seq, Regex.matches_cls,
    Regex.matches_group, decide_eq_true_eq, code, qdtext_iff]
  constructor
  · rintro ⟨captures, ⟨⟨c, ⟨isText, ordinary⟩, rfl⟩, -⟩ |
      ⟨front, _, back, _, ⟨⟨x, rfl, rfl⟩, -⟩, ⟨_, ⟨⟨c, isText, rfl⟩, -⟩, -⟩, rfl, -⟩⟩
    · exact ⟨c, isText, .inl ⟨rfl, ordinary⟩⟩
    · exact ⟨c, isText, .inr rfl⟩
  · rintro ⟨c, isText, ⟨rfl, ordinary⟩ | rfl⟩
    · exact ⟨[], .inl ⟨⟨c, ⟨isText, ordinary⟩, rfl⟩, rfl⟩⟩
    · exact ⟨_, .inr ⟨['\\'], [], [c], _, ⟨⟨'\\', rfl, rfl⟩, rfl⟩,
        ⟨[], ⟨⟨c, isText, rfl⟩, rfl⟩, rfl⟩, rfl, rfl⟩⟩

theorem matches_quotedBody :
    (∃ captures, Regex.Matches (.star true
      (.alt (classOf Char.toNat qdtext) (quotedPair Char.toNat))) body captures) ↔
      ∃ value, Quotes value body ∧ ∀ c ∈ value, IsText c := by
  rw [Regex.exists_matches_star]
  constructor
  · rintro ⟨parts, rfl, each⟩
    induction parts with
    | nil => exact ⟨[], .nil, by simp⟩
    | cons part parts inductionHypothesis =>
        obtain ⟨value, quotes, isText⟩ :=
          inductionHypothesis fun other mem => each other (List.mem_cons_of_mem part mem)
        obtain ⟨c, first, forms⟩ := matches_quotedItem.mp (each part List.mem_cons_self).2
        refine ⟨c :: value, ?_, List.forall_mem_cons.mpr ⟨first, isText⟩⟩
        rcases forms with ⟨rfl, notQuote, notBackslash⟩ | rfl
        · exact .plain notQuote notBackslash quotes
        · exact .escaped quotes
  · rintro ⟨value, quotes, isText⟩
    induction quotes with
    | nil => exact ⟨[], rfl, by simp⟩
    | @plain c value body notQuote notBackslash _ inductionHypothesis =>
        obtain ⟨first, tail⟩ := List.forall_mem_cons.mp isText
        obtain ⟨parts, rfl, each⟩ := inductionHypothesis tail
        have item := matches_quotedItem.mpr
          ⟨c, first, .inl ⟨rfl, notQuote, notBackslash⟩⟩
        exact ⟨[c] :: parts, rfl, List.forall_mem_cons.mpr ⟨⟨by simp, item⟩, each⟩⟩
    | @escaped c value body _ inductionHypothesis =>
        obtain ⟨first, tail⟩ := List.forall_mem_cons.mp isText
        obtain ⟨parts, rfl, each⟩ := inductionHypothesis tail
        have item := matches_quotedItem.mpr ⟨c, first, .inr rfl⟩
        exact ⟨['\\', c] :: parts, rfl, List.forall_mem_cons.mpr ⟨⟨by simp, item⟩, each⟩⟩

theorem matches_quotedString :
    (∃ captures, Regex.Matches quotedStringRe text captures) ↔
      ∃ value, Quoting value text ∧ ∀ c ∈ value, IsText c := by
  have code : ∀ x : Char, x.toNat = 34 ↔ x = '"' := fun x => by rw [← Char.toNat_inj]; rfl
  constructor
  · rintro ⟨captures, matched⟩
    simp only [quotedStringRe, quotedString, lit, Regex.matches_seq, Regex.matches_cls,
      decide_eq_true_eq, code] at matched
    obtain ⟨_, _, _, _, ⟨⟨_, rfl, rfl⟩, -⟩, ⟨body, once, _, _, inner, ⟨⟨_, rfl, rfl⟩, -⟩, rfl, -⟩,
      rfl, -⟩ := matched
    obtain ⟨value, quotes, isText⟩ := matches_quotedBody.mp ⟨once, inner⟩
    exact ⟨value, ⟨body, quotes, rfl⟩, isText⟩
  · rintro ⟨value, ⟨body, quotes, rfl⟩, isText⟩
    obtain ⟨captures, inner⟩ := matches_quotedBody.mpr ⟨value, quotes, isText⟩
    have quote : Regex.Matches (lit Char.toNat 34) ['"'] [] := .cls (by decide)
    exact ⟨_, .seq quote (.seq inner quote)⟩

/-- The match reaches the end of the value exactly if the value is a quoted string. -/
theorem matchPrefix?_quotedString :
    (∃ captures, quotedStringRe.matchPrefix? text = some (captures, [])) ↔
      ∃ value, Quoting value text ∧ ∀ c ∈ value, IsText c := by
  rw [← matches_quotedString]
  constructor
  · rintro ⟨captures, found⟩
    obtain ⟨word, split, matched⟩ := Regex.matches_of_matchPrefix? found
    rw [List.append_nil] at split
    exact ⟨captures, split ▸ matched⟩
  · rintro ⟨captures, matched⟩
    have some : (quotedStringRe.matchPrefix? (text ++ [])).isSome = true :=
      Regex.matchPrefix?_isSome_of_matches matched
    rw [List.append_nil] at some
    obtain ⟨⟨once, rest⟩, found⟩ := Option.isSome_iff_exists.mp some
    obtain ⟨word, split, shorter⟩ := Regex.matches_of_matchPrefix? found
    -- both the text and the part that was matched are quoted strings
    obtain ⟨value, ⟨body, quotes, whole⟩, -⟩ := matches_quotedString.mp ⟨captures, matched⟩
    obtain ⟨other, ⟨part, otherQuotes, front⟩, -⟩ := matches_quotedString.mp ⟨once, shorter⟩
    have same : body ++ '"' :: [] = part ++ '"' :: rest := by
      rw [whole, front] at split
      simpa using split
    obtain ⟨-, rfl⟩ := quotes.closing otherQuotes same
    exact ⟨once, found⟩

end Expressions

/-! ### `undquote` -/

theorem undquote_quoting {value text : Str} (quoting : Quoting value text)
    (isText : ∀ c ∈ value, IsText c) : undquote text = .ok value := by
  obtain ⟨captures, found⟩ := matchPrefix?_quotedString.mpr ⟨value, quoting, isText⟩
  obtain ⟨body, quotes, rfl⟩ := quoting
  have inside : (('"' :: (body ++ ['"'])).tail).dropLast = body := by simp
  have closed : (('"' :: (body ++ ['"'])).getLast?) = some '"' := by
    rw [← List.cons_append, List.getLast?_append]
    rfl
  rw [undquote, if_pos ⟨rfl, closed⟩, found]
  dsimp only
  rw [inside, substitute_quotedPair quotes isText]

theorem undquote_unquoted {text : Str} (opened : text.head? ≠ some '"')
    (closed : text.getLast? ≠ some '"') : undquote text = .ok text := by
  rw [undquote, if_neg fun quoted => opened quoted.1, if_pos ⟨opened, closed⟩]

/-- A value is returned for a text without quotes at its ends, which is returned as it is,
and for a quoted string of text characters, of which the contents are returned. -/
theorem undquote_eq_ok_iff (text value : Str) :
    undquote text = .ok value ↔
      (text.head? ≠ some '"' ∧ text.getLast? ≠ some '"' ∧ value = text) ∨
      (Quoting value text ∧ ∀ c ∈ value, IsText c) := by
  constructor
  · intro returned
    by_cases quoted : text.head? = some '"' ∧ text.getLast? = some '"'
    · have matched : ∃ captures, quotedStringRe.matchPrefix? text = some (captures, []) := by
        rw [undquote, if_pos quoted] at returned
        split at returned
        · exact ⟨_, by assumption⟩
        · cases returned
      obtain ⟨other, quoting, isText⟩ := matchPrefix?_quotedString.mp matched
      rw [undquote_quoting quoting isText] at returned
      cases returned
      exact .inr ⟨quoting, isText⟩
    · rw [undquote, if_neg quoted] at returned
      split at returned
      · next outside =>
          cases returned
          exact .inl ⟨outside.1, outside.2, rfl⟩
      · cases returned
  · rintro (⟨opened, closed, rfl⟩ | ⟨quoting, isText⟩)
    · exact undquote_unquoted opened closed
    · exact undquote_quoting quoting isText

/-- `undquote` inverts quoting and accepts nothing else. -/
theorem undquote_inverts_quoting :
    (∀ value text, (∀ c ∈ value, IsText c) → Quoting value text → undquote text = .ok value) ∧
    (∀ text, (∃ value, undquote text = .ok value) ↔
      (text.head? ≠ some '"' ∧ text.getLast? ≠ some '"') ∨
      ∃ value, Quoting value text ∧ ∀ c ∈ value, IsText c) ∧
    ∀ text, text.head? ≠ some '"' → text.getLast? ≠ some '"' → undquote text = .ok text := by
  refine ⟨fun value text isText quoting => undquote_quoting quoting isText, fun text => ?_,
    fun text => undquote_unquoted⟩
  constructor
  · rintro ⟨value, returned⟩
    rcases (undquote_eq_ok_iff text value).mp returned with ⟨opened, closed, -⟩ | quoted
    · exact .inl ⟨opened, closed⟩
    · exact .inr ⟨value, quoted⟩
  · rintro (⟨opened, closed⟩ | ⟨value, quoting, isText⟩)
    · exact ⟨text, undquote_unquoted opened closed⟩
    · exact ⟨value, undquote_quoting quoting isText⟩

end Waitress
