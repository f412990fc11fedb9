import Waitress.Library.Regex

/-!
# The preferred match

Which of the matches of a prefix a backtracking engine returns, expression by
expression.
-/

universe u

namespace Regex

variable {α : Type u} {first second body : Regex α} {captures : Captures α}
variable {text word more rest : List α}

/-- The engine takes `word` from the front of the text and leaves `rest`. -/
def Leads (regex : Regex α) (word rest : List α) (captures : Captures α) : Prop :=
  regex.matchPrefix? (word ++ rest) = some (captures, rest)

theorem leads_iff {regex : Regex α} :
    Leads regex word rest captures ↔
      ∃ others, run regex (word ++ rest) = (captures, rest) :: others := by
  rw [Leads, matchPrefix?, List.head?_eq_some_iff]

theorem leads_empty : Leads .empty [] rest [] := rfl

theorem leads_cls {accepts : α → Bool} {x : α} (accepted : accepts x = true) :
    Leads (.cls accepts) [x] rest [] := by
  rw [leads_iff]
  exact ⟨[], if_pos accepted⟩

namespace Leads

/-- The first match of a sequence consists of the first matches of its parts. -/
theorem seq {moreCaptures : Captures α} (front : Leads first word (more ++ rest) captures)
    (back : Leads second more rest moreCaptures) :
    Leads (.seq first second) (word ++ more) rest (moreCaptures ++ captures) := by
  obtain ⟨others, frontRun⟩ := leads_iff.mp front
  obtain ⟨others', backRun⟩ := leads_iff.mp back
  rw [Leads, matchPrefix?, run, List.append_assoc, frontRun, List.flatMap_cons, backRun,
    List.map_cons, List.cons_append, List.head?_cons]

theorem left (leads : Leads first word rest captures) :
    Leads (.alt first second) word rest captures := by
  obtain ⟨others, firstRun⟩ := leads_iff.mp leads
  rw [Leads, matchPrefix?, run, firstRun, List.cons_append, List.head?_cons]

theorem right (missed : first.matchPrefix? (word ++ rest) = none)
    (leads : Leads second word rest captures) : Leads (.alt first second) word rest captures := by
  have firstRun : run first (word ++ rest) = [] := List.head?_eq_none_iff.mp missed
  rwa [Leads, matchPrefix?, run, firstRun, List.nil_append]

theorem group {name : String} (leads : Leads body word rest captures) :
    Leads (.group name body) word rest ((name, word) :: captures) := by
  obtain ⟨others, bodyRun⟩ := leads_iff.mp leads
  have taken : (word ++ rest).take ((word ++ rest).length - rest.length) = word := by
    rw [List.length_append, Nat.add_sub_cancel, List.take_left]
  rw [Leads, matchPrefix?, run, bodyRun, List.map_cons, List.head?_cons, taken]

end Leads

theorem leads_literal [DecidableEq α] (word : List α) : Leads (literal word) word rest [] := by
  induction word with
  | nil => exact leads_empty
  | cons x word inductionHypothesis =>
      have first : Leads (.cls (· = x)) [x] (word ++ rest) [] := leads_cls (decide_eq_true rfl)
      exact first.seq inductionHypothesis

/-! ### Greedy repetition -/

section Repetition

variable {accepts : α → Bool}

/-- A repeated class takes symbols as long as they are accepted. -/
theorem repeats_head? (accepted : ∀ x ∈ word, accepts x = true)
    (stops : ∀ x ∈ rest.head?, accepts x = false) {fuel : Nat} (enough : word.length ≤ fuel) :
    (repeats true (run (.cls accepts)) fuel (word ++ rest)).head? = some ([], rest) := by
  induction word generalizing fuel with
  | nil =>
      cases fuel with
      | zero => rfl
      | succ fuel =>
          have none : run (.cls accepts) rest = [] := by
            cases rest with
            | nil => rfl
            | cons x rest => exact if_neg (by simp [stops x rfl])
          rw [List.nil_append, repeats, none]
          rfl
  | cons x word inductionHypothesis =>
      obtain ⟨first, others⟩ := List.forall_mem_cons.mp accepted
      cases fuel with
      | zero => exact absurd enough (by simp)
      | succ fuel =>
          have once : run (.cls accepts) (x :: word ++ rest) = [([], word ++ rest)] := if_pos first
          have again := inductionHypothesis others (Nat.le_of_succ_le_succ enough)
          obtain ⟨tail, listed⟩ := List.head?_eq_some_iff.mp again
          have shorter : (word ++ rest).length < (x :: word ++ rest).length := by simp
          rw [repeats, once, List.flatMap_singleton, if_pos rfl, if_pos shorter, listed]
          rfl

theorem leads_star_cls (accepted : ∀ x ∈ word, accepts x = true)
    (stops : ∀ x ∈ rest.head?, accepts x = false) :
    Leads (.star true (.cls accepts)) word rest [] :=
  repeats_head? accepted stops (by simp)

theorem leads_plus_cls (nonempty : word ≠ []) (accepted : ∀ x ∈ word, accepts x = true)
    (stops : ∀ x ∈ rest.head?, accepts x = false) :
    Leads (plus true (.cls accepts)) word rest [] := by
  cases word with
  | nil => exact absurd rfl nonempty
  | cons x word =>
      obtain ⟨first, others⟩ := List.forall_mem_cons.mp accepted
      exact (leads_cls first).seq (leads_star_cls others stops)

end Repetition

/-! ### Alternatives -/

section Alternatives

variable [DecidableEq α]

def oneOf : List (List α) → Regex α
  | [] => .cls fun _ => false
  | word :: words => .alt (literal word) (oneOf words)

theorem matches_oneOf {words : List (List α)} :
    Matches (oneOf words) word captures ↔ word ∈ words ∧ captures = [] := by
  induction words with
  | nil => simp [oneOf]
  | cons first words inductionHypothesis =>
      rw [oneOf, matches_alt, matches_literal, inductionHypothesis, List.mem_cons, or_and_right]

/-- Among words of one length the engine finds the one that is there. -/
theorem leads_oneOf {words : List (List α)} (listed : word ∈ words)
    (sameLength : ∀ other ∈ words, other.length = word.length) :
    Leads (oneOf words) word rest [] := by
  induction words with
  | nil => cases listed
  | cons first words inductionHypothesis =>
      obtain ⟨length, lengths⟩ := List.forall_mem_cons.mp sameLength
      by_cases same : word = first
      · subst same
        have preferred : Leads (literal word) word rest [] := leads_literal word
        exact preferred.left
      · have missed : (literal first).matchPrefix? (word ++ rest) = none := by
          refine Option.eq_none_iff_forall_ne_some.mpr fun found result => same ?_
          obtain ⟨front, split, matched⟩ := matches_of_matchPrefix? result
          obtain ⟨rfl, -⟩ := matches_literal.mp matched
          exact (List.append_inj split length.symm).1
        have behind : word ∈ words := (List.mem_cons.mp listed).resolve_left same
        have found : Leads (oneOf words) word rest [] := inductionHypothesis behind lengths
        exact found.right missed

end Alternatives

end Regex
