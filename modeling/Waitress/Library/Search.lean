import Mathlib.Data.List.Basic
import Mathlib.Data.List.Infix

/-!
# Substring search on lists

`find pattern text` is the position of the first occurrence of `pattern`.
The lemmas describe what happens to it when the text grows to the right:
an occurrence stays the first one, and a new occurrence has to end in the
new part.
-/

namespace Search

universe u

variable {α : Type u} [DecidableEq α]

def find (pattern : List α) : List α → Option Nat
  | [] => if pattern = [] then some 0 else none
  | x :: rest =>
      if pattern.isPrefixOf (x :: rest) then some 0
      else (find pattern rest).map (· + 1)

theorem find_eq_some_iff {pattern text : List α} {position : Nat} :
    find pattern text = some position ↔
      pattern <+: text.drop position ∧ position ≤ text.length ∧
        ∀ earlier < position, ¬ pattern <+: text.drop earlier := by
  induction text generalizing position with
  | nil =>
      by_cases empty : pattern = []
      · simp +contextual [find, empty, eq_comm]
      · simp [find, empty]
  | cons x rest inductionHypothesis =>
      by_cases here : pattern <+: x :: rest
      · simp only [find, List.isPrefixOf_iff_prefix, here, if_true, Option.some.injEq]
        constructor
        · rintro rfl
          simpa using here
        · rintro ⟨-, -, first⟩
          by_contra later
          exact first 0 (by omega) here
      · simp only [find, List.isPrefixOf_iff_prefix, here, if_false,
          Option.map_eq_some_iff, inductionHypothesis]
        constructor
        · rintro ⟨before, ⟨occurs, bound, first⟩, rfl⟩
          refine ⟨by simpa using occurs, by simpa using bound, ?_⟩
          intro earlier less
          cases earlier with
          | zero => simpa using here
          | succ earlier => simpa using first earlier (by omega)
        · rintro ⟨occurs, bound, first⟩
          cases position with
          | zero => exact absurd (by simpa using occurs) here
          | succ before =>
              refine ⟨before, ⟨by simpa using occurs, by simpa using bound, ?_⟩, rfl⟩
              intro earlier less
              simpa using first (earlier + 1) (by omega)

theorem find_eq_none_iff {pattern text : List α} :
    find pattern text = none ↔ ∀ position ≤ text.length, ¬ pattern <+: text.drop position := by
  induction text with
  | nil =>
      by_cases empty : pattern = [] <;> simp [find, empty]
  | cons x rest inductionHypothesis =>
      by_cases here : pattern <+: x :: rest
      · simp only [find, List.isPrefixOf_iff_prefix, here, if_true, reduceCtorEq, false_iff]
        exact fun absent => absent 0 (Nat.zero_le _) (by simpa using here)
      · simp only [find, List.isPrefixOf_iff_prefix, here, if_false,
          Option.map_eq_none_iff, inductionHypothesis]
        constructor
        · intro absent position bound
          cases position with
          | zero => simpa using here
          | succ position => simpa using absent position (by simpa using bound)
        · intro absent position bound
          simpa using absent (position + 1) (by simpa using bound)

theorem prefix_drop_of_find {pattern text : List α} {position : Nat}
    (found : find pattern text = some position) : pattern <+: text.drop position :=
  (find_eq_some_iff.mp found).1

theorem find_add_length_le {pattern text : List α} {position : Nat}
    (found : find pattern text = some position) :
    position + pattern.length ≤ text.length := by
  have bound := (find_eq_some_iff.mp found).2.1
  have fits := (prefix_drop_of_find found).length_le
  rw [List.length_drop] at fits
  omega

theorem find_split {pattern text : List α} {position : Nat}
    (found : find pattern text = some position) :
    text = text.take position ++ pattern ++ text.drop (position + pattern.length) := by
  obtain ⟨tail, rest⟩ := prefix_drop_of_find found
  have after : text.drop (position + pattern.length) = tail := by
    rw [← List.drop_drop, ← rest, List.drop_left]
  rw [after, List.append_assoc, rest, List.take_append_drop]

/-- Text added on the right leaves the first occurrence where it was. -/
theorem find_append {pattern text : List α} {position : Nat}
    (found : find pattern text = some position) (more : List α) :
    find pattern (text ++ more) = some position := by
  have fits := find_add_length_le found
  obtain ⟨occurs, bound, first⟩ := find_eq_some_iff.mp found
  refine find_eq_some_iff.mpr ⟨?_, by rw [List.length_append]; omega, ?_⟩
  · rw [List.drop_append_of_le_length bound]
    exact occurs.trans (List.prefix_append _ _)
  · intro earlier less occursEarlier
    apply first earlier less
    rw [List.drop_append_of_le_length (by omega)] at occursEarlier
    refine List.prefix_of_prefix_length_le occursEarlier (List.prefix_append _ more) ?_
    rw [List.length_drop]
    omega

/-- An occurrence that appears when text is added ends in the added part. -/
theorem length_lt_of_find_append {pattern text more : List α} {position : Nat}
    (absent : find pattern text = none)
    (found : find pattern (text ++ more) = some position) :
    text.length < position + pattern.length := by
  by_contra inside
  obtain ⟨occurs, -, -⟩ := find_eq_some_iff.mp found
  apply find_eq_none_iff.mp absent position (by omega)
  rw [List.drop_append_of_le_length (by omega)] at occurs
  refine List.prefix_of_prefix_length_le occurs (List.prefix_append _ more) ?_
  rw [List.length_drop]
  omega

/-- An occurrence that one more symbol completes ends with that symbol. -/
theorem find_snoc {pattern text : List α} {x : α} {position : Nat}
    (absent : find pattern text = none) (found : find pattern (text ++ [x]) = some position) :
    position + pattern.length = text.length + 1 := by
  have late := length_lt_of_find_append absent found
  have fits := find_add_length_le found
  rw [List.length_append, List.length_singleton] at fits
  omega

/-- The pattern is found right behind a text in which no earlier copy starts. -/
theorem find_append_pattern {pattern text : List α} (more : List α)
    (fresh : ∀ earlier < text.length, ¬ pattern <+: (text ++ pattern).drop earlier) :
    find pattern (text ++ pattern ++ more) = some text.length := by
  apply find_append
  refine find_eq_some_iff.mpr ⟨?_, by simp, fresh⟩
  rw [List.drop_left]

/-- A pattern that starts with `mark` does not occur where `mark` is absent. -/
theorem find_eq_none_of_not_mem {mark : α} {pattern text : List α}
    (absent : mark ∉ text) : find (mark :: pattern) text = none := by
  refine find_eq_none_iff.mpr fun position _ occurs => absent ?_
  exact List.mem_of_mem_drop (occurs.subset (by simp))

theorem find_append_of_not_mem {mark : α} {pattern text : List α} (more : List α)
    (absent : mark ∉ text) :
    find (mark :: pattern) (text ++ (mark :: pattern) ++ more) = some text.length := by
  refine find_append_pattern more fun earlier less occurs => ?_
  rw [List.drop_append_of_le_length (by omega)] at occurs
  cases start : text.drop earlier with
  | nil =>
      rw [List.drop_eq_nil_iff] at start
      omega
  | cons x rest =>
      rw [start, List.cons_append, List.cons_prefix_cons] at occurs
      apply absent
      rw [occurs.1]
      exact List.mem_of_mem_drop (start ▸ List.mem_cons_self)

end Search
