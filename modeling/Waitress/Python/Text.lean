import Waitress.Python

/-!
# Splitting and stripping

How the methods of strings undo each other.
-/

namespace Waitress

theorem decodeLatin1_injective : Function.Injective decodeLatin1 := by
  refine List.map_injective_iff.mpr fun x y same => UInt8.toNat_inj.mp ?_
  have small : ∀ x : UInt8, x.toNat < 55296 := fun x => Nat.lt_trans x.toNat_lt (by decide)
  have codes := congrArg Char.toNat same
  rwa [toNat_ofNat (small x), toNat_ofNat (small y)] at codes

namespace Str

/-! ### Splitting at a character -/

theorem split_ne_nil (separator : Char) (s : Str) : split separator s ≠ [] := by
  cases s with
  | nil => exact List.cons_ne_nil _ _
  | cons c rest =>
      rw [split]
      split
      · exact List.cons_ne_nil _ _
      · split
        · exact List.cons_ne_nil _ _
        · exact List.cons_ne_nil _ _

theorem split_of_not_mem {separator : Char} {s : Str} (absent : separator ∉ s) :
    split separator s = [s] := by
  induction s with
  | nil => rfl
  | cons c rest inductionHypothesis =>
      rw [List.mem_cons, not_or] at absent
      rw [split, if_neg (Ne.symm absent.1), inductionHypothesis absent.2]

theorem split_append {separator : Char} {s : Str} (absent : separator ∉ s) (more : Str) :
    split separator (s ++ separator :: more) = s :: split separator more := by
  induction s with
  | nil => rw [List.nil_append, split, if_pos rfl]
  | cons c rest inductionHypothesis =>
      rw [List.mem_cons, not_or] at absent
      rw [List.cons_append, split, if_neg (Ne.symm absent.1), inductionHypothesis absent.2]

theorem split_join {separator : Char} {parts : List Str} (nonempty : parts ≠ [])
    (absent : ∀ part ∈ parts, separator ∉ part) :
    split separator (join [separator] parts) = parts := by
  induction parts with
  | nil => exact absurd rfl nonempty
  | cons part rest inductionHypothesis =>
      rw [List.forall_mem_cons] at absent
      cases rest with
      | nil => exact split_of_not_mem absent.1
      | cons next others =>
          rw [join, List.append_assoc, List.singleton_append, split_append absent.1,
            inductionHypothesis (by simp) absent.2]
          simp

/-! ### Stripping characters -/

section Stripping

variable (chars s : Str)

theorem head?_lstripChars {c : Char} (first : (lstripChars chars s).head? = some c) :
    c ∉ chars := by
  have stopped := List.head?_dropWhile_not (· ∈ chars) s
  rw [lstripChars] at first
  rw [first] at stopped
  simpa using stopped

theorem getLast?_rstripChars {c : Char} (last : (rstripChars chars s).getLast? = some c) :
    c ∉ chars := by
  rw [rstripChars, List.getLast?_reverse] at last
  exact head?_lstripChars chars s.reverse last

theorem rstripChars_prefix : rstripChars chars s <+: s := List.rdropWhile_prefix _ s

theorem rstripChars_lstripChars_eq_nil_iff :
    rstripChars chars (lstripChars chars s) = [] ↔ ∀ c ∈ s, c ∈ chars := by
  constructor
  · intro empty
    have rest : lstripChars chars s = [] := by
      cases stripped : lstripChars chars s with
      | nil => rfl
      | cons c rest =>
          have first : c ∉ chars := head?_lstripChars chars s (by rw [stripped]; rfl)
          have all := List.rdropWhile_eq_nil_iff.mp empty c (by rw [stripped]; simp)
          exact absurd (by simpa using all) first
    simpa using List.dropWhile_eq_nil_iff.mp rest
  · intro all
    have rest : lstripChars chars s = [] :=
      List.dropWhile_eq_nil_iff.mpr fun c mem => decide_eq_true (all c mem)
    rw [rest]
    rfl

end Stripping

/-! ### Stripping white space -/

theorem strip_eq_nil_iff {s : Str} : strip s = [] ↔ ∀ c ∈ s, isSpace c = true := by
  constructor
  · intro empty
    have rest : s.dropWhile isSpace = [] := by
      cases stripped : s.dropWhile isSpace with
      | nil => rfl
      | cons c rest =>
          have stopped := List.head?_dropWhile_not isSpace s
          rw [stripped, List.head?_cons] at stopped
          have all := List.rdropWhile_eq_nil_iff.mp
            (show List.rdropWhile isSpace (s.dropWhile isSpace) = [] from empty)
          have blank := all c (by rw [stripped]; exact List.mem_cons_self)
          rw [stopped] at blank
          cases blank
    exact List.dropWhile_eq_nil_iff.mp rest
  · intro all
    have rest : s.dropWhile isSpace = [] := List.dropWhile_eq_nil_iff.mpr all
    rw [strip, rest]
    rfl

theorem strip_surrounded {left text right : Str} (blankLeft : ∀ c ∈ left, isSpace c = true)
    (blankRight : ∀ c ∈ right, isSpace c = true)
    (first : ∀ c ∈ text.head?, isSpace c = false) (last : ∀ c ∈ text.getLast?, isSpace c = false)
    (nonempty : text ≠ []) : strip (left ++ text ++ right) = text := by
  have front : ((left ++ text) ++ right).dropWhile isSpace = text ++ right := by
    rw [List.append_assoc, List.dropWhile_append_of_pos blankLeft]
    cases text with
    | nil => exact absurd rfl nonempty
    | cons c rest =>
        have stops : ¬isSpace c = true := by simp [first c rfl]
        rw [List.cons_append, List.dropWhile_cons_of_neg stops]
  have reversed : (text ++ right).reverse.dropWhile isSpace = text.reverse := by
    rw [List.reverse_append, List.dropWhile_append_of_pos fun c mem =>
      blankRight c (List.mem_reverse.mp mem)]
    cases backwards : text.reverse with
    | nil => exact absurd (List.reverse_eq_nil_iff.mp backwards) nonempty
    | cons c rest =>
        have isLast : text.getLast? = some c := by
          rw [← List.head?_reverse, backwards, List.head?_cons]
        have stops : ¬isSpace c = true := by simp [last c isLast]
        rw [List.dropWhile_cons_of_neg stops]
  rw [strip, front, reversed, List.reverse_reverse]

theorem length_strip_le (s : Str) : (strip s).length ≤ s.length := by
  have prefixes := (List.rdropWhile_prefix isSpace (s.dropWhile isSpace)).length_le
  have suffixes := (List.dropWhile_suffix isSpace (l := s)).length_le
  exact Nat.le_trans prefixes suffixes

/-! ### Splitting at the last separator -/

theorem rsplit_append {separator : Char} {back : Str} (absent : separator ∉ back) (front : Str) :
    rsplit separator (front ++ separator :: back) = (front, back) := by
  have ordinary : ∀ c ∈ back.reverse, decide (c ≠ separator) = true := by
    intro c mem
    refine decide_eq_true ?_
    rintro rfl
    exact absent (List.mem_reverse.mp mem)
  have reversed : (front ++ separator :: back).reverse =
      back.reverse ++ (separator :: front.reverse) := by simp
  rw [rsplit, reversed, List.dropWhile_append_of_pos ordinary,
    List.takeWhile_append_of_pos ordinary, List.dropWhile_cons_of_neg (by simp),
    List.takeWhile_cons_of_neg (by simp)]
  simp

theorem exists_last_separator {separator : Char} {s : Str} (mem : separator ∈ s) :
    ∃ front back, s = front ++ separator :: back ∧ separator ∉ back := by
  obtain ⟨back, front, split, absent⟩ :=
    List.eq_append_cons_of_mem (List.mem_reverse.mpr mem)
  refine ⟨front.reverse, back.reverse, ?_, fun inside => absent (List.mem_reverse.mp inside)⟩
  rw [← List.reverse_reverse s, split]
  simp

end Str

end Waitress
