import Waitress.Python.Text
import Waitress.Task

/-!
# Header names

The capitalized form of a header name tells the name up to case, as far as the
length of a response is concerned.
-/

namespace Waitress

namespace Str

theorem split_map {separator : Char} {f : Char → Char}
    (fixes : ∀ c, f c = separator ↔ c = separator) (s : Str) :
    split separator (s.map f) = (split separator s).map (·.map f) := by
  induction s with
  | nil => rfl
  | cons c rest inductionHypothesis =>
      rw [List.map_cons, split, split]
      by_cases separates : c = separator
      · rw [if_pos separates, if_pos ((fixes c).mpr separates), inductionHypothesis]
        rfl
      · rw [if_neg separates, if_neg (fun fixed => separates ((fixes c).mp fixed)),
          inductionHypothesis]
        cases split separator rest with
        | nil => rfl
        | cons first others => rfl

theorem join_split (separator : Char) (s : Str) : join [separator] (split separator s) = s := by
  induction s with
  | nil => rfl
  | cons c rest inductionHypothesis =>
      rw [split]
      cases parts : split separator rest with
      | nil => exact absurd parts (split_ne_nil separator rest)
      | cons first others =>
          rw [parts] at inductionHypothesis
          split
          · rename_i separates
            rw [join, List.nil_append, inductionHypothesis, separates]
            · rfl
            · simp
          · cases others with
            | nil => rw [join, ← inductionHypothesis, join]
            | cons second others =>
                rw [join] at inductionHypothesis ⊢
                · rw [← inductionHypothesis]
                  rfl
                · simp
                · simp

theorem not_mem_of_mem_split {separator : Char} {s part : Str} (mem : part ∈ split separator s) :
    separator ∉ part := by
  induction s generalizing part with
  | nil =>
      rw [split, List.mem_singleton] at mem
      simp [mem]
  | cons c rest inductionHypothesis =>
      rw [split] at mem
      split at mem
      · rcases List.mem_cons.mp mem with rfl | mem
        · simp
        · exact inductionHypothesis mem
      · rename_i differs
        cases parts : split separator rest with
        | nil => exact absurd parts (split_ne_nil separator rest)
        | cons first others =>
            rw [parts] at mem inductionHypothesis
            rcases List.mem_cons.mp mem with rfl | mem
            · rw [List.mem_cons, not_or]
              exact ⟨Ne.symm differs, inductionHypothesis (by simp)⟩
            · exact inductionHypothesis (by simp [mem])

/-! ### Case mappings -/

theorem lowerChar_toNat (c : Char) :
    (lowerChar c).toNat =
      if (65 ≤ c.toNat ∧ c.toNat ≤ 90) ∨ (192 ≤ c.toNat ∧ c.toNat ≤ 222 ∧ c.toNat ≠ 215) then
        c.toNat + 32
      else if c.toNat = 376 then 255
      else if c.toNat = 7838 then 223
      else if c.toNat = 8490 then 107
      else if c.toNat = 8491 then 229
      else c.toNat := by
  unfold lowerChar
  simp only [Bool.or_eq_true, Bool.and_eq_true, decide_eq_true_eq, Char.le_def,
    UInt32.le_iff_toNat_le, and_assoc]
  change (if (65 ≤ c.toNat ∧ c.toNat ≤ 90) ∨ _ then _ else _ : Char).toNat = _
  split_ifs with capital <;> try rfl
  exact toNat_ofNat (by omega)

theorem lowerChar_eq_hyphen (c : Char) : lowerChar c = '-' ↔ c = '-' := by
  rw [← Char.toNat_inj, ← Char.toNat_inj, lowerChar_toNat]
  change _ = 45 ↔ _ = 45
  split_ifs <;> omega

/-- The letters that a small letter of ASCII comes from, `k` apart. -/
theorem lowerChar_eq_iff {c : Char} {n : Nat} (small : 97 ≤ n ∧ n ≤ 122) (other : n ≠ 107) :
    (lowerChar c).toNat = n ↔ c.toNat = n ∨ c.toNat = n - 32 := by
  rw [lowerChar_toNat]
  split_ifs <;> omega

/-- A capital of ASCII that no special character is mapped to. -/
def IsPlainCapital (n : Nat) : Prop := 65 ≤ n ∧ n ≤ 90 ∧ n ≠ 70 ∧ n ≠ 73 ∧ n ≠ 75 ∧ n ≠ 83

instance : DecidablePred IsPlainCapital := fun n =>
  inferInstanceAs (Decidable (65 ≤ n ∧ n ≤ 90 ∧ n ≠ 70 ∧ n ≠ 73 ∧ n ≠ 75 ∧ n ≠ 83))

theorem mem_of_lookup {key : Nat} {value : Str} {table : List (Nat × Str)}
    (found : table.lookup key = some value) : (key, value) ∈ table := by
  induction table with
  | nil => cases found
  | cons entry table inductionHypothesis =>
      rw [List.lookup_cons] at found
      split at found
      · rename_i same
        rw [beq_iff_eq] at same
        cases found
        exact List.mem_cons.mpr (.inl (by rw [same]))
      · exact List.mem_cons_of_mem _ (inductionHypothesis found)

theorem titleChar_eq (c : Char) :
    titleChar c =
      if (97 ≤ c.toNat ∧ c.toNat ≤ 122) ∨ (224 ≤ c.toNat ∧ c.toNat ≤ 254) ∧ c.toNat ≠ 247 then
        [Char.ofNat (c.toNat - 32)]
      else (titleSpecial.lookup c.toNat).getD [c] := by
  unfold titleChar
  simp only [Bool.or_eq_true, Bool.and_eq_true, decide_eq_true_eq, Char.le_def,
    UInt32.le_iff_toNat_le]
  rfl

/-- A small letter, an irregular character or one that stays as it is. -/
theorem titleChar_cases (c : Char) :
    titleChar c = [Char.ofNat (c.toNat - 32)] ∧
        (97 ≤ c.toNat ∧ c.toNat ≤ 122 ∨ 224 ≤ c.toNat ∧ c.toNat ≤ 254) ∨
      (c.toNat, titleChar c) ∈ titleSpecial ∨
      titleChar c = [c] ∧ ¬ (97 ≤ c.toNat ∧ c.toNat ≤ 122) := by
  rw [titleChar_eq]
  by_cases small : (97 ≤ c.toNat ∧ c.toNat ≤ 122) ∨
      (224 ≤ c.toNat ∧ c.toNat ≤ 254) ∧ c.toNat ≠ 247
  · rw [if_pos small]
    exact .inl ⟨rfl, small.imp id fun latin => latin.1⟩
  · rw [if_neg small]
    cases special : titleSpecial.lookup c.toNat with
    | none => exact .inr (.inr ⟨rfl, fun letter => small (.inl letter)⟩)
    | some value => exact .inr (.inl (mem_of_lookup special))

theorem titleSpecial_spec :
    ∀ entry ∈ titleSpecial, 122 < entry.1 ∧
      entry.2.head?.map Char.toNat ∈ [some 70, some 73, some 83, some 376, some 924] ∧
      '-' ∉ entry.2 := by
  decide

theorem titleChar_capital {c : Char} {n : Nat} (capital : IsPlainCapital n)
    (letter : c.toNat = n ∨ c.toNat = n + 32) : titleChar c = [Char.ofNat n] := by
  have ⟨atLeast, atMost, _⟩ := capital
  rcases titleChar_cases c with ⟨title, small⟩ | special | ⟨title, big⟩
  · rw [title]
    congr
    omega
  · have beyond := (titleSpecial_spec _ special).1
    dsimp only at beyond
    omega
  · rw [title, ← Char.ofNat_toNat c]
    congr
    omega

theorem titleChar_other {c : Char} {n : Nat} (capital : IsPlainCapital n)
    (other : ¬ (c.toNat = n ∨ c.toNat = n + 32)) (more rest : Str) :
    titleChar c ++ more ≠ Char.ofNat n :: rest := by
  have ⟨atLeast, atMost, _⟩ := capital
  have code : (Char.ofNat n).toNat = n := toNat_ofNat (by omega)
  intro same
  rcases titleChar_cases c with ⟨title, small⟩ | special | ⟨title, big⟩
  · rw [title] at same
    have heads := congrArg Char.toNat (List.cons.inj same).1
    rw [code, toNat_ofNat (by omega)] at heads
    omega
  · have heads := (titleSpecial_spec _ special).2.1
    cases form : titleChar c with
    | nil => simp [form] at heads
    | cons t ts =>
        rw [form, List.cons_append] at same
        have first := congrArg Char.toNat (List.cons.inj same).1
        simp only [form, List.head?_cons, Option.map_some, first, code, List.mem_cons,
          Option.some.injEq, List.not_mem_nil, or_false] at heads
        unfold IsPlainCapital at capital
        omega
  · rw [title] at same
    have heads := congrArg Char.toNat (List.cons.inj same).1
    rw [code] at heads
    exact other (.inl heads)

theorem lower_lower (s : Str) : lower (lower s) = lower s := by
  have each : ∀ c, lowerChar (lowerChar c) = lowerChar c := by
    intro c
    rw [← Char.toNat_inj, lowerChar_toNat (lowerChar c), lowerChar_toNat c]
    split_ifs <;> omega
  rw [lower, lower, List.map_map]
  exact List.map_congr_left fun c _ => each c

theorem titleSpecial_title :
    ∀ entry ∈ titleSpecial, entry.2 ≠ [] ∧
      entry.2.head?.map titleChar = entry.2.head?.map (fun first => [first]) ∧
      lower entry.2.tail = entry.2.tail := by
  decide

theorem titleChar_titleChar (c : Char) :
    ∃ first rest, titleChar c = first :: rest ∧ titleChar first = [first] ∧ lower rest = rest := by
  rcases titleChar_cases c with ⟨title, small⟩ | special | ⟨title, -⟩
  · refine ⟨_, [], title, ?_, rfl⟩
    have value : (Char.ofNat (c.toNat - 32)).toNat = c.toNat - 32 := toNat_ofNat (by omega)
    rw [titleChar_eq, value, if_neg (by omega)]
    cases special : titleSpecial.lookup (c.toNat - 32) with
    | none => rfl
    | some form =>
        have listed := mem_of_lookup special
        simp only [titleSpecial, List.mem_cons, Prod.mk.injEq, List.not_mem_nil, or_false] at listed
        omega
  · obtain ⟨nonempty, stays, lowered⟩ := titleSpecial_title _ special
    cases form : titleChar c with
    | nil => exact absurd form nonempty
    | cons first rest =>
        rw [form] at stays lowered
        exact ⟨first, rest, rfl, Option.some.inj stays, lowered⟩
  · exact ⟨c, [], title, title, rfl⟩

theorem capitalize_capitalize (s : Str) : capitalize (capitalize s) = capitalize s := by
  cases s with
  | nil => rfl
  | cons c rest =>
      obtain ⟨first, others, title, stays, lowered⟩ := titleChar_titleChar c
      rw [capitalize, title, List.cons_append, capitalize, stays,
        show ∀ a b : Str, lower (a ++ b) = lower a ++ lower b from fun _ _ => List.map_append,
        lowered, lower_lower]
      rfl

theorem hyphen_not_mem_titleChar {c : Char} (other : c ≠ '-') : '-' ∉ titleChar c := by
  have code : c.toNat ≠ 45 := fun same => other (Char.toNat_inj.mp same)
  rcases titleChar_cases c with ⟨title, small⟩ | special | ⟨title, -⟩
  · have value : (Char.ofNat (c.toNat - 32)).toNat = c.toNat - 32 := toNat_ofNat (by omega)
    rw [title, List.mem_singleton]
    intro same
    have codes : 45 = c.toNat - 32 := (congrArg Char.toNat same).trans value
    omega
  · exact (titleSpecial_spec _ special).2.2
  · rw [title, List.mem_singleton]
    exact Ne.symm other

theorem capitalize_eq_iff {part rest : Str} {n : Nat} (capital : IsPlainCapital n) :
    capitalize part = Char.ofNat n :: rest ↔ lower part = Char.ofNat (n + 32) :: rest := by
  cases part with
  | nil => simp [capitalize, lower]
  | cons c part =>
      have ⟨atLeast, atMost, _, _, notK, _⟩ := capital
      have small : lowerChar c = Char.ofNat (n + 32) ↔ c.toNat = n + 32 ∨ c.toNat = n := by
        rw [← Char.toNat_inj, toNat_ofNat (by omega), lowerChar_eq_iff (by omega) (by omega),
          Nat.add_sub_cancel]
      rw [show lower (c :: part) = lowerChar c :: lower part from rfl, capitalize, List.cons.injEq,
        small]
      by_cases letter : c.toNat = n ∨ c.toNat = n + 32
      · rw [titleChar_capital capital letter, List.singleton_append, List.cons.injEq]
        exact ⟨fun same => ⟨letter.symm, same.2⟩, fun same => ⟨rfl, same.2⟩⟩
      · exact ⟨fun same => absurd same (titleChar_other capital letter _ _),
          fun same => absurd same.1.symm letter⟩

theorem hyphen_not_mem_capitalize {part : Str} (absent : '-' ∉ part) : '-' ∉ capitalize part := by
  cases part with
  | nil => exact absent
  | cons c part =>
      rw [List.mem_cons, not_or] at absent
      rw [capitalize, List.mem_append, not_or]
      refine ⟨hyphen_not_mem_titleChar (Ne.symm absent.1), fun mem => ?_⟩
      obtain ⟨d, inPart, lowered⟩ := List.mem_map.mp mem
      rw [(lowerChar_eq_hyphen d).mp lowered] at inPart
      exact absent.2 inPart

end Str

namespace Task

theorem split_headerName (name : Str) :
    Str.split '-' (headerName name) = (Str.split '-' name).map Str.capitalize := by
  refine Str.split_join (by simpa using Str.split_ne_nil '-' name) fun part mem => ?_
  obtain ⟨original, inSplit, rfl⟩ := List.mem_map.mp mem
  exact Str.hyphen_not_mem_capitalize (Str.not_mem_of_mem_split inSplit)

theorem lower_eq_contentLength (name : Str) :
    Str.lower name = "content-length".toList ↔
      (Str.split '-' name).map Str.lower = ["content".toList, "length".toList] := by
  have parts := Str.split_map Str.lowerChar_eq_hyphen name
  change Str.split '-' (Str.lower name) = (Str.split '-' name).map Str.lower at parts
  rw [← parts]
  constructor
  · intro same
    rw [same]
    rfl
  · intro same
    rw [← Str.join_split '-' (Str.lower name), same]
    rfl

/-- The two ways in which the program looks for the length agree. -/
theorem headerName_eq_contentLength (name : Str) :
    headerName name = "Content-Length".toList ↔ Str.lower name = "content-length".toList := by
  have capitalized : headerName name = "Content-Length".toList ↔
      (Str.split '-' name).map Str.capitalize = ["Content".toList, "Length".toList] := by
    rw [← split_headerName]
    constructor
    · intro same
      rw [same]
      rfl
    · intro same
      rw [← Str.join_split '-' (headerName name), same]
      rfl
  have content : ∀ part, Str.capitalize part = "Content".toList ↔ Str.lower part = "content".toList :=
    fun part => Str.capitalize_eq_iff (show Str.IsPlainCapital 67 by decide)
  have length : ∀ part, Str.capitalize part = "Length".toList ↔ Str.lower part = "length".toList :=
    fun part => Str.capitalize_eq_iff (show Str.IsPlainCapital 76 by decide)
  rw [capitalized, lower_eq_contentLength]
  rcases Str.split '-' name with _ | ⟨first, _ | ⟨second, _ | ⟨third, rest⟩⟩⟩
  · simp
  · simp
  · simp only [List.map_cons, List.map_nil, List.cons.injEq, content, length]
  · simp

/-- A name that was capitalized once is not capitalized any further. -/
theorem headerName_headerName (name : Str) : headerName (headerName name) = headerName name := by
  have parts : ((Str.split '-' name).map Str.capitalize).map Str.capitalize =
      (Str.split '-' name).map Str.capitalize := by
    rw [List.map_map]
    exact List.map_congr_left fun part _ => Str.capitalize_capitalize part
  rw [headerName, split_headerName, parts]
  rfl

end Task

end Waitress
