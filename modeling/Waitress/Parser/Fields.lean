import Waitress.Parser.Head

/-!
# The values of the headers

What the loop over the header lines puts into the dictionary is Latin-1 text on
one line.
-/

namespace Waitress

open Raising

def isValueChar (c : Char) : Bool := c.toNat < 256 && c.toNat ≠ 10 && c.toNat ≠ 13

def CleanLine (line : Bytes) : Prop := 10 ∉ line ∧ 13 ∉ line

/-- The values are Latin-1 text without line breaks. -/
def RequestHead.CleanValues (head : RequestHead) : Prop :=
  ∀ name value, head.headers.get? name = some value → value.all isValueChar = true

open RequestHead

theorem decodeLatin1_clean {s : Bytes} (clean : CleanLine s) :
    (decodeLatin1 s).all isValueChar = true := by
  refine List.all_eq_true.mpr fun c mem => ?_
  obtain ⟨x, inside, code⟩ := mem_decodeLatin1.mp mem
  have noFeed : x ≠ 10 := fun feed => clean.1 (feed ▸ inside)
  have noReturn : x ≠ 13 := fun ret => clean.2 (ret ▸ inside)
  have small := x.toNat_lt
  rw [ne_eq, ← UInt8.toNat_inj] at noFeed noReturn
  simp only [isValueChar, Bool.and_eq_true, decide_eq_true_eq, code]
  exact ⟨⟨small, noFeed⟩, noReturn⟩

theorem CleanLine.mono {s line : Bytes} (clean : CleanLine line) (inside : s ⊆ line) :
    CleanLine s :=
  ⟨fun feed => clean.1 (inside feed), fun ret => clean.2 (inside ret)⟩

theorem stripChars_subset (chars s : Bytes) : Bytes.stripChars chars s ⊆ s := by
  intro x mem
  rw [Bytes.stripChars, List.mem_reverse] at mem
  have inside := (List.dropWhile_sublist _).subset mem
  rw [List.mem_reverse] at inside
  exact (List.dropWhile_sublist _).subset inside

theorem headerLinesLoop_clean {r lines result : List Bytes} (clean : ∀ line ∈ r, CleanLine line)
    (split : headerLinesLoop r lines = .ok result) : ∀ line ∈ result, CleanLine line := by
  induction lines generalizing r with
  | nil =>
      cases split
      exact clean
  | cons line lines inductionHypothesis =>
      rw [headerLinesLoop] at split
      split at split
      · exact inductionHypothesis clean split
      · split at split
        · cases split
        · rename_i unbroken
          have cleanLine : CleanLine line := ⟨fun feed => unbroken (.inr feed),
            fun ret => unbroken (.inl ret)⟩
          split at split
          · split at split
            · cases split
            · rename_i last isLast
              refine inductionHypothesis (fun other mem => ?_) split
              rcases List.mem_append.mp mem with earlier | joined
              · exact clean other (List.mem_of_mem_dropLast earlier)
              · obtain rfl := List.mem_singleton.mp joined
                have cleanLast := clean last (List.mem_of_getLast? isLast)
                exact ⟨by simp [cleanLast.1, cleanLine.1], by simp [cleanLast.2, cleanLine.2]⟩
          · refine inductionHypothesis (fun other mem => ?_) split
            rcases List.mem_append.mp mem with earlier | last
            · exact clean other earlier
            · obtain rfl := List.mem_singleton.mp last
              exact cleanLine

theorem getHeaderLines_clean {header : Bytes} {lines : List Bytes}
    (split : getHeaderLines header = .ok lines) : ∀ line ∈ lines, CleanLine line :=
  headerLinesLoop_clean (by simp) split

theorem cleanValues_set {head : RequestHead} (clean : head.CleanValues) (name : Str) {value : Str}
    (cleanValue : value.all isValueChar = true) :
    CleanValues { head with headers := head.headers.set name value } := by
  intro other given found
  rw [Dict.get?_set] at found
  split at found
  · cases found
    exact cleanValue
  · exact clean other given found

theorem parseHeaderLine_clean {line : Bytes} (cleanLine : CleanLine line) :
    Within (Keeps CleanValues) (parseHeaderLine line) := by
  unfold parseHeaderLine
  split
  · exact within_throw _
  · rename_i header matched
    dsimp only
    split
    · exact within_pure _
    · have cleanValue : CleanLine
          (Bytes.stripChars (ascii " \t") ((header.lookup "value").getD [])) :=
        cleanLine.mono (List.Subset.trans (stripChars_subset _ _)
          (Regex.subset_of_lineMatch? matched "value"))
      refine within_get_bind fun head clean => ?_
      split
      · exact cleanValues_set clean _ (decodeLatin1_clean cleanValue)
      · rename_i given found
        split
        · exact clean
        · refine cleanValues_set clean _ ?_
          have joined : CleanLine (ascii ", " ++
              Bytes.stripChars (ascii " \t") ((header.lookup "value").getD [])) :=
            ⟨fun mem => (List.mem_append.mp mem).elim (by decide) cleanValue.1,
              fun mem => (List.mem_append.mp mem).elim (by decide) cleanValue.2⟩
          rw [List.all_append, clean _ given found, decodeLatin1_clean joined]
          rfl

theorem parseLines_clean (block : Bytes) : Within (Keeps CleanValues) (parseLines block) := by
  unfold parseLines
  split
  · exact within_throw _
  · dsimp only
    split
    · exact within_throw _
    · refine within_bind (within_modify fun _ clean => clean) fun _ => ?_
      refine within_ofExcept_bind fun lines split => ?_
      refine within_bind (within_forM _ fun line listed =>
        parseHeaderLine_clean (getHeaderLines_clean split line listed)) fun _ => ?_
      refine within_bind (within_ofExcept _) fun start => ?_
      split
      · exact within_throw _
      · exact within_pure _

end Waitress
