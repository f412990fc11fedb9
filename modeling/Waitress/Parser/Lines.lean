import Waitress.Parser.Escaping

/-!
# Line ends

A message head is cut into lines at CRLF.  What is left of the two bytes inside
of a line stands alone, and `parse_header` looks for it.
-/

namespace Waitress

open Raising

/-- Every CR is followed by an LF, and every LF follows a CR. -/
def OnlyCrlf (text : Bytes) : Prop :=
  ∀ position : Nat,
    (text[position]? = some (13 : UInt8) → text[position + 1]? = some (10 : UInt8)) ∧
      (text[position]? = some (10 : UInt8) →
        ∃ before, position = before + 1 ∧ text[before]? = some (13 : UInt8))

theorem onlyCrlf_nil : OnlyCrlf [] := fun _ => ⟨by simp, by simp⟩

theorem onlyCrlf_cons {x : UInt8} {rest : Bytes} (noReturn : x ≠ 13) (noFeed : x ≠ 10) :
    OnlyCrlf (x :: rest) ↔ OnlyCrlf rest := by
  constructor
  · intro only position
    obtain ⟨followed, preceded⟩ := only (position + 1)
    refine ⟨followed, fun feed => ?_⟩
    obtain ⟨before, same, ret⟩ := preceded feed
    obtain rfl : position = before := Nat.succ.inj same
    cases position with
    | zero =>
        rw [List.getElem?_cons_zero, Option.some.injEq] at ret
        exact absurd ret noReturn
    | succ before => exact ⟨before, rfl, ret⟩
  · intro only position
    cases position with
    | zero =>
        rw [List.getElem?_cons_zero, Option.some.injEq, Option.some.injEq]
        exact ⟨fun ret => absurd ret noReturn, fun feed => absurd feed noFeed⟩
    | succ position =>
        obtain ⟨followed, preceded⟩ := only position
        refine ⟨followed, fun feed => ?_⟩
        obtain ⟨before, rfl, ret⟩ := preceded feed
        exact ⟨before + 1, rfl, ret⟩

theorem onlyCrlf_crlf_append {rest : Bytes} : OnlyCrlf (crlf ++ rest) ↔ OnlyCrlf rest := by
  constructor
  · intro only position
    obtain ⟨followed, preceded⟩ := only (position + 2)
    refine ⟨followed, fun feed => ?_⟩
    obtain ⟨before, same, ret⟩ := preceded feed
    cases position with
    | zero =>
        obtain rfl : 1 = before := Nat.succ.inj same
        exact absurd (show some (10 : UInt8) = some 13 from ret) (by decide)
    | succ position =>
        obtain rfl : position + 2 = before := Nat.succ.inj same
        exact ⟨position, rfl, ret⟩
  · intro only position
    match position with
    | 0 =>
        refine ⟨fun _ => rfl, fun feed => ?_⟩
        exact absurd (show some (13 : UInt8) = some 10 from feed) (by decide)
    | 1 =>
        refine ⟨fun ret => ?_, fun _ => ⟨0, rfl, rfl⟩⟩
        exact absurd (show some (10 : UInt8) = some 13 from ret) (by decide)
    | position + 2 =>
        obtain ⟨followed, preceded⟩ := only position
        refine ⟨followed, fun feed => ?_⟩
        obtain ⟨before, rfl, ret⟩ := preceded feed
        exact ⟨before + 2, rfl, ret⟩

theorem CleanLine.onlyCrlf_append {line : Bytes} (clean : CleanLine line) (rest : Bytes) :
    OnlyCrlf (line ++ rest) ↔ OnlyCrlf rest := by
  induction line with
  | nil => rfl
  | cons x line inductionHypothesis =>
      rw [List.cons_append, onlyCrlf_cons]
      · exact inductionHypothesis (clean.mono (List.subset_cons_self x line))
      · rintro rfl
        exact clean.2 List.mem_cons_self
      · rintro rfl
        exact clean.1 List.mem_cons_self

theorem CleanLine.onlyCrlf {line : Bytes} (clean : CleanLine line) : OnlyCrlf line := by
  have whole := (clean.onlyCrlf_append []).mpr onlyCrlf_nil
  rwa [List.append_nil] at whole

theorem crlf_startsLine {text : Bytes} {position : Nat} (ret : text[position]? = some (13 : UInt8))
    (feed : text[position + 1]? = some (10 : UInt8)) : crlf <+: text.drop position := by
  obtain ⟨inside, ret⟩ := List.getElem?_eq_some_iff.mp ret
  obtain ⟨insideToo, feed⟩ := List.getElem?_eq_some_iff.mp feed
  rw [List.drop_eq_getElem_cons inside, List.drop_eq_getElem_cons insideToo, ret, feed]
  exact ⟨_, rfl⟩

theorem OnlyCrlf.cleanLine_take {text : Bytes} {count : Nat} (only : OnlyCrlf text)
    (first : ∀ earlier < count, ¬ crlf <+: text.drop earlier) : CleanLine (text.take count) := by
  constructor
  · intro feed
    obtain ⟨position, found⟩ := List.mem_iff_getElem?.mp feed
    rw [List.getElem?_take, Option.ite_none_right_eq_some] at found
    obtain ⟨inside, found⟩ := found
    obtain ⟨before, rfl, ret⟩ := (only position).2 found
    exact first before (by omega) (crlf_startsLine ret found)
  · intro ret
    obtain ⟨position, found⟩ := List.mem_iff_getElem?.mp ret
    rw [List.getElem?_take, Option.ite_none_right_eq_some] at found
    obtain ⟨inside, found⟩ := found
    exact first position inside (crlf_startsLine found ((only position).1 found))

theorem onlyCrlf_iff_of_absent {text : Bytes} (absent : Search.find crlf text = none) :
    OnlyCrlf text ↔ CleanLine text := by
  refine ⟨fun only => ?_, CleanLine.onlyCrlf⟩
  have whole := only.cleanLine_take fun earlier less =>
    Search.find_eq_none_iff.mp absent earlier (Nat.le_of_lt less)
  rwa [List.take_length] at whole

theorem onlyCrlf_iff_of_found {text : Bytes} {index : Nat}
    (found : Search.find crlf text = some index) :
    OnlyCrlf text ↔ CleanLine (text.take index) ∧ OnlyCrlf (text.drop (index + 2)) := by
  have shape : text = text.take index ++ (crlf ++ text.drop (index + 2)) := by
    have split := Search.find_split found
    rwa [List.append_assoc] at split
  have behind (clean : CleanLine (text.take index)) :
      OnlyCrlf text ↔ OnlyCrlf (text.drop (index + 2)) := by
    conv_lhs => rw [shape]
    rw [clean.onlyCrlf_append, onlyCrlf_crlf_append]
  constructor
  · intro only
    have clean := only.cleanLine_take (Search.find_eq_some_iff.mp found).2.2
    exact ⟨clean, (behind clean).mp only⟩
  · exact fun parts => (behind parts.1).mpr parts.2

theorem onlyCrlf_iff {text : Bytes} :
    OnlyCrlf text ↔ ∀ line ∈ Bytes.splitLines text, CleanLine line := by
  fun_induction Bytes.splitLines text with
  | case1 text absent => rw [onlyCrlf_iff_of_absent absent, List.forall_mem_singleton]
  | case2 text index found inductionHypothesis =>
      rw [onlyCrlf_iff_of_found found, List.forall_mem_cons, inductionHypothesis]

/-! ### Blocks of lines -/

/-- The lines with their ends, and an empty line behind them. -/
def blockOf (lines : List Bytes) : Bytes :=
  lines.foldr (fun line rest => line ++ (crlf ++ rest)) crlf

section Blocks

variable {line rest : Bytes} {lines : List Bytes}

theorem splitLines_cons (clean : CleanLine line) (rest : Bytes) :
    Bytes.splitLines (line ++ (crlf ++ rest)) = line :: Bytes.splitLines rest := by
  have found : Search.find crlf (line ++ (crlf ++ rest)) = some line.length := by
    have behind : Search.find crlf (line ++ crlf ++ rest) = some line.length :=
      Search.find_append_of_not_mem rest clean.2
    rwa [List.append_assoc] at behind
  rw [Bytes.splitLines]
  split
  · next absent => rw [found] at absent; cases absent
  · next position here =>
      obtain rfl : line.length = position := Option.some.inj (found.symm.trans here)
      rw [List.take_left, ← List.append_assoc]
      have drops : (line ++ crlf ++ rest).drop (line.length + 2) = rest :=
        List.drop_left' (by simp [crlf])
      rw [drops]

theorem splitLines_blockOf (clean : ∀ line ∈ lines, CleanLine line) :
    Bytes.splitLines (blockOf lines) = lines ++ [[], []] := by
  induction lines with
  | nil => decide +kernel
  | cons line lines inductionHypothesis =>
      obtain ⟨first, others⟩ := List.forall_mem_cons.mp clean
      exact (splitLines_cons first _).trans (congrArg _ (inductionHypothesis others))

theorem CleanLine.head_ne {x : UInt8} (clean : CleanLine (x :: rest)) : x ≠ 13 := by
  rintro rfl
  exact clean.2 List.mem_cons_self

theorem blockOf_doubleNewline (clean : ∀ line ∈ lines, CleanLine line)
    (nonempty : ∀ line ∈ lines, line ≠ []) {position : Nat}
    (occurs : doubleNewline <+: (blockOf lines).drop position) :
    position + 4 = (blockOf lines).length := by
  induction lines generalizing position with
  | nil =>
      have fits := occurs.length_le
      rw [List.length_drop] at fits
      have length : (blockOf []).length = 2 := rfl
      have four : doubleNewline.length = 4 := rfl
      omega
  | cons line lines inductionHypothesis =>
      obtain ⟨first, others⟩ := List.forall_mem_cons.mp clean
      have length : (blockOf (line :: lines)).length = line.length + 2 + (blockOf lines).length := by
        simp [blockOf, crlf]
        omega
      rw [show blockOf (line :: lines) = line ++ (crlf ++ blockOf lines) from rfl] at occurs
      rcases Nat.lt_or_ge position line.length with inside | behind
      · -- A line has no CR.
        rw [List.drop_append_of_le_length (Nat.le_of_lt inside),
          List.drop_eq_getElem_cons inside, List.cons_append] at occurs
        have ret := (List.cons_prefix_cons.mp occurs).1
        exact absurd (List.getElem_mem inside) (ret ▸ first.2)
      obtain ⟨further, rfl⟩ := Nat.exists_eq_add_of_le behind
      rw [List.drop_length_add_append] at occurs
      cases further with
      | zero =>
          have next : crlf <+: blockOf lines := (List.prefix_append_right_inj crlf).mp occurs
          cases lines with
          | nil => exact length.symm
          | cons line' lines' =>
              obtain ⟨first', -⟩ := List.forall_mem_cons.mp others
              cases line' with
              | nil => exact absurd rfl (nonempty [] (by simp))
              | cons x line' => exact absurd (List.cons_prefix_cons.mp next).1.symm first'.head_ne
      | succ further =>
          cases further with
          | zero => exact absurd (List.cons_prefix_cons.mp occurs).1 (by decide)
          | succ further =>
              have later :=
                inductionHypothesis others (fun line mem => nonempty line (.tail _ mem)) occurs
              omega

theorem doubleNewline_suffix_blockOf (any : lines ≠ []) : doubleNewline <:+ blockOf lines := by
  induction lines with
  | nil => exact absurd rfl any
  | cons line lines inductionHypothesis =>
      cases lines with
      | nil => exact List.suffix_append line doubleNewline
      | cons line' lines' =>
          have later := inductionHypothesis (List.cons_ne_nil _ _)
          exact later.trans ((List.suffix_append crlf _).trans (List.suffix_append line _))

theorem findDoubleNewline_blockOf (clean : ∀ line ∈ lines, CleanLine line)
    (nonempty : ∀ line ∈ lines, line ≠ []) (any : lines ≠ []) :
    findDoubleNewline (blockOf lines) = some (blockOf lines).length := by
  have last := doubleNewline_suffix_blockOf any
  have fits : 4 ≤ (blockOf lines).length := last.length_le
  refine findDoubleNewline_eq_some.mpr ⟨(blockOf lines).length - 4, ?_, by omega⟩
  refine Search.find_eq_some_iff.mpr ⟨?_, Nat.sub_le _ _, fun earlier less occurs => ?_⟩
  · have ends : doubleNewline = (blockOf lines).drop ((blockOf lines).length - 4) :=
      List.suffix_iff_eq_drop.mp last
    rw [← ends]
  · have only := blockOf_doubleNewline clean nonempty occurs
    omega

/-- There is nothing of a line end but the ends of the lines. -/
theorem onlyCrlf_blockOf (clean : ∀ line ∈ lines, CleanLine line) : OnlyCrlf (blockOf lines) := by
  rw [onlyCrlf_iff, splitLines_blockOf clean]
  intro line mem
  rcases List.mem_append.mp mem with inLines | last
  · exact clean line inLines
  · have empty : line = [] := by simpa using last
    exact empty ▸ ⟨List.not_mem_nil, List.not_mem_nil⟩

end Blocks

/-! ### The head -/

theorem headerLinesLoop_ok {r lines result : List Bytes}
    (split : headerLinesLoop r lines = .ok result) : ∀ line ∈ lines, CleanLine line := by
  induction lines generalizing r with
  | nil => simp
  | cons line lines inductionHypothesis =>
      rw [headerLinesLoop] at split
      rw [List.forall_mem_cons]
      split at split
      · rename_i empty
        exact ⟨empty ▸ ⟨List.not_mem_nil, List.not_mem_nil⟩, inductionHypothesis split⟩
      · split at split
        · cases split
        · rename_i unbroken
          refine ⟨⟨fun feed => unbroken (.inr feed), fun ret => unbroken (.inl ret)⟩, ?_⟩
          split at split
          · split at split
            · cases split
            · exact inductionHypothesis split
          · exact inductionHypothesis split

/-- The text before the first line end, as it was received. -/
def startLine (head : Bytes) : Bytes := head.take ((Search.find crlf head).getD head.length)

def trailingSpace (line : Bytes) : Bytes := (line.reverse.takeWhile Bytes.isSpace).reverse

theorem rstrip_append_trailingSpace (line : Bytes) :
    Bytes.rstrip line ++ trailingSpace line = line := by
  rw [Bytes.rstrip, trailingSpace, ← List.reverse_append, List.takeWhile_append_dropWhile,
    List.reverse_reverse]

theorem cleanLine_append {first second : Bytes} :
    CleanLine (first ++ second) ↔ CleanLine first ∧ CleanLine second := by
  simp only [CleanLine, List.mem_append, not_or]
  tauto

/-- The check comes behind `rstrip`, so that it does not see the end of the start line. -/
theorem onlyCrlf_iff_of_parseLines {head : Bytes} {start final : RequestHead}
    {cracked : Bytes × Bytes × Bytes}
    (parsed : exec (parseLines head) start = (.ok cracked, final)) :
    OnlyCrlf head ↔ CleanLine (trailingSpace (startLine head)) := by
  unfold parseLines at parsed
  split at parsed
  · cases parsed
  · rename_i index found
    dsimp only at parsed
    split at parsed
    · cases parsed
    · rename_i unbroken
      rw [exec_modify_bind, exec_bind, exec_ofExcept] at parsed
      cases split : getHeaderLines (head.drop (index + 2)) with
      | error exc =>
          rw [split] at parsed
          cases parsed
      | ok lines =>
          have rest : OnlyCrlf (head.drop (index + 2)) := onlyCrlf_iff.mpr (headerLinesLoop_ok split)
          have stripped : CleanLine (Bytes.rstrip (head.take index)) :=
            ⟨fun feed => unbroken (.inr feed), fun ret => unbroken (.inl ret)⟩
          have line : startLine head = head.take index := by
            rw [startLine, found, Option.getD_some]
          have whole : CleanLine (head.take index) ↔
              CleanLine (Bytes.rstrip (head.take index)) ∧
                CleanLine (trailingSpace (head.take index)) := by
            rw [← cleanLine_append, rstrip_append_trailingSpace]
          rw [onlyCrlf_iff_of_found found, line, whole]
          exact ⟨fun parts => parts.1.2, fun trailing => ⟨⟨stripped, trailing⟩, rest⟩⟩

namespace Reading

variable [CPython] {adj : Adjustments}

theorem headEnd_parsed {text : Bytes} (notFailed : headEnd adj text ≠ .failed)
    (notRaised : headEnd adj text ≠ .raised) :
    Bytes.lstrip text = [] ∨
      ∃ request, exec (parseHeader adj (Bytes.lstrip text)) {} = (.ok ⟨⟩, request) := by
  unfold headEnd at notFailed notRaised
  split at notFailed
  · exact .inl ‹_›
  · rw [if_neg ‹_›] at notRaised
    rcases outcome : exec (parseHeader adj (Bytes.lstrip text)) {} with ⟨exc | ⟨⟩, request⟩
    · rw [outcome] at notFailed notRaised
      cases exc <;> first | exact absurd rfl notFailed | exact absurd rfl notRaised
    · exact .inr ⟨request, rfl⟩

end Reading

namespace Feeding

variable [CPython]

def AcceptedHead (feeding : Feeding) : Prop :=
  feeding.parser.headersFinished = true ∧ feeding.parser.error = none ∧ feeding.raised = none

omit [CPython] in
theorem AcceptedHead.state {feeding : Feeding} {state : Reading}
    (accepted : feeding.AcceptedHead) (follows : feeding.Follows state) :
    state.IsHeaded ∧ state ≠ .failed ∧ state ≠ .raised := by
  obtain ⟨finished, sound, returned⟩ := accepted
  cases state with
  | heading text =>
      obtain ⟨-, rfl⟩ := follows
      cases finished
  | failed =>
      have failed := follows.2.2.1
      rw [sound] at failed
      cases failed
  | raised =>
      have raised := follows.2.2
      rw [returned] at raised
      cases raised
  | _ => exact ⟨trivial, Reading.noConfusion, Reading.noConfusion⟩

/-- An accepted head begins what the parser was given, and was parsed. -/
theorem AcceptedHead.parsed {adj : Adjustments} {used : Bytes} {feeding : Feeding}
    (accepted : feeding.AcceptedHead) (passes : (consumer adj).Passes {} used feeding) :
    ∃ head, HasHead adj used head ∧
      (head = [] ∨ ∃ request, exec (parseHeader adj head) {} = (.ok ⟨⟩, request)) := by
  have fresh : (simulation adj).related {} (.heading []) := ⟨by decide, rfl⟩
  obtain ⟨state, follows, agrees⟩ := (simulation adj).passes_agrees fresh passes
  obtain ⟨headed, notFailed, notRaised⟩ := accepted.state follows
  have runs : (reader adj).run (.heading []) used = (state, []) := by
    refine agrees.resolve_left fun broken => ?_
    change state.isBroken = true at broken
    cases state <;> first | exact notFailed rfl | exact notRaised rfl | cases broken
  by_cases empty : used = []
  · rw [empty, Incremental.Machine.run_nil, Prod.mk.injEq] at runs
    rw [← runs.1] at headed
    exact headed.elim
  rw [Reading.run_heading adj (by decide) empty, List.nil_append] at runs
  split at runs
  · exact absurd (Prod.mk.inj runs).1.symm notFailed
  · rename_i small
    cases found : findDoubleNewline used with
    | none =>
        rw [found] at runs
        rw [← (Prod.mk.inj runs).1] at headed
        exact headed.elim
    | some index =>
        rw [found] at runs small
        dsimp only [Option.getD_some] at runs small
        refine ⟨_, ⟨index, found, by omega, rfl⟩, Reading.headEnd_parsed ?_ ?_⟩
        · intro failed
          rw [failed, Reading.run_failed] at runs
          exact notFailed (Prod.mk.inj runs).1.symm
        · intro raised
          rw [raised, (reader adj).run_broken rfl] at runs
          exact notRaised (Prod.mk.inj runs).1.symm

theorem acceptedHead_onlyCrlf_iff (adj : Adjustments) {used : Bytes} {feeding : Feeding}
    (passes : (consumer adj).Passes {} used feeding) (accepted : feeding.AcceptedHead) :
    ∃ head, HasHead adj used head ∧
      (OnlyCrlf head ↔ CleanLine (trailingSpace (startLine head))) := by
  obtain ⟨head, hasHead, blank | ⟨request, parsed⟩⟩ := accepted.parsed passes
  · subst blank
    exact ⟨[], hasHead, by simp [onlyCrlf_nil, startLine, trailingSpace, CleanLine]⟩
  · refine ⟨head, hasHead, ?_⟩
    rw [parseHeader, exec_bind] at parsed
    rcases read : exec (parseLines head) {} with ⟨exc | cracked, lines⟩
    · rw [read] at parsed
      cases parsed
    · exact onlyCrlf_iff_of_parseLines read

theorem passes_whole {adj : Adjustments} {segment : Bytes} (nonempty : segment ≠ [])
    (whole : ((consumer adj).receive {} segment).2 = segment.length) :
    (consumer adj).Passes {} segment ((consumer adj).receive {} segment).1 := by
  have received := Incremental.Consumer.Passes.start.receive
    (show (consumer adj).done {} = false from rfl) nonempty
  rwa [whole, List.take_length, List.nil_append] at received

omit [CPython] in
theorem acceptedHead_onlyCrlf_get :
    let _ : CPython := .unchecked
    ∃ head, HasHead {} (ascii "GET / HTTP/1.1\r\nHost: a\r\n\r\n") head ∧
      (OnlyCrlf head ↔ CleanLine (trailingSpace (startLine head))) := by
  intro cpython
  refine acceptedHead_onlyCrlf_iff {} (passes_whole (by decide) (by decide +kernel)) ?_
  unfold AcceptedHead
  decide +kernel

omit [CPython] in
/-- The line feed before the first CRLF is stripped, and the request is accepted. -/
theorem not_acceptedHead_onlyCrlf :
    let _ : CPython := .unchecked
    ∃ used feeding head, (consumer {}).Passes {} used feeding ∧ feeding.AcceptedHead ∧
      HasHead {} used head ∧ ¬ OnlyCrlf head := by
  intro cpython
  refine ⟨ascii "GET / HTTP/1.1\n\r\nHost: a\r\n\r\n", _,
    ascii "GET / HTTP/1.1\n\r\nHost: a\r\n\r\n",
    passes_whole (by decide) (by decide +kernel), ?_, ?_, ?_⟩
  · unfold AcceptedHead
    decide +kernel
  · exact ⟨28, by decide +kernel, by decide, by decide +kernel⟩
  · intro only
    obtain ⟨before, same, ret⟩ := (only 14).2 (by decide)
    obtain rfl : 13 = before := Nat.succ.inj same
    exact absurd ret (by decide)

end Feeding

end Waitress
