import Waitress.Task.Texts

/-!
# `start_response`

What a call makes of its status and of its headers, as an equation.
-/

namespace Waitress

open Raising

namespace Str

def IsInline (c : Char) : Prop := c ≠ '\n' ∧ c ≠ '\r'

instance : DecidablePred IsInline := fun c => inferInstanceAs (Decidable (c ≠ '\n' ∧ c ≠ '\r'))

theorem IsPlain.isInline (c : Char) (plain : IsPlain c) : IsInline c := by
  constructor
  · rintro rfl
    exact absurd plain (by decide)
  · rintro rfl
    exact absurd plain (by decide)

theorem of_isInline {text : Str} : Of IsInline text ↔ ¬ ('\n' ∈ text ∨ '\r' ∈ text) := by
  rw [not_or]
  constructor
  · exact fun inline => ⟨fun feed => (inline _ feed).1 rfl, fun ret => (inline _ ret).2 rfl⟩
  · rintro ⟨noFeed, noReturn⟩ c mem
    refine ⟨?_, ?_⟩
    · rintro rfl
      exact noFeed mem
    · rintro rfl
      exact noReturn mem

end Str

/-- The length that a header gives, or the reason to refuse it. -/
def headerOutcome (header : Str × Str) : Except Exc (Option Int) :=
  if '\n' ∈ header.2 ∨ '\r' ∈ header.2 then .error .valueError
  else if '\n' ∈ header.1 ∨ '\r' ∈ header.1 then .error .valueError
  else if Str.lower header.1 = "content-length".toList then (intOfStr header.2).map some
  else if Str.lower header.1 ∈ hopByHop then .error .assertionError
  else .ok none

def headersOutcome : List (Str × Str) → Except Exc Unit × Option Int
  | [] => (.ok (), none)
  | header :: headers =>
      match headerOutcome header with
      | .error exc => (.error exc, none)
      | .ok length => ((headersOutcome headers).1, (headersOutcome headers).2.or length)

theorem exec_checkHeader (header : Str × Str) (task : Task) :
    exec (checkHeader header) task =
      match headerOutcome header with
      | .error exc => (.error exc, task)
      | .ok length => (.ok (), { task with contentLength := length.or task.contentLength }) := by
  unfold checkHeader headerOutcome
  split
  · rfl
  split
  · rfl
  split
  · rw [exec_bind, exec_ofExcept]
    cases intOfStr header.2 with
    | error exc => rfl
    | ok length => rfl
  split
  · rfl
  · rfl

theorem exec_forM_checkHeader (headers : List (Str × Str)) (task : Task) :
    exec (forM headers checkHeader) task =
      ((headersOutcome headers).1,
        { task with contentLength := (headersOutcome headers).2.or task.contentLength }) := by
  induction headers generalizing task with
  | nil => rfl
  | cons header headers inductionHypothesis =>
      rw [List.forM_cons, exec_bind, exec_checkHeader, headersOutcome]
      cases headerOutcome header with
      | error exc => rfl
      | ok length =>
          dsimp only
          rw [inductionHypothesis, Option.or_assoc]

theorem exec_setResponse (status : Str) (headers : List (Str × Str)) (task : Task) :
    exec (setResponse status headers) task =
      if '\n' ∈ status ∨ '\r' ∈ status then (.error .valueError, { task with complete := true })
      else
        ((headersOutcome headers).1,
          { task with
            complete := true
            status
            contentLength := (headersOutcome headers).2.or task.contentLength
            responseHeaders :=
              if (headersOutcome headers).1 = .ok () then task.responseHeaders ++ headers
              else task.responseHeaders }) := by
  rw [setResponse, exec_modify_bind]
  split
  · rfl
  · rw [exec_modify_bind, exec_bind, exec_forM_checkHeader]
    dsimp only
    cases (headersOutcome headers).1 with
    | error exc => rfl
    | ok => rfl

theorem exec_setResponse_ok {status : Str} {headers : List (Str × Str)} {task after : Task}
    (accepted : exec (setResponse status headers) task = (.ok (), after)) :
    Str.Of Str.IsInline status ∧ (headersOutcome headers).1 = .ok () ∧
      after =
        { task with
          complete := true
          status
          contentLength := (headersOutcome headers).2.or task.contentLength
          responseHeaders := task.responseHeaders ++ headers } := by
  rw [exec_setResponse] at accepted
  split at accepted
  · cases (Prod.mk.inj accepted).1
  · rename_i inline
    obtain ⟨outcome, rfl⟩ := Prod.mk.inj accepted
    rw [if_pos outcome]
    exact ⟨Str.of_isInline.mpr inline, outcome, rfl⟩

theorem headerOutcome_ok {header : Str × Str} {length : Option Int}
    (accepted : headerOutcome header = .ok length) :
    Str.Of Str.IsInline header.1 ∧ Str.Of Str.IsInline header.2 := by
  unfold headerOutcome at accepted
  split at accepted
  · cases accepted
  split at accepted
  · cases accepted
  rename_i value name
  exact ⟨Str.of_isInline.mpr name, Str.of_isInline.mpr value⟩

/-- The headers of an accepted call stay within their lines. -/
theorem headersOutcome_ok {headers : List (Str × Str)} (accepted : (headersOutcome headers).1 = .ok ()) :
    Task.Texts Str.IsInline headers := by
  induction headers with
  | nil => exact fun header mem => absurd mem List.not_mem_nil
  | cons header headers inductionHypothesis =>
      rw [headersOutcome] at accepted
      cases outcome : headerOutcome header with
      | error exc =>
          rw [outcome] at accepted
          cases accepted
      | ok length =>
          rw [outcome] at accepted
          exact List.forall_mem_cons.mpr ⟨headerOutcome_ok outcome, inductionHypothesis accepted⟩

end Waitress
