import Waitress.Library.Transition
import Waitress.Python

/-!
# The trigger

Another thread wakes the main thread up by a byte in a pipe that `select`
watches, and may leave a callback for it.  What is under `lock` is one step on
the side of `pull_trigger`; on the side of `handle_read` it is a loop over the
callbacks, during which nothing can be appended.
-/

namespace Waitress

structure Trigger (Thunk : Type) where
  closed : Bool := false
  /-- The number of bytes in the pipe. -/
  pipe : Nat := 0
  thunks : List Thunk := []
  deriving DecidableEq, Repr

namespace Trigger

variable {Thunk : Type}

/-- `os.write`, which raises once the pipe was closed. -/
def physicalPull (trigger : Trigger Thunk) : Except Exc (Trigger Thunk) :=
  if trigger.closed = true then .error .osError else .ok { trigger with pipe := trigger.pipe + 1 }

/-- `self.recv(8192)`, which raises if there is nothing to read. -/
def recv (trigger : Trigger Thunk) : Except Exc (Trigger Thunk) :=
  if trigger.pipe = 0 then .error .osError
  else .ok { trigger with pipe := trigger.pipe - min 8192 trigger.pipe }

theorem closed_recv {trigger after : Trigger Thunk} (received : trigger.recv = .ok after) :
    after.closed = trigger.closed := by
  unfold recv at received
  split at received
  · cases received
  · cases received
    rfl

def close (trigger : Trigger Thunk) : Trigger Thunk := { trigger with closed := true }

/-- Where the main thread is in `handle_read`. -/
inductive Reader (Thunk : Type) where
  | idle
  /-- Behind `recv`. -/
  | received
  /-- In the loop under the lock. -/
  | running (rest : List Thunk)
  deriving DecidableEq, Repr

/-- A trigger and its threads.  The last three fields record what happened. -/
structure Shared (Thunk : Type) where
  trigger : Trigger Thunk := {}
  reader : Reader Thunk := .idle
  /-- The calls of `pull_trigger` in front of `_physical_pull`. -/
  pulling : Nat := 0
  appended : List Thunk := []
  ran : List Thunk := []
  /-- The exceptions that went to the log. -/
  logged : List Exc := []

namespace Shared

/-- The first part of `pull_trigger`. -/
def pullTrigger (thunk : Option Thunk) (shared : Shared Thunk) : Shared Thunk :=
  { shared with
    trigger.thunks := shared.trigger.thunks ++ thunk.toList
    pulling := shared.pulling + 1
    appended := shared.appended ++ thunk.toList }

def physicalPull (shared : Shared Thunk) : Shared Thunk :=
  match shared.trigger.physicalPull with
  | .ok trigger => { shared with trigger, pulling := shared.pulling - 1 }
  | .error _ => { shared with pulling := shared.pulling - 1 }

/-- `handle_read` up to the lock. -/
def recv (shared : Shared Thunk) : Shared Thunk :=
  match shared.trigger.recv with
  | .ok trigger => { shared with trigger, reader := .received }
  | .error _ => shared

/-- A round of the loop, in which the callback may raise. -/
def callThunk (thunk : Thunk) (rest : List Thunk) (outcome : Except Exc Unit)
    (shared : Shared Thunk) : Shared Thunk :=
  { shared with
    reader := .running rest
    ran := shared.ran ++ [thunk]
    logged :=
      match outcome with
      | .ok () => shared.logged
      | .error exc => shared.logged ++ [exc] }

inductive Action (Thunk : Type) where
  | pullTrigger (thunk : Option Thunk)
  | physicalPull
  | recv
  | acquire
  | callThunk (outcome : Except Exc Unit)
  | release
  | close

def next (action : Action Thunk) (shared : Shared Thunk) : Option (Shared Thunk) :=
  match action, shared.reader with
  | .pullTrigger none, _ => some (shared.pullTrigger none)
  -- The lock is held during the loop.
  | .pullTrigger (some _), .running _ => none
  | .pullTrigger (some thunk), _ => some (shared.pullTrigger (some thunk))
  | .physicalPull, _ => if shared.pulling > 0 then some shared.physicalPull else none
  | .recv, .idle => if shared.trigger.closed = false then some shared.recv else none
  | .acquire, .received => some { shared with reader := .running shared.trigger.thunks }
  | .callThunk outcome, .running (thunk :: rest) => some (shared.callThunk thunk rest outcome)
  | .release, .running [] => some { shared with trigger.thunks := [], reader := .idle }
  | .close, .idle => some { shared with trigger := shared.trigger.close }
  | _, _ => none

def remaining (shared : Shared Thunk) : List Thunk :=
  match shared.reader with
  | .running rest => rest
  | _ => shared.trigger.thunks

/-- A callback that waits is going to be noticed: there is a byte in the pipe, or
about to be written, or the main thread has not looked at the list yet. -/
def Noticed (shared : Shared Thunk) : Prop :=
  0 < shared.trigger.pipe ∨ 0 < shared.pulling ∨ shared.reader ≠ .idle

/-- Every callback is called once, in the order of the calls of `pull_trigger`, and
none of them waits unnoticed. -/
structure Prompt (shared : Shared Thunk) : Prop where
  once : shared.appended = shared.ran ++ shared.remaining
  noticed : shared.trigger.closed = false → shared.remaining ≠ [] → shared.Noticed

inductive Steps (shared : Shared Thunk) : Action Thunk → Shared Thunk → Prop where
  | pullTrigger {thunk : Option Thunk} :
      (thunk ≠ none → ∀ rest, shared.reader ≠ .running rest) →
      Steps shared (.pullTrigger thunk) (shared.pullTrigger thunk)
  | physicalPull : 0 < shared.pulling → Steps shared .physicalPull shared.physicalPull
  | recv : shared.reader = .idle → Steps shared .recv shared.recv
  | acquire : shared.reader = .received →
      Steps shared .acquire { shared with reader := .running shared.trigger.thunks }
  | callThunk {thunk : Thunk} {rest : List Thunk} {outcome : Except Exc Unit} :
      shared.reader = .running (thunk :: rest) →
      Steps shared (.callThunk outcome) (shared.callThunk thunk rest outcome)
  | release : shared.reader = .running [] →
      Steps shared .release { shared with trigger.thunks := [], reader := .idle }
  | close : Steps shared .close { shared with trigger := shared.trigger.close }

theorem next_steps {action : Action Thunk} {shared after : Shared Thunk}
    (taken : next action shared = some after) : Steps shared action after := by
  unfold next at taken
  split at taken
  · cases taken
    exact .pullTrigger fun named => absurd rfl named
  · cases taken
  · rename_i thunk notRunning
    cases taken
    exact .pullTrigger fun _ rest running => notRunning rest running
  · split at taken
    · rename_i pulling
      cases taken
      exact .physicalPull pulling
    · cases taken
  · rename_i idle
    split at taken
    · cases taken
      exact .recv idle
    · cases taken
  · rename_i received
    cases taken
    exact .acquire received
  · rename_i running
    cases taken
    exact .callThunk running
  · rename_i running
    cases taken
    exact .release running
  · cases taken
    exact .close
  · cases taken

theorem remaining_of_not_running {shared : Shared Thunk}
    (notRunning : ∀ rest, shared.reader ≠ .running rest) :
    shared.remaining = shared.trigger.thunks := by
  rw [remaining]
  split
  · rename_i rest running
    exact absurd running (notRunning rest)
  · rfl

theorem Prompt.of_same {before after : Shared Thunk} (prompt : before.Prompt)
    (appended : after.appended = before.appended) (ran : after.ran = before.ran)
    (remaining : after.remaining = before.remaining)
    (noticed : after.trigger.closed = false → before.trigger.closed = false ∧
      (before.Noticed → after.Noticed)) : after.Prompt where
  once := by
    rw [appended, ran, remaining]
    exact prompt.once
  noticed isOpen waiting := by
    obtain ⟨wasOpen, still⟩ := noticed isOpen
    exact still (prompt.noticed wasOpen (remaining ▸ waiting))

theorem Prompt.pullTrigger {shared : Shared Thunk} (prompt : shared.Prompt) {thunk : Option Thunk}
    (free : thunk ≠ none → ∀ rest, shared.reader ≠ .running rest) :
    (shared.pullTrigger thunk).Prompt where
  once := by
    cases thunk with
    | none =>
        have once := prompt.once
        simpa [Shared.pullTrigger, remaining] using once
    | some thunk =>
        have notRunning := free (Option.some_ne_none _)
        have once := prompt.once
        rw [remaining_of_not_running notRunning] at once
        rw [@remaining_of_not_running _ (shared.pullTrigger (some thunk)) notRunning]
        change shared.appended ++ [thunk] = shared.ran ++ (shared.trigger.thunks ++ [thunk])
        rw [once, List.append_assoc]
  noticed _ _ := .inr (.inl (Nat.succ_pos _))

theorem Prompt.physicalPull {shared : Shared Thunk} (prompt : shared.Prompt) :
    shared.physicalPull.Prompt := by
  unfold Shared.physicalPull Trigger.physicalPull
  by_cases isClosed : shared.trigger.closed = true
  · simp only [if_pos isClosed]
    refine prompt.of_same rfl rfl rfl fun isOpen => ?_
    exact absurd (isOpen.symm.trans isClosed) Bool.false_ne_true
  · simp only [if_neg isClosed]
    exact prompt.of_same rfl rfl rfl fun isOpen => ⟨isOpen, fun _ => .inl (Nat.succ_pos _)⟩

theorem Prompt.recv {shared : Shared Thunk} (prompt : shared.Prompt)
    (idle : shared.reader = .idle) : shared.recv.Prompt := by
  unfold Shared.recv Trigger.recv
  by_cases empty : shared.trigger.pipe = 0
  · simp only [if_pos empty]
    exact prompt
  · simp only [if_neg empty]
    refine prompt.of_same rfl rfl ?_ fun isOpen => ⟨isOpen, fun _ => .inr (.inr nofun)⟩
    simp only [remaining, idle]

/-- Under the lock the main thread is not idle, so that nothing can wait unnoticed. -/
theorem Prompt.next {action : Action Thunk} {shared after : Shared Thunk} (prompt : shared.Prompt)
    (taken : next action shared = some after) : after.Prompt := by
  have once := prompt.once
  cases next_steps taken with
  | pullTrigger free => exact prompt.pullTrigger free
  | physicalPull pulling => exact prompt.physicalPull
  | recv idle => exact prompt.recv idle
  | acquire received =>
      refine ⟨?_, fun _ _ => .inr (.inr nofun)⟩
      simpa only [remaining, received] using once
  | callThunk running =>
      refine ⟨?_, fun _ _ => .inr (.inr nofun)⟩
      rw [remaining, running] at once
      exact once.trans (List.append_cons _ _ _)
  | release running =>
      refine ⟨?_, fun _ waiting => absurd rfl waiting⟩
      simpa only [remaining, running] using once
  | close => exact ⟨once, fun isOpen => absurd isOpen Bool.true_eq_false.mp⟩

/-- Whatever the order of the steps, each callback is called exactly once and in
order, one that raises like any other, and none is left behind unnoticed. -/
theorem run_prompt {actions : List (Action Thunk)} {shared : Shared Thunk}
    (ran : Transition.run Shared.next actions {} = some shared) : shared.Prompt := by
  apply Transition.run_invariant (fun _ _ _ prompt taken => Prompt.next prompt taken) ?_ ran
  exact ⟨rfl, fun _ waiting => absurd rfl waiting⟩

/-- A second callback arrives between the read and the lock, and its byte later. -/
theorem run_prompt_sample :
    ∃ shared : Shared Nat,
      Transition.run Shared.next
        [.pullTrigger (some 1), .physicalPull, .recv, .pullTrigger (some 2), .acquire,
          .callThunk (.error .valueError), .callThunk (.ok ()), .release, .physicalPull] {} =
        some shared ∧
      shared.ran = [1, 2] ∧ shared.trigger.pipe = 1 ∧ shared.Prompt := by
  obtain ⟨shared, ran, called, bytes⟩ : ∃ shared : Shared Nat,
      Transition.run Shared.next
        [.pullTrigger (some 1), .physicalPull, .recv, .pullTrigger (some 2), .acquire,
          .callThunk (.error .valueError), .callThunk (.ok ()), .release, .physicalPull] {} =
        some shared ∧ shared.ran = [1, 2] ∧ shared.trigger.pipe = 1 := ⟨_, rfl, rfl, rfl⟩
  exact ⟨shared, ran, called, bytes, run_prompt ran⟩

end Shared

end Trigger

end Waitress
