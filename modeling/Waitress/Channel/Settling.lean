import Waitress.Channel.Failures
import Waitress.Channel.Waiting

/-!
# The end of a call of `service`

A call that returns has closed its request and popped it, or has closed and
dropped the whole queue.
-/

namespace Waitress

open Raising

def ServicePosition.work : ServicePosition → Option Numbered
  | .working request => some request
  | _ => none

namespace HTTPChannel

/-- A call that has closed its request has it among the closed ones. -/
def ClosesDrained (channel : HTTPChannel) : Prop :=
  ∀ request, .drained request ∈ channel.running → request.number ∈ channel.closed

variable (context : ChannelContext)

theorem sendContinue_closed_same :
    Within (SameView HTTPChannel.closed) (sendContinue context) := by
  intro channel
  cases current : channel.request with
  | none =>
      rw [sendContinue, exec_get_bind, current]
      rfl
  | some request =>
      obtain ⟨result, output, completed, -, -, done⟩ := exec_sendContinue context current
      rw [done]
      rfl

theorem takeRequest_closed_same (channel : HTTPChannel) :
    channel.closed = channel.takeRequest.closed := by
  unfold takeRequest
  repeat' split
  all_goals rfl

theorem received_closed_same [CPython] (data : Bytes) :
    Within (SameView HTTPChannel.closed) (received context data) := by
  refine received_within (fun data => ?_) (continueIfAlone_within (sendContinue_closed_same context))
    takeRequest_closed_same data
  refine within_bind within_get fun channel => ?_
  exact within_bind (within_modify fun _ => rfl) fun _ => within_ofExcept _

theorem ClosesDrained.next [CPython] {action : Action} {channel after : HTTPChannel}
    (closes : channel.ClosesDrained)
    (taken : HTTPChannel.next context action channel = some after) : after.ClosesDrained := by
  have same : ∀ {other : HTTPChannel}, other.running = channel.running →
      other.closed = channel.closed → other.ClosesDrained := by
    intro other running closed
    rw [ClosesDrained, running, closed]
    exact closes
  have moved : ∀ {i : Nat} {position : ServicePosition} {other : HTTPChannel},
      (∀ request, position ≠ .drained request) → other.running = channel.running.set i position →
      other.closed = channel.closed → other.ClosesDrained := by
    intro i position other drained running closed request mem
    rw [running] at mem
    rw [closed]
    rcases List.mem_or_eq_of_mem_set mem with old | new
    · exact closes request old
    · exact absurd new.symm (drained request)
  have left : ∀ {i : Nat} {other : HTTPChannel}, other.running = channel.running.eraseIdx i →
      channel.closed ⊆ other.closed → other.ClosesDrained := by
    intro i other running closed request mem
    rw [running] at mem
    exact closed (closes request (List.mem_of_mem_eraseIdx mem))
  have prepared : ∀ {i : Nat} {request : Numbered} {other : HTTPChannel},
      Prepares i request channel other → other.ClosesDrained := by
    rintro i request other ⟨-, -, kept, drained⟩ named mem
    rcases List.mem_or_eq_of_mem_set mem with old | new
    · exact kept (closes named old)
    · exact drained named new.symm
  cases next_steps context taken with
  | read main =>
      rename_i data
      have closed := received_closed_same context data channel
      have running := (received_receives context data channel).running
      obtain ⟨_, read⟩ := handleRead_main context data channel
      rw [read]
      exact same running closed.symm
  | flush main =>
      unfold flushBeforeClose
      dsimp only
      split
      · exact same rfl rfl
      · exact same rfl rfl
  | close main =>
      unfold closeIfWillClose
      split
      · exact same rfl rfl
      · exact same rfl rfl
  | maintain main =>
      unfold maintain
      split
      · exact same rfl rfl
      · exact closes
  | pop queued =>
      intro request mem
      rcases List.mem_append.mp mem with old | new
      · exact closes request old
      · cases List.mem_singleton.mp new
  | startTask found =>
      unfold HTTPChannel.startTask
      split
      · exact left rfl (fun _ mem => mem)
      · exact moved (fun _ => ServicePosition.noConfusion) rfl rfl
  | testConnected found =>
      split
      · exact moved (fun _ => ServicePosition.noConfusion) rfl rfl
      · exact moved (fun _ => ServicePosition.noConfusion) rfl rfl
  | endTask found =>
      unfold HTTPChannel.endTask
      split
      · exact moved (fun _ => ServicePosition.noConfusion) rfl rfl
      · exact moved (fun _ => ServicePosition.noConfusion) rfl rfl
      · exact left rfl (fun _ mem => mem)
  | settle found => exact left rfl (List.subset_append_left _ _)
  | drain found => exact prepared (drain_prepares context _ _ channel)
  | flushBelow found => exact prepared (flushBelow_prepares context _ _ channel)
  | wake found => exact prepared (wake_prepares context _ channel)
  | resume found =>
      unfold HTTPChannel.resume
      split
      · exact left rfl (fun _ mem => mem)
      rename_i first rest queue
      have closed := sendContinue_closed_same context { channel with requests := rest }
      have running := (sendContinue_continues context { channel with requests := rest }).running
      dsimp only
      repeat' split
      · exact left rfl (fun _ mem => mem)
      · rename_i done
        rw [done] at closed running
        exact left (congrArg (List.eraseIdx · _) running) (fun _ mem => closed ▸ mem)
      · rename_i done
        rw [done] at closed running
        exact left (congrArg (List.eraseIdx · _) running) (fun _ mem => closed ▸ mem)
      · exact left rfl (fun _ mem => mem)
  | _ => exact same rfl rfl

def EndsCall (before after : HTTPChannel) : Prop := after.running.length < before.running.length

/-- The call has returned; its request was closed and popped, or the queue was closed. -/
def Settled (before after : HTTPChannel) : Prop :=
  after.leaving = before.leaving + 1 ∧
    ∃ request rest, before.requests = request :: rest ∧
      (request.number ∈ after.closed ∧ after.requests = rest ∨
        after.output.closeWhenFlushed = true ∧ after.requests = [] ∧
          ∀ queued ∈ before.requests, queued.number ∈ after.closed)

/-- The line for the next request is sent without an exception, if one is due. -/
def ContinueSends (channel : HTTPChannel) : Prop :=
  channel.output.connected = true → channel.requests.tail = [] →
    channel.waitsForContinue = true →
      (exec (sendContinueOutput context) channel.output.answering).1 = .ok ()

theorem result_sendContinue {channel : HTTPChannel} (waits : channel.waitsForContinue = true) :
    (exec (sendContinue context) channel).1 =
      (exec (sendContinueOutput context) channel.output.answering).1 := by
  obtain ⟨request, current, -⟩ := (Option.any_eq_true _ _).mp waits
  rw [sendContinue, exec_get_bind, current]
  dsimp only
  rw [exec_modify_bind, exec_get_bind]
  dsimp only
  rw [exec_modify_bind, exec_bind, exec_ofExcept]
  generalize exec (sendContinueOutput context) channel.output.answering = outcome
  obtain ⟨exc | ⟨⟩, output⟩ := outcome
  · rfl
  · rfl

theorem settled_resume {channel : HTTPChannel} (closes : channel.ClosesDrained) {i : Nat}
    {request : Numbered} {rest : List Numbered} (queue : channel.requests = request :: rest)
    (found : channel.running[i]? = some (.drained request)) :
    (EndsCall channel (resume context i channel) → Settled channel (resume context i channel)) ↔
      ContinueSends context channel := by
  have closed : request.number ∈ channel.closed := closes request (List.mem_of_getElem? found)
  have inside : i < channel.running.length := (List.getElem?_eq_some_iff.mp found).1
  have tail : channel.requests.tail = rest := by rw [queue]; rfl
  rw [ContinueSends, tail]
  unfold HTTPChannel.resume
  split
  · rename_i empty
    cases queue.symm.trans empty
  rename_i first others same
  obtain ⟨rfl, rfl⟩ := List.cons.inj (queue.symm.trans same)
  have returns : ∀ {after : HTTPChannel}, after.leaving = channel.leaving + 1 →
      after.closed = channel.closed → after.requests = rest → Settled channel after :=
    fun left kept popped => ⟨left, request, rest, queue, .inl ⟨by rwa [kept], popped⟩⟩
  dsimp only
  split
  · rename_i more
    exact ⟨fun _ _ empty => absurd empty more.2, fun _ _ => returns rfl rfl rfl⟩
  rename_i others
  split
  · rename_i waits
    have empty : rest = [] := by
      by_contra more
      exact others ⟨waits.1, more⟩
    have popped : waitsForContinue { channel with requests := rest } = true := waits.2
    have result := result_sendContinue context popped
    have continues := sendContinue_continues context { channel with requests := rest }
    have kept := sendContinue_closed_same context { channel with requests := rest }
    generalize exec (sendContinue context) { channel with requests := rest } = outcome
      at result continues kept ⊢
    obtain ⟨exc | ⟨⟩, middle⟩ := outcome
    · dsimp only
      constructor
      · intro settles
        have ends : EndsCall channel (middle.escape i) := by
          change (middle.running.eraseIdx i).length < channel.running.length
          rw [continues.running, List.length_eraseIdx_of_lt inside]
          omega
        have left := (settles ends).1
        have stays : (middle.escape i).leaving = channel.leaving := continues.leaving
        omega
      · intro sends
        cases result.trans (sends waits.1 empty waits.2)
    · dsimp only
      constructor
      · exact fun _ _ _ _ => result.symm
      · exact fun _ _ => returns (congrArg (· + 1) continues.leaving) kept.symm continues.requests
  · rename_i quiet
    exact ⟨fun _ connected _ waits => absurd ⟨connected, waits⟩ quiet, fun _ _ => returns rfl rfl rfl⟩

def NoneEscapes (action : Action) (channel : HTTPChannel) : Prop :=
  match action with
  | .endTask i application surroundings =>
      ∀ request ∈ channel.running[i]?.bind ServicePosition.work,
        Handled { surroundings with adj := context.adj } request.parser application
  | .resume _ => ContinueSends context channel
  | _ => True

instance (action : Action) (channel : HTTPChannel) : Decidable (NoneEscapes context action channel) :=
  match action with
  | .endTask i _ _ => Option.decidableForallMem (o := channel.running[i]?.bind ServicePosition.work)
  | .resume _ => inferInstanceAs (Decidable (_ → _ → _ → _))
  | .read _ | .readNothing | .readFails | .flush _ | .handOver | .close | .maintain | .cancel | .pop
  | .startTask _ | .testConnected _ | .write .. | .settle _ | .drain _ | .flushBelow _ | .wake _
  | .return_ => .isTrue trivial

theorem settled_iff [CPython] {action : Action} {before after : HTTPChannel}
    (stage : before.Stage) (closes : before.ClosesDrained)
    (taken : HTTPChannel.next context action before = some after) :
    (EndsCall before after → Settled before after) ↔ NoneEscapes context action before := by
  have goesOn : ∀ {other : HTTPChannel}, before.running.length ≤ other.running.length →
      (EndsCall before other → Settled before other) :=
    fun more ends => absurd ends (Nat.not_lt_of_ge more)
  have trivially : ∀ {other : HTTPChannel}, before.running.length ≤ other.running.length →
      ((EndsCall before other → Settled before other) ↔ True) :=
    fun more => iff_true_intro (goesOn more)
  have length : ∀ {i : Nat} {position : ServicePosition},
      before.running.length ≤ (before.running.set i position).length := by
    intro i position
    rw [List.length_set]
  cases next_steps context taken with
  | read main =>
      apply trivially
      rcases handleRead_receives context _ main with same | ⟨-, receives⟩
      · rw [same]
      · rw [receives.running]
  | flush main =>
      apply trivially
      rw [(flushBeforeClose_keepsQueue context _ main).running]
  | close main =>
      apply trivially
      rw [(closeIfWillClose_keepsQueue main).running]
  | maintain main =>
      apply trivially
      rw [(maintain_keepsQueue before).running]
  | pop queued =>
      apply trivially
      change _ ≤ (before.running ++ [_]).length
      rw [List.length_append]
      exact Nat.le_add_right _ _
  | startTask found =>
      obtain ⟨-, -, -, nonempty, -⟩ := stage.at_popped found
      apply trivially
      unfold HTTPChannel.startTask
      split
      · contradiction
      · exact length
  | testConnected found => exact trivially length
  | endTask found =>
      rename_i i application surroundings request
      have inside : i < before.running.length := (List.getElem?_eq_some_iff.mp found).1
      have returns : NoneEscapes context (.endTask i application surroundings) before ↔
          Handled { surroundings with adj := context.adj } request.parser application := by
        rw [NoneEscapes, found]
        constructor
        · exact fun handled => handled request rfl
        · rintro handled other ⟨⟩
          exact handled
      rw [returns, handled_iff]
      unfold HTTPChannel.endTask
      split
      · exact ⟨fun _ => ⟨true, by assumption⟩, fun _ => goesOn length⟩
      · exact ⟨fun _ => ⟨false, by assumption⟩, fun _ => goesOn length⟩
      · rename_i exc failed
        constructor
        · intro settles
          have ends : EndsCall before (before.escape i) := by
            change (before.running.eraseIdx i).length < before.running.length
            rw [List.length_eraseIdx_of_lt inside]
            omega
          have left := (settles ends).1
          exact absurd left (Nat.ne_of_lt (Nat.lt_succ_self before.leaving))
        · rintro ⟨closes, ok⟩
          cases failed.symm.trans ok
  | settle found =>
      obtain ⟨-, -, -, rest, queue, -⟩ := stage.at_request found rfl
      refine iff_true_intro fun _ => ⟨rfl, _, rest, queue, .inr ⟨rfl, rfl, fun queued mem => ?_⟩⟩
      exact List.mem_append_right _ (List.mem_map_of_mem mem)
  | drain found => exact trivially (drain_prepares context _ _ before).calls.ge
  | flushBelow found => exact trivially (flushBelow_prepares context _ _ before).calls.ge
  | wake found => exact trivially (wake_prepares context _ before).calls.ge
  | resume found =>
      obtain ⟨-, -, -, rest, queue, -⟩ := stage.at_request found rfl
      exact settled_resume context closes queue found
  | _ => exact trivially (Nat.le_refl _)

/-- The call of this step neither ends with an exception nor gets to a wait that nobody ends. -/
def ReturnsFrom (action : Action) (channel : HTTPChannel) : Prop :=
  NoneEscapes context action channel ∧ ¬ (action.isLook = true ∧ channel.LeavesBytes)

instance (channel : HTTPChannel) : Decidable channel.LeavesBytes :=
  inferInstanceAs (Decidable (_ ∧ ¬ (_ ∧ _)))

instance (action : Action) (channel : HTTPChannel) : Decidable (ReturnsFrom context action channel) :=
  inferInstanceAs (Decidable (_ ∧ _))

theorem run_closesDrained [CPython] {socket : List SendResult} {actions : List Action}
    {channel : HTTPChannel}
    (ran : Transition.run (next context) actions (HTTPChannel.new context socket) = some channel) :
    channel.ClosesDrained := by
  have start : (HTTPChannel.new context socket).ClosesDrained := fun _ absent => by cases absent
  exact Transition.run_invariant (fun _ _ _ closes taken => closes.next context taken) start ran

/-- In every run a step settles the queue if it ends a call, and leads to no hang, exactly if
it meets the condition. -/
theorem run_returnsFrom_iff [CPython] {socket : List SendResult} {actions : List Action}
    {action : Action} {before after : HTTPChannel}
    (ran : Transition.run (next context) actions (HTTPChannel.new context socket) = some before)
    (taken : next context action before = some after) :
    (EndsCall before after → Settled before after) ∧ (after.Hangs → before.Hangs) ↔
      ReturnsFrom context action before := by
  have watched : Watched context before := Transition.run_invariant
    (fun _ _ _ watched taken => watched.next context taken) (Watched.new context socket) ran
  exact and_congr (settled_iff context watched.stage (run_closesDrained context ran) taken)
    (hangs_iff context watched taken)

end HTTPChannel

end Waitress
