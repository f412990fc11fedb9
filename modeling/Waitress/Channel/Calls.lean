import Waitress.Channel.Stages

/-!
# A channel seen from its server

What a step of a channel does to the numbers of its tasks and calls, and to what
the main thread goes by.  As long as no exception escapes, somebody is going to
serve the requests that wait.
-/

namespace Waitress

open Raising

namespace HTTPChannel

def Action.IsMain : Action → Prop
  | .read _ => True
  | .readNothing => True
  | .readFails => True
  | .flush _ => True
  | .handOver => True
  | .close => True
  | .maintain => True
  | _ => False

/-- A step of a call of `service`, up to its last section under the lock. -/
def Action.isService : Action → Bool
  | .startTask _ => true
  | .testConnected _ => true
  | .write _ _ => true
  | .endTask _ _ _ => true
  | .settle _ => true
  | .drain _ => true
  | .flushBelow _ => true
  | .wake _ => true
  | .resume _ => true
  | _ => false

/-- The number of calls in front of the end of their last section, and of those behind. -/
def calls (channel : HTTPChannel) : Nat × Nat := (channel.running.length, channel.leaving)

inductive CallGoes : Nat × Nat → Nat × Nat → Prop where
  | on {calls : Nat × Nat} : CallGoes calls calls
  | escapes {running leaving : Nat} : CallGoes (running + 1, leaving) (running, leaving)
  | leaves {running leaving : Nat} : CallGoes (running + 1, leaving) (running, leaving + 1)

def AddsTask (before after : HTTPChannel) : Prop :=
  after.pendingTasks = before.pendingTasks ∨ after.pendingTasks = before.pendingTasks + 1

/-- What `received` and `send_continue` leave alone. -/
structure Unmoved (before after : HTTPChannel) : Prop where
  leaving : after.leaving = before.leaving
  main : after.main = before.main
  connected : after.output.connected = true → before.output.connected = true

instance : IsPreorder HTTPChannel Unmoved where
  refl _ := ⟨rfl, rfl, id⟩
  trans _ _ _ first second :=
    ⟨second.leaving.trans first.leaving, second.main.trans first.main,
      first.connected ∘ second.connected⟩

variable (context : ChannelContext)

/-! ### Receiving -/

theorem sendContinue_unmoved : Within Unmoved (sendContinue context) := by
  intro channel
  cases current : channel.request with
  | none =>
      rw [sendContinue, exec_get_bind, current]
      exact refl channel
  | some request =>
      obtain ⟨result, output, completed, sent, -, done⟩ := exec_sendContinue context current
      rw [done]
      refine ⟨rfl, rfl, fun connected => ?_⟩
      rcases sent with rfl | sent
      · exact connected
      · exact sent.connected connected

theorem takeRequest_unmoved (channel : HTTPChannel) : Unmoved channel channel.takeRequest := by
  unfold takeRequest
  cases channel.request with
  | none => exact refl channel
  | some request =>
      dsimp only
      split
      · exact refl channel
      · split
        · exact ⟨rfl, rfl, id⟩
        · exact ⟨rfl, rfl, id⟩

theorem receiveRequest_unmoved [CPython] (data : Bytes) :
    Within Unmoved (receiveRequest context data) := by
  refine within_get_bind fun channel => ?_
  dsimp only
  rw [exec_modify_bind, exec_ofExcept]
  exact ⟨rfl, rfl, id⟩

theorem received_unmoved [CPython] (data : Bytes) :
    Within Unmoved (received context data) :=
  received_within (receiveRequest_unmoved context)
    (continueIfAlone_within (sendContinue_unmoved context)) takeRequest_unmoved data

/-! ### The main thread -/

theorem handleRead_addsTask [CPython] (data : Bytes) (channel : HTTPChannel) :
    (handleRead context data channel).running = channel.running ∧
      (handleRead context data channel).leaving = channel.leaving ∧
      AddsTask channel (handleRead context data channel) := by
  obtain ⟨running, -, ⟨more, -, -, pending⟩, -⟩ := received_receives context data channel
  have leaving := (received_unmoved context data channel).leaving
  obtain ⟨main, read⟩ := handleRead_main context data channel
  rw [read]
  refine ⟨running, leaving, ?_⟩
  by_cases first : channel.requests = [] ∧ more ≠ []
  · rw [if_pos first] at pending
    exact .inr pending
  · rw [if_neg first] at pending
    exact .inl pending

theorem main_addsTask [CPython] {action : Action} {channel after : HTTPChannel}
    (isMain : action.IsMain) (taken : next context action channel = some after) :
    after.running = channel.running ∧ after.leaving = channel.leaving ∧ AddsTask channel after := by
  cases next_steps context taken with
  | read idle => exact handleRead_addsTask context _ channel
  | flush idle =>
      unfold flushBeforeClose
      dsimp only
      split
      · exact ⟨rfl, rfl, .inl rfl⟩
      · exact ⟨rfl, rfl, .inl rfl⟩
  | close flushed =>
      unfold closeIfWillClose
      split
      · exact ⟨rfl, rfl, .inl rfl⟩
      · exact ⟨rfl, rfl, .inl rfl⟩
  | maintain idle =>
      unfold maintain
      split
      · exact ⟨rfl, rfl, .inl rfl⟩
      · exact ⟨rfl, rfl, .inl rfl⟩
  | readNothing | readFails | handOver | closeFailing => exact ⟨rfl, rfl, .inl rfl⟩
  | _ => exact isMain.elim

theorem eq_false_of_settledMain {output : Output} (gone : settledMain output = .gone) :
    output.connected = false := by
  rw [settledMain] at gone
  split at gone
  · rename_i lost
    exact lost.1
  · cases gone

/-- A channel that is out of the socket map for the main thread was closed. -/
theorem main_gone [CPython] {action : Action} {channel after : HTTPChannel}
    (isMain : action.IsMain) (taken : next context action channel = some after)
    (gone : after.main = .gone) : after.output.connected = false := by
  cases next_steps context taken with
  | read idle =>
      unfold handleRead at gone ⊢
      generalize exec (received context _) channel = outcome at gone ⊢
      obtain ⟨result, read⟩ := outcome
      cases result with
      | ok => exact eq_false_of_settledMain gone
      | error exc => cases gone
  | readNothing => rfl
  | readFails => cases gone
  | flush idle =>
      unfold flushBeforeClose at gone
      dsimp only at gone
      split at gone
      · cases gone
      · cases gone
  | handOver => cases gone
  | close flushed =>
      unfold closeIfWillClose at gone ⊢
      split at gone
      · rename_i closes
        rw [if_pos closes]
        rfl
      · rename_i stays
        rw [if_neg stays]
        exact eq_false_of_settledMain gone
  | closeFailing => rfl
  | maintain idle =>
      unfold maintain at gone
      split at gone
      · rw [idle] at gone
        cases gone
      · rw [idle] at gone
        cases gone
  | _ => exact isMain.elim

/-! ### The calls -/

theorem length_eraseIdx_running {running : List ServicePosition} {i : Nat}
    {position : ServicePosition} (found : running[i]? = some position) :
    (running.eraseIdx i).length + 1 = running.length := by
  obtain ⟨less, -⟩ := List.getElem?_eq_some_iff.mp found
  rw [List.length_eraseIdx_of_lt less]
  omega

theorem move_goes (running : List ServicePosition) (leaving i : Nat) (position : ServicePosition) :
    CallGoes (running.length, leaving) ((running.set i position).length, leaving) := by
  rw [List.length_set]
  exact .on

theorem escape_goes {running : List ServicePosition} {i : Nat} {position : ServicePosition}
    (found : running[i]? = some position) (leaving : Nat) :
    CallGoes (running.length, leaving) ((running.eraseIdx i).length, leaving) := by
  rw [← length_eraseIdx_running found]
  exact .escapes

theorem leave_goes {running : List ServicePosition} {i : Nat} {position : ServicePosition}
    (found : running[i]? = some position) (leaving : Nat) :
    CallGoes (running.length, leaving) ((running.eraseIdx i).length, leaving + 1) := by
  rw [← length_eraseIdx_running found]
  exact .leaves

structure ServiceStep (channel after : HTTPChannel) : Prop where
  goes : CallGoes channel.calls after.calls
  adds : AddsTask channel after
  main : after.main = channel.main

theorem resume_serviceStep {channel : HTTPChannel} {i : Nat} {position : ServicePosition}
    (found : channel.running[i]? = some position) :
    ServiceStep channel (resume context i channel) := by
  cases queue : channel.requests with
  | nil =>
      rw [HTTPChannel.resume, queue]
      exact ⟨escape_goes found _, .inl rfl, rfl⟩
  | cons request rest =>
      have resumes := resume_resumes context i queue
      have continues := sendContinue_continues context { channel with requests := rest }
      have unmoved := sendContinue_unmoved context { channel with requests := rest }
      generalize HTTPChannel.resume context i channel = after at resumes ⊢
      cases resumes with
      | next => exact ⟨leave_goes found _, .inr rfl, rfl⟩
      | @continued after last done =>
          rw [done] at continues unmoved
          have running : after.running = channel.running := continues.running
          have leaving : after.leaving = channel.leaving := continues.leaving
          refine ⟨?_, .inl continues.pendingTasks, unmoved.main⟩
          change CallGoes channel.calls ((after.running.eraseIdx i).length, after.leaving + 1)
          rw [running, leaving]
          exact leave_goes found _
      | @failed exc after last done =>
          rw [done] at continues unmoved
          have running : after.running = channel.running := continues.running
          have leaving : after.leaving = channel.leaving := continues.leaving
          refine ⟨?_, .inl continues.pendingTasks, unmoved.main⟩
          change CallGoes channel.calls ((after.running.eraseIdx i).length, after.leaving)
          rw [running, leaving]
          exact escape_goes found _
      | quiet => exact ⟨leave_goes found _, .inl rfl, rfl⟩

theorem prepares_serviceStep {channel after : HTTPChannel} {i : Nat} {request : Numbered}
    (prepares : Prepares i request channel after) : ServiceStep channel after := by
  obtain ⟨-, -, -, -⟩ := prepares
  exact ⟨move_goes _ _ _ _, .inl rfl, rfl⟩

theorem service_serviceStep [CPython] {action : Action} {channel after : HTTPChannel}
    (isService : action.isService = true) (taken : next context action channel = some after) :
    0 < channel.running.length ∧ ServiceStep channel after := by
  have counted : ∀ {i position}, channel.running[i]? = some position → 0 < channel.running.length :=
    fun found => Nat.zero_lt_of_lt (List.getElem?_eq_some_iff.mp found).1
  cases next_steps context taken with
  | startTask found =>
      refine ⟨counted found, ?_⟩
      unfold startTask
      split
      · exact ⟨escape_goes found _, .inl rfl, rfl⟩
      · exact ⟨move_goes _ _ _ _, .inl rfl, rfl⟩
  | testConnected found => exact ⟨counted found, move_goes _ _ _ _, .inl rfl, rfl⟩
  | write found => exact ⟨counted found, .on, .inl rfl, rfl⟩
  | endTask found =>
      refine ⟨counted found, ?_⟩
      unfold endTask
      split
      · exact ⟨move_goes _ _ _ _, .inl rfl, rfl⟩
      · exact ⟨move_goes _ _ _ _, .inl rfl, rfl⟩
      · exact ⟨escape_goes found _, .inl rfl, rfl⟩
  | settle found => exact ⟨counted found, leave_goes found _, .inl rfl, rfl⟩
  | drain found => exact ⟨counted found, prepares_serviceStep (drain_prepares context _ _ channel)⟩
  | flushBelow found =>
      exact ⟨counted found, prepares_serviceStep (flushBelow_prepares context _ _ channel)⟩
  | wake found => exact ⟨counted found, prepares_serviceStep (wake_prepares context _ channel)⟩
  | resume found => exact ⟨counted found, resume_serviceStep context found⟩
  | _ => cases isService

theorem next_return_ [CPython] {channel after : HTTPChannel}
    (taken : next context .return_ channel = some after) :
    0 < channel.leaving ∧ after = { channel with leaving := channel.leaving - 1 } := by
  cases next_steps context taken with
  | return_ left => exact ⟨left, rfl⟩

theorem next_pop [CPython] {channel after : HTTPChannel}
    (taken : next context .pop channel = some after) :
    0 < channel.pendingTasks ∧ after =
      { channel with
        pendingTasks := channel.pendingTasks - 1
        running := channel.running ++ [.popped] } := by
  cases next_steps context taken with
  | pop queued => exact ⟨queued, rfl⟩

theorem next_cancel [CPython] {channel after : HTTPChannel}
    (taken : next context .cancel channel = some after) :
    0 < channel.pendingTasks ∧ after = channel.cancel := by
  cases next_steps context taken with
  | cancel queued => exact ⟨queued, rfl⟩

/-! ### The connection -/

theorem resume_connected (i : Nat) {channel : HTTPChannel}
    (connected : (resume context i channel).output.connected = true) :
    channel.output.connected = true := by
  cases queue : channel.requests with
  | nil =>
      rw [HTTPChannel.resume, queue] at connected
      exact connected
  | cons request rest =>
      have resumes := resume_resumes context i queue
      have unmoved := sendContinue_unmoved context { channel with requests := rest }
      generalize HTTPChannel.resume context i channel = after at resumes connected
      cases resumes with
      | next isConnected => exact isConnected
      | continued last done =>
          rw [done] at unmoved
          exact unmoved.connected connected
      | failed last done =>
          rw [done] at unmoved
          exact unmoved.connected connected
      | quiet => exact connected

theorem next_connected [CPython] {action : Action} {channel after : HTTPChannel}
    (taken : next context action channel = some after)
    (connected : after.output.connected = true) : channel.output.connected = true := by
  cases next_steps context taken with
  | read idle =>
      obtain ⟨main, read⟩ := handleRead_main context _ channel
      rw [read] at connected
      exact (received_unmoved context _ channel).connected connected
  | flush idle => exact (flushBeforeClose_keepsQueue context _ idle).connected connected
  | handOver => exact connected
  | close flushed => exact (closeIfWillClose_keepsQueue flushed).connected connected
  | maintain => exact (maintain_keepsQueue channel).connected connected
  | startTask found =>
      unfold startTask at connected
      split at connected
      · exact connected
      · exact connected
  | write found =>
      exact (Output.writeSoonOutput_keepsFlags context _ channel.output.answering).connected connected
  | endTask found =>
      unfold endTask at connected
      split at connected
      · exact connected
      · exact connected
      · exact connected
  | drain found => exact (drain_prepares context _ _ channel).stays.symm.trans connected
  | flushBelow found => exact (flushBelow_prepares context _ _ channel).stays.symm.trans connected
  | wake found => exact (wake_prepares context _ channel).stays.symm.trans connected
  | resume found => exact resume_connected context _ connected
  | readNothing | closeFailing | cancel => cases connected
  | readFails | pop | testConnected | settle | return_ => exact connected

/-! ### The requests -/

/-- Somebody is going to serve the requests of a channel, as long as it is connected. -/
def Working (channel : HTTPChannel) : Prop :=
  channel.output.connected = true → channel.requests ≠ [] →
    0 < channel.pendingTasks + channel.running.length

def Unescaped (channel after : HTTPChannel) : Prop :=
  after.running.length < channel.running.length → channel.leaving < after.leaving

theorem Working.of_keepsQueue {channel after : HTTPChannel} (working : channel.Working)
    (keeps : KeepsQueue channel after) : after.Working := by
  intro connected waiting
  rw [keeps.pendingTasks, keeps.running]
  exact working (keeps.connected connected) (keeps.requests ▸ waiting)

/-- The first of the requests that arrive adds a task. -/
theorem Working.of_receives {channel after : HTTPChannel} (working : channel.Working)
    (receives : Receives channel after)
    (connected : after.output.connected = true → channel.output.connected = true) :
    after.Working := by
  obtain ⟨running, -, ⟨more, requests, -, pending⟩, -⟩ := receives
  intro isConnected waiting
  rw [pending, running]
  by_cases arrived : channel.requests = [] ∧ more ≠ []
  · rw [if_pos arrived]
    omega
  · have earlier : channel.requests ≠ [] := by
      intro empty
      rw [requests, empty, List.nil_append] at waiting
      exact arrived ⟨empty, waiting⟩
    have positive := working (connected isConnected) earlier
    omega

theorem Working.resume {channel : HTTPChannel} {i : Nat} {request : Numbered} {rest : List Numbered}
    (queue : channel.requests = request :: rest) : (resume context i channel).Working := by
  have resumes := resume_resumes context i queue
  have continues := sendContinue_continues context { channel with requests := rest }
  generalize HTTPChannel.resume context i channel = after at resumes ⊢
  cases resumes with
  | next => exact fun _ _ => Nat.add_pos_left (Nat.succ_pos _) _
  | continued last done =>
      rw [done] at continues
      exact fun _ waiting => absurd (continues.requests.trans last) waiting
  | failed last done =>
      rw [done] at continues
      exact fun _ waiting => absurd (continues.requests.trans last) waiting
  | quiet last => exact fun connected waiting => absurd (last connected) waiting

theorem Working.next [CPython] {action : Action} {channel after : HTTPChannel}
    (orderly : channel.Stage) (working : channel.Working)
    (taken : next context action channel = some after) (unescaped : Unescaped channel after) :
    after.Working := by
  have moved : ∀ {i : Nat} (position : ServicePosition) (after : HTTPChannel),
      after.running = channel.running.set i position → after.requests = channel.requests →
      after.pendingTasks = channel.pendingTasks →
      after.output.connected = channel.output.connected → after.Working := by
    intro i position after running requests pending connection connected waiting
    rw [running, pending, List.length_set]
    exact working (connection ▸ connected) (requests ▸ waiting)
  have prepared : ∀ {i : Nat} {request : Numbered} {other : HTTPChannel},
      Prepares i request channel other → other.Working := by
    rintro i request other ⟨-, relieves, -, -⟩
    exact moved _ _ rfl rfl rfl relieves.stays
  cases next_steps context taken with
  | read main =>
      rcases handleRead_receives context _ main with same | ⟨-, receives⟩
      · rw [same]
        exact working.of_keepsQueue (keepsQueue_main _ (by simp [main]))
      · exact working.of_receives receives (next_connected context taken)
  | readNothing main => exact working.of_keepsQueue (keepsQueue_closed (by simp [main]))
  | readFails main => exact working.of_keepsQueue (keepsQueue_main _ (by simp [main]))
  | flush main => exact working.of_keepsQueue (flushBeforeClose_keepsQueue context _ main)
  | handOver main => exact working.of_keepsQueue (keepsQueue_willClose channel .flushed)
  | close main => exact working.of_keepsQueue (closeIfWillClose_keepsQueue main)
  | closeFailing main => exact working.of_keepsQueue (keepsQueue_closed (by simp [main]))
  | maintain main => exact working.of_keepsQueue (maintain_keepsQueue channel)
  | cancel => exact fun _ waiting => absurd rfl waiting
  | pop queued =>
      intro _ _
      rw [List.length_append]
      exact Nat.add_pos_right _ (Nat.add_pos_right _ Nat.one_pos)
  | startTask found =>
      unfold startTask
      split
      · rename_i empty
        exact fun _ waiting => absurd empty waiting
      · exact moved _ _ rfl rfl rfl rfl
  | testConnected found => exact moved _ _ rfl rfl rfl rfl
  | write found =>
      exact working.of_keepsQueue (keepsQueue_logOutput
        (Output.writeSoonOutput_keepsFlags context _ channel.output.answering).of_answering _)
  | @endTask i application surroundings request found =>
      unfold endTask at unescaped ⊢
      split
      · exact moved _ _ rfl rfl rfl rfl
      · exact moved _ _ rfl rfl rfl rfl
      · rename_i raised
        rw [raised] at unescaped
        have fewer := length_eraseIdx_running found
        have left := unescaped (Nat.lt_of_succ_le (Nat.le_of_eq fewer))
        exact absurd left (Nat.lt_irrefl _)
  | settle => exact fun _ waiting => absurd rfl waiting
  | drain found => exact prepared (drain_prepares context _ _ channel)
  | flushBelow found => exact prepared (flushBelow_prepares context _ _ channel)
  | wake found => exact prepared (wake_prepares context _ channel)
  | resume found =>
      obtain ⟨-, -, -, rest, queue, -⟩ := orderly.at_request found rfl
      exact Working.resume context queue
  | return_ left => exact working

end HTTPChannel

end Waitress
