import Waitress.Channel.Stages

/-!
# The order of the output

A line `100 Continue` stands between the responses of the requests in front of
the one that it announces and its own.
-/

namespace Waitress

open Raising

def Emission.number : Emission → Nat
  | .continueLine number => number
  | .response number => number

/-- A line precedes its response, and nothing else of the same request. -/
def Emission.Precedes : Emission → Emission → Prop
  | .continueLine first, .continueLine second => first < second
  | .continueLine first, .response second => first ≤ second
  | .response first, .continueLine second => first < second
  | .response first, .response second => first ≤ second

theorem Emission.precedes_response {emission : Emission} {number : Nat}
    (behind : emission.number ≤ number) : emission.Precedes (.response number) := by
  cases emission with
  | continueLine first => exact behind
  | response first => exact behind

theorem Emission.precedes_continueLine {emission : Emission} {number : Nat}
    (before : emission.number < number) : emission.Precedes (.continueLine number) := by
  cases emission with
  | continueLine first => exact before
  | response first => exact before

namespace HTTPChannel

/-- The output is in order, and what is going to be appended fits. -/
structure InTurn (channel : HTTPChannel) : Prop where
  ordered : channel.log.Pairwise Emission.Precedes
  sorted : channel.requests.Pairwise fun first second => first.number < second.number
  behind : ∀ emission ∈ channel.log, ∀ request ∈ channel.requests,
    emission.number ≤ request.number
  queued : ∀ request ∈ channel.requests, request.number < channel.currentNumber
  past : ∀ emission ∈ channel.log, emission.number < channel.currentNumber ∨
    emission.number = channel.currentNumber ∧ channel.output.sentContinue = true

theorem InTurn.of_sublist {before after : HTTPChannel} (inTurn : before.InTurn)
    (log : after.log = before.log) (requests : after.requests.Sublist before.requests)
    (current : after.currentNumber = before.currentNumber)
    (sent : after.output.sentContinue = before.output.sentContinue) : after.InTurn := by
  obtain ⟨ordered, sorted, behind, queued, past⟩ := inTurn
  refine ⟨by rwa [log], sorted.sublist requests, ?_, ?_, by rwa [log, current, sent]⟩
  · rw [log]
    exact fun emission mem request waits => behind emission mem request (requests.subset waits)
  · rw [current]
    exact fun request waits => queued request (requests.subset waits)

theorem mem_logOutput {channel : HTTPChannel} {output : Output} {last emission : Emission}
    (mem : emission ∈ (channel.logOutput output last).log) :
    emission ∈ channel.log ∨ emission = last := by
  rw [logOutput] at mem
  dsimp only at mem
  split at mem
  · exact .inl mem
  · exact (List.mem_append.mp mem).imp_right List.mem_singleton.mp

theorem ordered_logOutput {channel : HTTPChannel} {last : Emission}
    (ordered : channel.log.Pairwise Emission.Precedes)
    (precede : ∀ emission ∈ channel.log, emission.Precedes last) (output : Output) :
    (channel.logOutput output last).log.Pairwise Emission.Precedes := by
  rw [logOutput]
  dsimp only
  split
  · exact ordered
  · refine List.pairwise_append.mpr ⟨ordered, List.pairwise_singleton _ _, ?_⟩
    intro emission mem other isLast
    rw [List.mem_singleton.mp isLast]
    exact precede emission mem

theorem InTurn.logResponse {channel : HTTPChannel} (inTurn : channel.InTurn) {request : Numbered}
    {rest : List Numbered} (queue : channel.requests = request :: rest) {output : Output}
    (sent : output.sentContinue = channel.output.sentContinue) :
    (channel.logOutput output (.response request.number)).InTurn := by
  obtain ⟨ordered, sorted, behind, queued, past⟩ := inTurn
  have first : request ∈ channel.requests := by
    rw [queue]
    exact List.mem_cons_self ..
  refine ⟨ordered_logOutput ordered ?_ output, sorted, ?_, queued, ?_⟩
  · exact fun emission mem => Emission.precedes_response (behind emission mem request first)
  · intro emission mem other waits
    rcases mem_logOutput mem with old | rfl
    · exact behind emission old other waits
    · change other ∈ channel.requests at waits
      rw [queue] at waits sorted
      rcases List.mem_cons.mp waits with rfl | later
      · exact Nat.le_refl _
      · exact Nat.le_of_lt (List.rel_of_pairwise_cons sorted later)
  · intro emission mem
    rcases mem_logOutput mem with old | rfl
    · rw [show (channel.logOutput output (.response request.number)).output.sentContinue =
        channel.output.sentContinue from sent]
      exact past emission old
    · exact .inl (queued request first)

variable (context : ChannelContext)

theorem InTurn.sendContinue {channel : HTTPChannel} (inTurn : channel.InTurn)
    (empty : channel.requests = []) (waits : channel.waitsForContinue = true) :
    (exec (HTTPChannel.sendContinue context) channel).2.InTurn := by
  obtain ⟨request, current, waits⟩ := (Option.any_eq_true _ _).mp waits
  have unsent : channel.output.sentContinue = false :=
    by simpa using (Bool.and_eq_true_iff.mp waits).2
  obtain ⟨result, output, completed, sent, -, done⟩ := exec_sendContinue context current
  have number : channel.currentNumber = request.number := by
    rw [currentNumber, current]
    rfl
  have past : ∀ emission ∈ channel.log, emission.number < request.number := by
    intro emission mem
    rcases inTurn.past emission mem with less | ⟨-, sent⟩
    · rwa [number] at less
    · exact Bool.noConfusion (unsent.symm.trans sent)
  rw [done]
  rcases sent with rfl | sent
  · apply inTurn.of_sublist
    · change (if channel.output.written = channel.output.written then _ else _) = _
      rw [if_pos rfl]
    · exact List.Sublist.refl _
    · exact number.symm
    · rfl
  · have none : ∀ {other : Numbered}, ¬ other ∈ channel.requests := by
      intro other
      rw [empty]
      exact List.not_mem_nil
    refine ⟨?_, inTurn.sorted, fun _ _ other mem => absurd mem none,
      fun other mem => absurd mem none, ?_⟩
    · change (channel.logOutput output (.continueLine request.number)).log.Pairwise _
      rw [logOutput]
      dsimp only
      split
      · exact inTurn.ordered
      · refine List.pairwise_append.mpr ⟨inTurn.ordered, List.pairwise_singleton _ _, ?_⟩
        intro emission mem last isLast
        rw [List.mem_singleton.mp isLast]
        exact Emission.precedes_continueLine (past emission mem)
    · intro emission mem
      rcases mem_logOutput mem with old | rfl
      · exact .inl (past emission old)
      · exact .inr ⟨rfl, sent.sentContinue⟩

/-! ### Receiving -/

structure Talks (channel : HTTPChannel) : Prop where
  numbering : channel.Numbering
  inTurn : channel.InTurn

theorem receiveRequest_talks [CPython] (data : Bytes) :
    Within (Keeps Talks) (receiveRequest context data) := by
  intro channel talks
  refine ⟨(receiveRequest_receives context data channel).numbering talks.numbering, ?_⟩
  rw [receiveRequest, exec_get_bind]
  dsimp only
  rw [exec_modify_bind, exec_ofExcept]
  refine talks.inTurn.of_sublist rfl (List.Sublist.refl _) ?_ rfl
  cases found : channel.request with
  | none => simp [currentNumber, found]
  | some request => simp [currentNumber, found]

theorem takeRequest_talks {channel : HTTPChannel} (talks : channel.Talks) :
    channel.takeRequest.Talks := by
  refine ⟨(takeRequest_receives channel).numbering talks.numbering, ?_⟩
  obtain ⟨⟨-, -, small⟩, ordered, sorted, behind, queued, past⟩ := talks
  unfold takeRequest
  split
  · exact ⟨ordered, sorted, behind, queued, past⟩
  · rename_i request current
    have number : channel.currentNumber = request.number := by
      rw [currentNumber, current]
      rfl
    have less := small request current
    have notLater : ∀ emission ∈ channel.log, emission.number ≤ request.number := by
      intro emission mem
      rw [← number]
      rcases past emission mem with before | ⟨same, -⟩
      · exact Nat.le_of_lt before
      · exact Nat.le_of_eq same
    have taken : ∀ emission ∈ channel.log, emission.number < channel.nextNumber := fun emission mem =>
      Nat.lt_of_le_of_lt (notLater emission mem) less
    rw [number] at queued
    split
    · exact ⟨ordered, sorted, behind, by rwa [number], past⟩
    dsimp only
    split
    · exact ⟨ordered, sorted, behind, fun other mem => Nat.lt_trans (queued other mem) less,
        fun emission mem => .inl (taken emission mem)⟩
    · refine ⟨ordered, ?_, ?_, ?_, fun emission mem => .inl (taken emission mem)⟩
      · refine List.pairwise_append.mpr ⟨sorted, List.pairwise_singleton _ _, ?_⟩
        intro other mem last isLast
        rw [List.mem_singleton.mp isLast]
        exact queued other mem
      · intro emission mem other waits
        rcases List.mem_append.mp waits with earlier | last
        · exact behind emission mem other earlier
        · rw [List.mem_singleton.mp last]
          exact notLater emission mem
      · intro other waits
        rcases List.mem_append.mp waits with earlier | last
        · exact Nat.lt_trans (queued other earlier) less
        · rw [List.mem_singleton.mp last]
          exact less

theorem continueIfAlone_talks : Within (Keeps Talks) (continueIfAlone context) := by
  refine within_get_bind fun channel talks => ?_
  split
  · rename_i alone
    exact ⟨(sendContinue_continues context channel).receives.numbering talks.numbering,
      talks.inTurn.sendContinue context alone.1 alone.2⟩
  · exact talks

theorem receiveRound_talks [CPython] (data : Bytes) :
    Within (Keeps Talks) (receiveRound context data) := by
  refine within_bind (receiveRequest_talks context data) fun n => ?_
  refine within_bind (continueIfAlone_talks context) fun _ => ?_
  exact within_bind (within_modify fun channel => takeRequest_talks) fun _ => within_pure _

theorem received_talks [CPython] (data : Bytes) :
    Within (Keeps Talks) (received context data) := by
  have loop : ∀ fuel data, Within (Keeps Talks) (receiveLoop context fuel data) := by
    intro fuel
    induction fuel with
    | zero => exact fun _ => within_pure _
    | succ fuel inductionHypothesis =>
        intro data
        refine within_bind (receiveRound_talks context data) fun n => ?_
        split
        · exact within_pure _
        · exact inductionHypothesis _
  refine within_bind within_get fun channel => ?_
  split
  · exact within_pure _
  · exact loop _ data

/-! ### The steps -/

theorem InTurn.resume {channel : HTTPChannel} (inTurn : channel.InTurn) (i : Nat) :
    (resume context i channel).InTurn := by
  unfold HTTPChannel.resume
  split
  · exact inTurn.of_sublist rfl (List.Sublist.refl _) rfl rfl
  rename_i first rest queue
  have sublist : rest.Sublist channel.requests := by
    rw [queue]
    exact List.sublist_cons_self _ _
  have popped : InTurn { channel with requests := rest } :=
    inTurn.of_sublist rfl sublist rfl rfl
  dsimp only
  split
  · exact popped.of_sublist rfl (List.Sublist.refl _) rfl rfl
  rename_i others
  split
  · rename_i waits
    have empty : rest = [] := by
      by_contra more
      exact others ⟨waits.1, more⟩
    have sent := popped.sendContinue context empty waits.2
    rcases done : exec (HTTPChannel.sendContinue context) { channel with requests := rest } with
      ⟨exc | ⟨⟩, after⟩
    · rw [done] at sent
      exact sent.of_sublist rfl (List.Sublist.refl _) rfl rfl
    · rw [done] at sent
      exact sent.of_sublist rfl (List.Sublist.refl _) rfl rfl
  · exact popped.of_sublist rfl (List.Sublist.refl _) rfl rfl

theorem InTurn.next [CPython] {action : Action} {channel after : HTTPChannel}
    (orderly : channel.Orderly) (inTurn : channel.InTurn)
    (taken : HTTPChannel.next context action channel = some after) : after.InTurn := by
  have same : ∀ {other : HTTPChannel}, other.log = channel.log →
      other.requests.Sublist channel.requests → other.currentNumber = channel.currentNumber →
      other.output.sentContinue = channel.output.sentContinue → other.InTurn :=
    fun log requests current sent => inTurn.of_sublist log requests current sent
  have queue : ∀ {requests : List Numbered}, requests.Sublist requests := List.Sublist.refl _
  have prepared : ∀ {i : Nat} {request : Numbered} {other : HTTPChannel},
      Prepares i request channel other → other.InTurn := by
    rintro i request other ⟨-, relieves, -, -⟩
    exact same rfl queue rfl relieves.sentContinue
  cases next_steps context taken with
  | read main =>
      rename_i data
      have talks := received_talks context data channel ⟨orderly.numbering, inTurn⟩
      obtain ⟨_, read⟩ := handleRead_main context data channel
      rw [read]
      exact talks.inTurn.of_sublist rfl queue rfl rfl
  | flush main =>
      rename_i lockable
      have flags := (Output.flushWrite_keepsFlags context channel.requests.isEmpty lockable
        channel.output.answering).of_answering
      unfold flushBeforeClose
      dsimp only
      split
      · exact same rfl queue rfl flags.sentContinue
      · exact same rfl queue rfl flags.sentContinue
  | close main =>
      unfold closeIfWillClose
      split
      · exact same rfl queue rfl rfl
      · exact same rfl queue rfl rfl
  | maintain main =>
      unfold maintain
      split
      · exact same rfl queue rfl rfl
      · exact inTurn
  | cancel queued => exact same rfl (List.nil_sublist _) rfl rfl
  | startTask found =>
      unfold HTTPChannel.startTask
      split
      · exact same rfl queue rfl rfl
      · exact same rfl queue rfl rfl
  | write found =>
      obtain ⟨-, -, -, rest, first, -⟩ := orderly.stage.at_request found rfl
      exact inTurn.logResponse first
        (Output.writeSoonOutput_keepsFlags context _ channel.output.answering).sentContinue
  | endTask found =>
      unfold HTTPChannel.endTask
      split
      · exact same rfl queue rfl rfl
      · exact same rfl queue rfl rfl
      · exact same rfl queue rfl rfl
  | settle found => exact same rfl (List.nil_sublist _) rfl rfl
  | drain found => exact prepared (drain_prepares context _ _ channel)
  | flushBelow found => exact prepared (flushBelow_prepares context _ _ channel)
  | wake found => exact prepared (wake_prepares context _ channel)
  | resume found => exact inTurn.resume context _
  | _ => exact same rfl queue rfl rfl

/-- Whatever the order of the steps, each line is sent once, in its turn. -/
theorem run_inTurn [CPython] {socket : List SendResult} {actions : List Action}
    {channel : HTTPChannel}
    (ran : Transition.run (next context) actions (HTTPChannel.new context socket) = some channel) :
    channel.log.Pairwise Emission.Precedes := by
  have start : (HTTPChannel.new context socket).InTurn :=
    { ordered := .nil
      sorted := .nil
      behind := fun _ absent => by cases absent
      queued := fun _ absent => by cases absent
      past := fun _ absent => by cases absent }
  have both : channel.Orderly ∧ channel.InTurn := by
    apply Transition.run_invariant ?_ ⟨Orderly.new context socket, start⟩ ran
    rintro action before after ⟨orderly, inTurn⟩ taken
    exact ⟨⟨orderly.stage.next context taken, orderly.numbering.next context taken⟩,
      InTurn.next context orderly inTurn taken⟩
  exact both.2.ordered

/-- A request waits for the line, and is answered behind its body. -/
def serveExpecting : List Action :=
  [.read (ascii "PUT / HTTP/1.1\r\nContent-Length: 3\r\nExpect: 100-continue\r\n\r\n"),
    .read (ascii "abc"), .pop, .startTask 0, .testConnected 0, .write 0 (.bytes (ascii "HTTP"))]

theorem run_inTurn_sample :
    let _ : CPython := .unchecked
    ∃ channel, Transition.run (next {}) serveExpecting (HTTPChannel.new {} []) = some channel ∧
      channel.log = [.continueLine 0, .response 0] ∧
      channel.log.Pairwise Emission.Precedes := by
  intro cpython
  have logged : (Transition.run (next {}) serveExpecting (HTTPChannel.new {} [])).map
      HTTPChannel.log = some [.continueLine 0, .response 0] := by decide +kernel
  obtain ⟨channel, ran, log⟩ := Option.map_eq_some_iff.mp logged
  exact ⟨channel, ran, log, run_inTurn {} ran⟩

end HTTPChannel

end Waitress
