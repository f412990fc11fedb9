import Waitress.Channel
import Waitress.Channel.Flags
import Waitress.Task.Delimiting

/-!
# The stages of the queue

At every time at most one call of `service` works for a channel, on the first
request of its queue.
-/

namespace Waitress

open Raising

namespace HTTPChannel

def Ending (channel : HTTPChannel) : Prop :=
  channel.isEnding = true ∨ channel.main = .handingOver

def numbers (requests : List Numbered) : List Nat := requests.map Numbered.number

/-- The number of the request that the next byte belongs to. -/
def currentNumber (channel : HTTPChannel) : Nat :=
  (channel.request.map Numbered.number).getD channel.nextNumber

/-- The stages, by what is in the queue and who works on it. -/
inductive Stage (channel : HTTPChannel) : Prop where
  | idle : channel.requests = [] → channel.pendingTasks = 0 → channel.running = [] →
      channel.given = channel.appended → Stage channel
  | waiting : channel.requests ≠ [] →
      (channel.pendingTasks = 1 ∧ channel.running = [] ∨
        channel.pendingTasks = 0 ∧ channel.running = [.popped]) →
      channel.appended = channel.given ++ numbers channel.requests → Stage channel
  | serving (request : Numbered) (rest : List Numbered) (position : ServicePosition) :
      channel.requests = request :: rest → channel.pendingTasks = 0 →
      channel.running = [position] → position.request = some request →
      channel.appended = channel.given ++ numbers rest → Stage channel
  /-- Nobody works on the queue any more. -/
  | halted : channel.requests ≠ [] → channel.pendingTasks = 0 → channel.running = [] →
      channel.given <+: channel.appended → Stage channel
  | ended : channel.requests = [] → channel.pendingTasks = 0 → channel.running = [] →
      channel.given <+: channel.appended → channel.Ending → Stage channel

structure Numbering (channel : HTTPChannel) : Prop where
  sorted : channel.appended.Pairwise (· < ·)
  below : ∀ number ∈ channel.appended, number < channel.currentNumber
  current : ∀ request, channel.request = some request → request.number < channel.nextNumber

theorem Numbering.of_same {before after : HTTPChannel} (numbering : before.Numbering)
    (appended : after.appended = before.appended) (next : after.nextNumber = before.nextNumber)
    (request : after.request.map Numbered.number = before.request.map Numbered.number) :
    after.Numbering := by
  obtain ⟨sorted, below, current⟩ := numbering
  have same : after.currentNumber = before.currentNumber := by
    rw [currentNumber, currentNumber, request, next]
  refine ⟨by rwa [appended], by rwa [appended, same], ?_⟩
  intro other named
  rw [named] at request
  obtain ⟨first, found, equal⟩ := Option.map_eq_some_iff.mp request.symm
  rw [next, ← equal]
  exact current first found

/-! ### Operations that leave the queue alone -/

/-- Nothing changes but the output, the log and what is known of the current request. -/
structure KeepsQueue (before after : HTTPChannel) : Prop where
  requests : after.requests = before.requests
  pendingTasks : after.pendingTasks = before.pendingTasks
  running : after.running = before.running
  appended : after.appended = before.appended
  given : after.given = before.given
  ending : before.Ending → after.Ending
  connected : after.output.connected = true → before.output.connected = true

instance : IsPreorder HTTPChannel KeepsQueue where
  refl _ := ⟨rfl, rfl, rfl, rfl, rfl, id, id⟩
  trans _ _ _ first second :=
    { requests := second.requests.trans first.requests
      pendingTasks := second.pendingTasks.trans first.pendingTasks
      running := second.running.trans first.running
      appended := second.appended.trans first.appended
      given := second.given.trans first.given
      ending := second.ending ∘ first.ending
      connected := first.connected ∘ second.connected }

theorem Stage.of_keepsQueue {before after : HTTPChannel} (stage : before.Stage)
    (keeps : KeepsQueue before after) : after.Stage := by
  obtain ⟨requests, pendingTasks, running, appended, given, ending, -⟩ := keeps
  cases stage with
  | idle empty pending nobody all =>
      exact .idle (requests.trans empty) (pendingTasks.trans pending) (running.trans nobody)
        (by rw [given, appended, all])
  | waiting nonempty task rest =>
      apply Stage.waiting
      · rwa [requests]
      · rwa [pendingTasks, running]
      · rwa [appended, given, requests]
  | serving request rest position queue pending call named order =>
      exact .serving request rest position (requests.trans queue) (pendingTasks.trans pending)
        (running.trans call) named (by rw [appended, given, order])
  | halted nonempty pending nobody order =>
      exact .halted (by rwa [requests]) (pendingTasks.trans pending) (running.trans nobody)
        (by rwa [given, appended])
  | ended empty pending nobody order closes =>
      exact .ended (requests.trans empty) (pendingTasks.trans pending) (running.trans nobody)
        (by rwa [given, appended]) (ending closes)

theorem keepsQueue_logOutput {channel : HTTPChannel} {output : Output}
    (flags : Output.KeepsFlags channel.output output) (emission : Emission) :
    KeepsQueue channel (channel.logOutput output emission) where
  requests := rfl
  pendingTasks := rfl
  running := rfl
  appended := rfl
  given := rfl
  ending := by
    rintro (ending | handing)
    · left
      rw [isEnding, Bool.or_eq_true] at ending ⊢
      exact ending.imp flags.willClose flags.closeWhenFlushed.trans
    · exact .inr handing
  connected := flags.connected

variable (context : ChannelContext)

structure Continues (before after : HTTPChannel) : Prop extends KeepsQueue before after where
  nextNumber : after.nextNumber = before.nextNumber
  request : after.request.map Numbered.number = before.request.map Numbered.number
  leaving : after.leaving = before.leaving

instance : IsPreorder HTTPChannel Continues where
  refl channel := ⟨refl channel, rfl, rfl, rfl⟩
  trans _ _ _ first second :=
    ⟨IsTrans.trans _ _ _ first.toKeepsQueue second.toKeepsQueue,
      second.nextNumber.trans first.nextNumber, second.request.trans first.request,
      second.leaving.trans first.leaving⟩

theorem exec_sendContinue {channel : HTTPChannel} {request : Numbered}
    (current : channel.request = some request) :
    ∃ result output completed,
      (output = channel.output.answering ∨ Output.ContinueSent channel.output output) ∧
        (completed = request.parser.completed ∨ completed = false) ∧
        exec (sendContinue context) channel =
          (result,
            { channel.logOutput output (.continueLine request.number) with
              request := some
                { request with
                  parser := { request.parser with expectContinue := false, completed } } }) := by
  have outcome := Output.exec_sendContinueOutput context channel.output.answering
  rw [sendContinue, exec_get_bind, current]
  dsimp only
  rw [exec_modify_bind, exec_get_bind]
  dsimp only
  generalize exec (sendContinueOutput context) channel.output.answering = sent at outcome ⊢
  obtain ⟨result, output⟩ := sent
  have unchanged : output = channel.output.answering ∨
      Output.ContinueSent channel.output output := by
    rcases outcome with ⟨exc, same⟩ | sent
    · exact .inl (Prod.mk.inj same).2
    · exact .inr sent.of_answering
  dsimp only
  rw [exec_modify_bind, exec_bind, exec_ofExcept]
  cases result with
  | error exc => exact ⟨.error exc, output, _, unchanged, .inl rfl, rfl⟩
  | ok => exact ⟨.ok ⟨⟩, output, false, unchanged, .inr rfl, rfl⟩

theorem sendContinue_continues : Within Continues (sendContinue context) := by
  intro channel
  cases current : channel.request with
  | none =>
      rw [sendContinue, exec_get_bind, current]
      exact refl channel
  | some request =>
      obtain ⟨result, output, completed, sent, -, done⟩ := exec_sendContinue context current
      rw [done]
      refine ⟨⟨rfl, rfl, rfl, rfl, rfl, ?_, ?_⟩, rfl, by rw [current]; rfl, rfl⟩
      · rintro (ending | handing)
        · left
          rcases sent with rfl | sent
          · exact ending
          · change (output.willClose || output.closeWhenFlushed) = true
            rw [sent.willClose, sent.closeWhenFlushed]
            exact ending
        · exact .inr handing
      · rcases sent with rfl | sent
        · exact id
        · exact sent.connected

/-! ### Receiving -/

section

variable {relation : HTTPChannel → HTTPChannel → Prop} [IsPreorder HTTPChannel relation]
  {context : ChannelContext}

theorem continueIfAlone_within (sends : Within relation (sendContinue context)) :
    Within relation (continueIfAlone context) := by
  refine within_bind within_get fun channel => ?_
  split
  · exact sends
  · exact within_pure _

theorem receiveRound_within [CPython]
    (parses : ∀ data, Within relation (receiveRequest context data))
    (continues : Within relation (continueIfAlone context))
    (takes : ∀ channel : HTTPChannel, relation channel channel.takeRequest) (data : Bytes) :
    Within relation (receiveRound context data) :=
  within_bind (parses data) fun _ => within_bind continues fun _ =>
    within_bind (within_modify takes) fun _ => within_pure _

/-- What each part of a round respects, `received` respects. -/
theorem received_within [CPython] (parses : ∀ data, Within relation (receiveRequest context data))
    (continues : Within relation (continueIfAlone context))
    (takes : ∀ channel : HTTPChannel, relation channel channel.takeRequest) (data : Bytes) :
    Within relation (received context data) := by
  have loop : ∀ fuel data, Within relation (receiveLoop context fuel data) := by
    intro fuel
    induction fuel with
    | zero => exact fun _ => within_pure _
    | succ fuel inductionHypothesis =>
        intro data
        refine within_bind (receiveRound_within parses continues takes data) fun n => ?_
        split
        · exact within_pure _
        · exact inductionHypothesis _
  refine within_bind within_get fun channel => ?_
  split
  · exact within_pure _
  · exact loop _ data

end

structure Receives (before after : HTTPChannel) : Prop where
  running : after.running = before.running
  given : after.given = before.given
  arrived : ∃ more, after.requests = before.requests ++ more ∧
    after.appended = before.appended ++ numbers more ∧
    after.pendingTasks =
      before.pendingTasks + if before.requests = [] ∧ more ≠ [] then 1 else 0
  numbering : before.Numbering → after.Numbering

instance : IsPreorder HTTPChannel Receives where
  refl channel := ⟨rfl, rfl, ⟨[], by simp [numbers]⟩, id⟩
  trans before middle after first second := by
    obtain ⟨some, requests, appended, pending⟩ := first.arrived
    obtain ⟨more, requestsThen, appendedThen, pendingThen⟩ := second.arrived
    refine ⟨second.running.trans first.running, second.given.trans first.given,
      ⟨some ++ more, ?_, ?_, ?_⟩, second.numbering ∘ first.numbering⟩
    · rw [requestsThen, requests, List.append_assoc]
    · rw [appendedThen, appended, numbers, numbers, numbers, List.map_append, List.append_assoc]
    · rw [pendingThen, pending, requests]
      by_cases empty : before.requests = []
      · by_cases none : some = []
        · simp [empty, none]
        · simp [empty, none]
      · simp [empty]

theorem Continues.receives {before after : HTTPChannel} (continues : Continues before after) :
    Receives before after where
  running := continues.running
  given := continues.given
  arrived := ⟨[], by simp [continues.requests, continues.appended, continues.pendingTasks, numbers]⟩
  numbering start := start.of_same continues.appended continues.nextNumber continues.request

theorem receiveRequest_receives [CPython] (data : Bytes) :
    Within Receives (receiveRequest context data) := by
  refine within_get_bind fun channel => ?_
  dsimp only
  rw [exec_modify_bind, exec_ofExcept]
  generalize HTTPRequestParser.received context.adj _ data = outcome
  obtain ⟨parser, result⟩ := outcome
  refine ⟨rfl, rfl, ⟨[], by simp [numbers]⟩, fun numbering => ?_⟩
  obtain ⟨sorted, below, current⟩ := numbering
  refine ⟨sorted, fun number mem => ?_, fun request named => ?_⟩
  · refine Nat.lt_of_lt_of_eq (below number mem) ?_
    cases found : channel.request with
    | none => simp [currentNumber, found]
    | some request => simp [currentNumber, found]
  · obtain rfl := Option.some.inj named
    cases found : channel.request with
    | none => exact Nat.lt_succ_self _
    | some request => exact current request found

theorem takeRequest_receives (channel : HTTPChannel) : Receives channel channel.takeRequest := by
  unfold takeRequest
  cases current : channel.request with
  | none => exact refl channel
  | some request =>
      dsimp only
      split
      · exact refl channel
      · have order : ∀ number ∈ channel.appended, channel.Numbering →
            number < request.number ∧ number < channel.nextNumber := by
          rintro number mem ⟨-, below, small⟩
          have less := below number mem
          rw [currentNumber, current] at less
          exact ⟨less, Nat.lt_trans less (small request current)⟩
        split
        · refine ⟨rfl, rfl, ⟨[], by simp [numbers]⟩, fun numbering => ?_⟩
          exact ⟨numbering.sorted, fun number mem => (order number mem numbering).2,
            fun _ none => by cases none⟩
        · refine ⟨rfl, rfl, ⟨[request], rfl, rfl, ?_⟩, fun numbering => ?_⟩
          · change (if channel.requests = [] then _ else _) = _
            split
            · rename_i empty
              simp [empty]
            · rename_i nonempty
              simp [nonempty]
          · refine ⟨List.pairwise_append.mpr ⟨numbering.sorted, List.pairwise_singleton _ _, ?_⟩,
              fun number mem => ?_, fun _ none => by cases none⟩
            · intro number mem other isLast
              rw [List.mem_singleton.mp isLast]
              exact (order number mem numbering).1
            · rcases List.mem_append.mp mem with earlier | last
              · exact (order number earlier numbering).2
              · rw [List.mem_singleton.mp last]
                exact numbering.current request current

theorem continueIfAlone_continues : Within Continues (continueIfAlone context) :=
  continueIfAlone_within (sendContinue_continues context)

theorem continueIfAlone_receives : Within Receives (continueIfAlone context) :=
  fun channel => (continueIfAlone_continues context channel).receives

theorem receiveRound_receives [CPython] (data : Bytes) :
    Within Receives (receiveRound context data) :=
  receiveRound_within (receiveRequest_receives context) (continueIfAlone_receives context)
    takeRequest_receives data

theorem received_receives [CPython] (data : Bytes) :
    Within Receives (received context data) :=
  received_within (receiveRequest_receives context) (continueIfAlone_receives context)
    takeRequest_receives data

theorem received_ending [CPython] (data : Bytes) {channel : HTTPChannel}
    (ending : channel.isEnding = true) : exec (received context data) channel = (.ok ⟨⟩, channel) := by
  rw [received, exec_get_bind, if_pos ending, exec_pure]

/-- Requests that arrive wait behind those that are there. -/
theorem Stage.of_receives {before after : HTTPChannel} (stage : before.Stage)
    (receives : Receives before after) (notEnding : ¬ before.Ending) : after.Stage := by
  obtain ⟨running, given, ⟨more, requests, appended, pending⟩, -⟩ := receives
  cases stage with
  | idle empty none nobody all =>
      rw [empty, List.nil_append] at requests
      by_cases nothing : more = []
      · rw [nothing] at requests appended pending
        apply Stage.idle requests
        · simpa [none] using pending
        · exact running.trans nobody
        · rw [given, all, appended, numbers, List.map_nil, List.append_nil]
      · apply Stage.waiting
        · rwa [requests]
        · left
          rw [pending, running, none, nobody, if_pos ⟨empty, nothing⟩]
          exact ⟨rfl, rfl⟩
        · rw [appended, given, requests, all]
  | waiting nonempty task rest =>
      rw [if_neg (fun arrived => nonempty arrived.1), Nat.add_zero] at pending
      apply Stage.waiting
      · rw [requests]
        exact List.append_ne_nil_of_left_ne_nil nonempty _
      · rwa [pending, running]
      · rw [appended, rest, given, requests, numbers, numbers, numbers, List.map_append,
          List.append_assoc]
  | serving request rest position queue none call named order =>
      rw [queue] at requests
      apply Stage.serving request (rest ++ more) position requests
      · rw [pending, none, queue, if_neg (fun arrived => by cases arrived.1)]
      · exact running.trans call
      · exact named
      · rw [appended, order, given, numbers, numbers, numbers, List.map_append, List.append_assoc]
  | halted nonempty none nobody order =>
      apply Stage.halted
      · rw [requests]
        exact List.append_ne_nil_of_left_ne_nil nonempty _
      · rw [pending, none, if_neg (fun arrived => nonempty arrived.1)]
      · exact running.trans nobody
      · rw [given, appended]
        exact List.IsPrefix.trans order (List.prefix_append _ _)
  | ended empty none nobody order closes => exact absurd closes notEnding

/-! ### The steps -/

theorem eq_of_getElem?_singleton {position other : ServicePosition} {i : Nat}
    (found : [position][i]? = some other) : i = 0 ∧ position = other := by
  rw [List.getElem?_singleton] at found
  split at found
  · exact ⟨by assumption, Option.some.inj found⟩
  · cases found

theorem Stage.at_popped {channel : HTTPChannel} (stage : channel.Stage) {i : Nat}
    (found : channel.running[i]? = some .popped) :
    i = 0 ∧ channel.running = [.popped] ∧ channel.pendingTasks = 0 ∧ channel.requests ≠ [] ∧
      channel.appended = channel.given ++ numbers channel.requests := by
  cases stage with
  | idle _ _ nobody _ => simp [nobody] at found
  | waiting nonempty task order =>
      rcases task with ⟨-, nobody⟩ | ⟨pending, call⟩
      · simp [nobody] at found
      · rw [call] at found
        exact ⟨(eq_of_getElem?_singleton found).1, call, pending, nonempty, order⟩
  | serving request rest position queue pending call named order =>
      rw [call] at found
      rw [(eq_of_getElem?_singleton found).2] at named
      cases named
  | halted _ _ nobody _ => simp [nobody] at found
  | ended _ _ nobody _ _ => simp [nobody] at found

theorem Stage.at_request {channel : HTTPChannel} (stage : channel.Stage) {i : Nat}
    {position : ServicePosition} {request : Numbered}
    (found : channel.running[i]? = some position) (named : position.request = some request) :
    i = 0 ∧ channel.running = [position] ∧ channel.pendingTasks = 0 ∧
      ∃ rest, channel.requests = request :: rest ∧
        channel.appended = channel.given ++ numbers rest := by
  cases stage with
  | idle _ _ nobody _ => simp [nobody] at found
  | waiting nonempty task order =>
      rcases task with ⟨-, nobody⟩ | ⟨pending, call⟩
      · simp [nobody] at found
      · rw [call] at found
        rw [← (eq_of_getElem?_singleton found).2] at named
        cases named
  | serving other rest first queue pending call namedFirst order =>
      rw [call] at found
      obtain ⟨rfl, rfl⟩ := eq_of_getElem?_singleton found
      obtain rfl := Option.some.inj (named.symm.trans namedFirst)
      exact ⟨rfl, call, pending, rest, queue, order⟩
  | halted _ _ nobody _ => simp [nobody] at found
  | ended _ _ nobody _ _ => simp [nobody] at found

section

variable {channel : HTTPChannel} {request : Numbered} {rest : List Numbered}
  {position : ServicePosition}

theorem Stage.moved (call : channel.running = [position]) (pending : channel.pendingTasks = 0)
    (queue : channel.requests = request :: rest)
    (order : channel.appended = channel.given ++ numbers rest) (moved : ServicePosition)
    (named : moved.request = some request) : (channel.move 0 moved).Stage := by
  refine .serving request rest moved queue pending ?_ named order
  change channel.running.set 0 moved = [moved]
  rw [call]
  rfl

theorem Stage.escaped (call : channel.running = [position]) (pending : channel.pendingTasks = 0)
    (queue : channel.requests = request :: rest)
    (order : channel.appended = channel.given ++ numbers rest) : (channel.escape 0).Stage := by
  apply Stage.halted
  · change channel.requests ≠ []
    rw [queue]
    exact List.cons_ne_nil _ _
  · exact pending
  · change channel.running.eraseIdx 0 = []
    rw [call]
    rfl
  · change channel.given <+: channel.appended
    rw [order]
    exact List.prefix_append _ _

end

theorem Stage.startTask {channel : HTTPChannel} (stage : channel.Stage) {i : Nat}
    (found : channel.running[i]? = some .popped) : (channel.startTask i).Stage := by
  obtain ⟨rfl, call, pending, nonempty, order⟩ := stage.at_popped found
  unfold HTTPChannel.startTask
  split
  · rename_i empty
    exact absurd empty nonempty
  · rename_i request rest queue
    rw [queue] at order
    apply Stage.moved
    · exact call
    · exact pending
    · exact queue
    · exact order.trans (List.append_cons _ _ _)
    · rfl

theorem Stage.settle {channel : HTTPChannel} (stage : channel.Stage) {i : Nat}
    {request : Numbered} (found : channel.running[i]? = some (.closing request)) :
    (channel.settle i).Stage := by
  obtain ⟨rfl, call, pending, rest, queue, order⟩ := stage.at_request found rfl
  refine .ended rfl pending ?_ ?_ ?_
  · change channel.running.eraseIdx 0 = []
    rw [call]
    rfl
  · change channel.given <+: channel.appended
    rw [order]
    exact List.prefix_append _ _
  · left
    change (channel.output.willClose || true) = true
    rw [Bool.or_true]

/-- The ways in which the last section of a call can end; `rest` are the requests
behind the served one. -/
inductive Resumes (i : Nat) (channel : HTTPChannel) (rest : List Numbered) :
    HTTPChannel → Prop where
  | next : channel.output.connected = true → rest ≠ [] →
      Resumes i channel rest
        (leave i { channel with requests := rest, pendingTasks := channel.pendingTasks + 1 })
  | continued {after : HTTPChannel} : rest = [] →
      exec (sendContinue context) { channel with requests := rest } = (.ok ⟨⟩, after) →
      Resumes i channel rest (after.leave i)
  | failed {exc : Exc} {after : HTTPChannel} : rest = [] →
      exec (sendContinue context) { channel with requests := rest } = (.error exc, after) →
      Resumes i channel rest (after.escape i)
  | quiet : (channel.output.connected = true → rest = []) →
      Resumes i channel rest (leave i { channel with requests := rest })

theorem resume_resumes (i : Nat) {channel : HTTPChannel} {request : Numbered}
    {rest : List Numbered} (queue : channel.requests = request :: rest) :
    Resumes context i channel rest (resume context i channel) := by
  unfold HTTPChannel.resume
  split
  · rename_i empty
    cases queue.symm.trans empty
  rename_i first others same
  obtain ⟨rfl, rfl⟩ := List.cons.inj (queue.symm.trans same)
  dsimp only
  split
  · rename_i more
    exact .next more.1 more.2
  · rename_i others
    have last : channel.output.connected = true → rest = [] := by
      intro connected
      by_contra more
      exact others ⟨connected, more⟩
    split
    · rename_i waits
      rcases sent : exec (sendContinue context) { channel with requests := rest } with ⟨_ | _, after⟩
      · exact .failed (last waits.1) sent
      · exact .continued (last waits.1) sent
    · exact .quiet last

/-- Behind the section the next request waits, or nobody works on the queue. -/
theorem Stage.resume {channel : HTTPChannel} (stage : channel.Stage) {i : Nat}
    {request : Numbered} (found : channel.running[i]? = some (.drained request)) :
    (resume context i channel).Stage := by
  obtain ⟨rfl, call, pending, rest, queue, order⟩ := stage.at_request found rfl
  have erased : channel.running.eraseIdx 0 = [] := by
    rw [call]
    rfl
  have left : ∀ after : HTTPChannel, after.requests = rest → after.pendingTasks = 0 →
      after.running = [] → after.given = channel.given → after.appended = channel.appended →
      after.Stage := by
    intro after requests none nobody given appended
    by_cases empty : rest = []
    · apply Stage.idle (requests.trans empty) none nobody
      rw [given, appended, order, empty, numbers, List.map_nil, List.append_nil]
    · apply Stage.halted (by rwa [requests]) none nobody
      rw [given, appended, order]
      exact List.prefix_append _ _
  have sent : ∀ {result after},
      exec (sendContinue context) { channel with requests := rest } = (result, after) →
      Continues { channel with requests := rest } after := by
    intro result after done
    have continues := sendContinue_continues context { channel with requests := rest }
    rw [done] at continues
    exact continues
  have resumes := resume_resumes context 0 queue
  generalize HTTPChannel.resume context 0 channel = after at resumes ⊢
  cases resumes with
  | next connected more =>
      exact .waiting more (.inl ⟨congrArg (· + 1) pending, erased⟩) order
  | continued last done =>
      have continues := sent done
      exact left _ continues.requests (continues.pendingTasks.trans pending)
        ((congrArg (List.eraseIdx · 0) continues.running).trans erased) continues.given
        continues.appended
  | failed last done =>
      have continues := sent done
      exact left _ continues.requests (continues.pendingTasks.trans pending)
        ((congrArg (List.eraseIdx · 0) continues.running).trans erased) continues.given
        continues.appended
  | quiet => exact left _ rfl pending erased rfl rfl

/-- What a call does between its task and its last section. -/
inductive Prepares (i : Nat) (request : Numbered) (before : HTTPChannel) : HTTPChannel → Prop where
  | intro {position : ServicePosition} {output : Output} {closed : List Nat} :
      position.request = some request → Output.Relieves before.output output →
      before.closed ⊆ closed → (∀ other, position = .drained other → other.number ∈ closed) →
      Prepares i request before
        { before with output, running := before.running.set i position, closed }

theorem move_prepares {i : Nat} {request : Numbered} {position : ServicePosition}
    {channel : HTTPChannel} {output : Output} (named : position.request = some request)
    (relieves : Output.Relieves channel.output output)
    (drained : ∀ other, position ≠ .drained other) :
    Prepares i request channel (move i position { channel with output }) :=
  .intro named relieves (List.Subset.refl _) fun other same => absurd same (drained other)

theorem closeRequest_prepares (i : Nat) (request : Numbered) {channel : HTTPChannel}
    {output : Output} (relieves : Output.Relieves channel.output output) :
    Prepares i request channel (closeRequest context i request { channel with output }) := by
  obtain ⟨⟨connected, willClose, closing, sent⟩, stays, written⟩ := relieves
  refine .intro rfl ⟨⟨connected, willClose, closing, sent⟩, stays, written⟩
    (List.subset_append_left _ _) ?_
  rintro other ⟨⟩
  exact List.mem_append_right _ (List.mem_singleton_self _)

theorem drain_prepares (i : Nat) (request : Numbered) (channel : HTTPChannel) :
    Prepares i request channel (drain context i request channel) := by
  unfold drain
  split
  · exact move_prepares rfl (refl _) fun _ => ServicePosition.noConfusion
  · exact closeRequest_prepares context i request (refl channel.output)

theorem flushBelow_prepares (i : Nat) (request : Numbered) (channel : HTTPChannel) :
    Prepares i request channel (flushBelow context i request channel) := by
  have relieves :=
    (Output.flushUnderLock_relieves context channel.output.answering).of_answering
  unfold flushBelow
  split
  · rename_i raised output done
    rw [done] at relieves
    obtain ⟨⟨connected, willClose, closing, sent⟩, stays, written⟩ := relieves
    refine move_prepares rfl ?_ fun _ => ServicePosition.noConfusion
    exact ⟨⟨connected, willClose, closing, sent⟩, stays, written⟩
  · rename_i result output _ done
    rw [done] at relieves
    exact closeRequest_prepares context i request relieves

theorem wake_prepares {i : Nat} {request : Numbered} (raised : Bool) (channel : HTTPChannel) :
    Prepares i request channel (wake context i request raised channel) := by
  unfold wake
  split
  · refine move_prepares rfl ?_ fun _ => ServicePosition.noConfusion
    exact ⟨⟨id, id, rfl, rfl⟩, rfl, rfl⟩
  · exact closeRequest_prepares context i request (refl channel.output)

theorem Prepares.stays {i : Nat} {request : Numbered} {before after : HTTPChannel}
    (prepares : Prepares i request before after) :
    after.output.connected = before.output.connected := by
  obtain ⟨-, relieves, -, -⟩ := prepares
  exact relieves.stays

theorem Prepares.calls {i : Nat} {request : Numbered} {before after : HTTPChannel}
    (prepares : Prepares i request before after) :
    after.running.length = before.running.length := by
  obtain ⟨-, -, -, -⟩ := prepares
  exact List.length_set

theorem Stage.prepares {channel after : HTTPChannel} (stage : channel.Stage) {i : Nat}
    {position : ServicePosition} {request : Numbered}
    (found : channel.running[i]? = some position) (named : position.request = some request)
    (prepares : Prepares i request channel after) : after.Stage := by
  obtain ⟨rfl, call, pending, rest, queue, order⟩ := stage.at_request found named
  obtain ⟨named, -, -, -⟩ := prepares
  rename_i moved output closed
  refine .serving request rest moved queue pending ?_ named order
  change channel.running.set 0 moved = [moved]
  rw [call]
  rfl

theorem Stage.cancel {channel : HTTPChannel} (stage : channel.Stage)
    (queued : channel.pendingTasks > 0) : channel.cancel.Stage := by
  have closes : channel.cancel.Ending := .inl rfl
  cases stage with
  | waiting nonempty task order =>
      rcases task with ⟨pending, nobody⟩ | ⟨pending, -⟩
      · refine .ended rfl ?_ nobody ?_ closes
        · change channel.pendingTasks - 1 = 0
          omega
        · change channel.given <+: channel.appended
          rw [order]
          exact List.prefix_append _ _
      · omega
  | idle _ pending _ _ => omega
  | serving _ _ _ _ pending _ _ _ => omega
  | halted _ pending _ _ => omega
  | ended _ pending _ _ _ => omega

theorem Stage.pop {channel : HTTPChannel} (stage : channel.Stage)
    (queued : channel.pendingTasks > 0) :
    ({ channel with
        pendingTasks := channel.pendingTasks - 1
        running := channel.running ++ [.popped] } : HTTPChannel).Stage := by
  cases stage with
  | waiting nonempty task order =>
      rcases task with ⟨pending, nobody⟩ | ⟨pending, -⟩
      · refine .waiting nonempty (.inr ⟨?_, ?_⟩) order
        · change channel.pendingTasks - 1 = 0
          omega
        · change channel.running ++ [.popped] = [.popped]
          rw [nobody, List.nil_append]
      · omega
  | idle _ pending _ _ => omega
  | serving _ _ _ _ pending _ _ _ => omega
  | halted _ pending _ _ => omega
  | ended _ pending _ _ _ => omega

theorem keepsQueue_main {channel : HTTPChannel} (main : MainPosition)
    (notHanding : channel.main ≠ .handingOver) : KeepsQueue channel { channel with main } where
  requests := rfl
  pendingTasks := rfl
  running := rfl
  appended := rfl
  given := rfl
  ending ending := .inl (ending.resolve_right notHanding)
  connected := id

theorem handleRead_receives [CPython] (data : Bytes) {channel : HTTPChannel}
    (main : channel.main = .idle) :
    handleRead context data channel = { channel with main := settledMain channel.output } ∨
      ¬ channel.Ending ∧ Receives channel (handleRead context data channel) := by
  by_cases ending : channel.isEnding = true
  · left
    rw [handleRead, received_ending context data ending, failIfRaised]
  · right
    refine ⟨not_or.mpr ⟨ending, by rw [main]; exact MainPosition.noConfusion⟩, ?_⟩
    obtain ⟨running, given, arrived, numbering⟩ := received_receives context data channel
    obtain ⟨_, read⟩ := handleRead_main context data channel
    rw [read]
    refine ⟨running, given, arrived, fun start => ?_⟩
    obtain ⟨sorted, below, current⟩ := numbering start
    exact ⟨sorted, below, current⟩

theorem flushBeforeClose_keepsQueue (lockable : Bool) {channel : HTTPChannel}
    (main : channel.main = .idle) :
    KeepsQueue channel (flushBeforeClose context lockable channel) := by
  have flags := (Output.flushWrite_keepsFlags context channel.requests.isEmpty lockable
    channel.output.answering).of_answering
  unfold flushBeforeClose
  dsimp only
  generalize (exec (flushWrite context channel.requests.isEmpty lockable)
    channel.output.answering).2 = output at flags
  split
  · exact ⟨rfl, rfl, rfl, rfl, rfl, fun _ => .inr rfl, flags.connected⟩
  · refine ⟨rfl, rfl, rfl, rfl, rfl, ?_, flags.connected⟩
    rintro (ending | handing)
    · left
      rw [isEnding, Bool.or_eq_true] at ending ⊢
      exact ending.imp flags.willClose flags.closeWhenFlushed.trans
    · rw [main] at handing
      cases handing

theorem closeIfWillClose_keepsQueue {channel : HTTPChannel} (main : channel.main = .flushed) :
    KeepsQueue channel channel.closeIfWillClose := by
  have notHanding : channel.main ≠ .handingOver := by
    rw [main]
    exact MainPosition.noConfusion
  unfold closeIfWillClose
  split
  · rename_i closes
    refine ⟨rfl, rfl, rfl, rfl, rfl, fun _ => .inl ?_, fun connected => Bool.noConfusion connected⟩
    change (channel.output.willClose || channel.output.closeWhenFlushed) = true
    rw [closes, Bool.true_or]
  · exact keepsQueue_main _ notHanding

theorem keepsQueue_closed {channel : HTTPChannel} (notHanding : channel.main ≠ .handingOver) :
    KeepsQueue channel
      { channel with output := channel.output.handleClose, main := .gone } where
  requests := rfl
  pendingTasks := rfl
  running := rfl
  appended := rfl
  given := rfl
  ending ending := .inl (ending.resolve_right notHanding)
  connected connected := Bool.noConfusion connected

theorem keepsQueue_willClose (channel : HTTPChannel) (main : MainPosition) :
    KeepsQueue channel { channel with output.willClose := true, main } :=
  ⟨rfl, rfl, rfl, rfl, rfl, fun _ => .inl rfl, id⟩

theorem maintain_keepsQueue (channel : HTTPChannel) : KeepsQueue channel channel.maintain := by
  unfold maintain
  split
  · exact keepsQueue_willClose channel channel.main
  · exact refl channel

theorem Stage.endTask {channel : HTTPChannel} (stage : channel.Stage) {i : Nat}
    {request : Numbered} (found : channel.running[i]? = some (.working request))
    (outcome : Except Exc Bool) : (channel.endTask i request outcome).Stage := by
  obtain ⟨rfl, call, pending, rest, queue, order⟩ := stage.at_request found rfl
  unfold HTTPChannel.endTask
  split
  · exact Stage.moved call pending queue order _ rfl
  · exact Stage.moved call pending queue order _ rfl
  · exact Stage.escaped call pending queue order

theorem Stage.next [CPython] {action : Action} {channel after : HTTPChannel}
    (stage : channel.Stage) (taken : next context action channel = some after) : after.Stage := by
  cases next_steps context taken with
  | read main =>
      rcases handleRead_receives context _ main with same | ⟨notEnding, receives⟩
      · rw [same]
        exact stage.of_keepsQueue (keepsQueue_main _ (by simp [main]))
      · exact stage.of_receives receives notEnding
  | readNothing main => exact stage.of_keepsQueue (keepsQueue_closed (by simp [main]))
  | readFails main => exact stage.of_keepsQueue (keepsQueue_main _ (by simp [main]))
  | flush main => exact stage.of_keepsQueue (flushBeforeClose_keepsQueue context _ main)
  | handOver main => exact stage.of_keepsQueue (keepsQueue_willClose channel .flushed)
  | close main => exact stage.of_keepsQueue (closeIfWillClose_keepsQueue main)
  | closeFailing main => exact stage.of_keepsQueue (keepsQueue_closed (by simp [main]))
  | maintain main => exact stage.of_keepsQueue (maintain_keepsQueue channel)
  | cancel queued => exact stage.cancel queued
  | pop queued => exact stage.pop queued
  | startTask found => exact stage.startTask found
  | testConnected found =>
      obtain ⟨rfl, call, pending, rest, queue, order⟩ := stage.at_request found rfl
      refine Stage.moved call pending queue order _ ?_
      split
      · rfl
      · rfl
  | write found =>
      exact stage.of_keepsQueue (keepsQueue_logOutput
        (Output.writeSoonOutput_keepsFlags context _ channel.output.answering).of_answering _)
  | endTask found => exact stage.endTask found _
  | settle found => exact stage.settle found
  | drain found => exact stage.prepares found rfl (drain_prepares context _ _ channel)
  | flushBelow found => exact stage.prepares found rfl (flushBelow_prepares context _ _ channel)
  | wake found => exact stage.prepares found rfl (wake_prepares context _ channel)
  | resume found => exact stage.resume context found
  | return_ left => exact stage.of_keepsQueue ⟨rfl, rfl, rfl, rfl, rfl, id, id⟩

theorem Numbering.resume {channel : HTTPChannel} (numbering : channel.Numbering) (i : Nat) :
    (resume context i channel).Numbering := by
  cases queue : channel.requests with
  | nil =>
      unfold HTTPChannel.resume
      split
      · exact numbering.of_same rfl rfl rfl
      · rename_i some_
        cases queue.symm.trans some_
  | cons request rest =>
      have sent := sendContinue_continues context { channel with requests := rest }
      have resumes := resume_resumes context i queue
      generalize HTTPChannel.resume context i channel = after at resumes ⊢
      cases resumes with
      | next => exact numbering.of_same rfl rfl rfl
      | continued last done =>
          rw [done] at sent
          exact numbering.of_same sent.appended sent.nextNumber sent.request
      | failed last done =>
          rw [done] at sent
          exact numbering.of_same sent.appended sent.nextNumber sent.request
      | quiet => exact numbering.of_same rfl rfl rfl

theorem Numbering.prepares {channel after : HTTPChannel} (numbering : channel.Numbering) {i : Nat}
    {request : Numbered} (prepares : Prepares i request channel after) : after.Numbering := by
  obtain ⟨-, -, -, -⟩ := prepares
  exact numbering.of_same rfl rfl rfl

theorem Numbering.next [CPython] {action : Action} {channel after : HTTPChannel}
    (numbering : channel.Numbering) (taken : next context action channel = some after) :
    after.Numbering := by
  cases next_steps context taken with
  | read main =>
      rcases handleRead_receives context _ main with same | ⟨-, receives⟩
      · rw [same]
        exact numbering.of_same rfl rfl rfl
      · exact receives.numbering numbering
  | flush main =>
      apply numbering.of_same
      all_goals
        unfold flushBeforeClose
        dsimp only
        split
        · rfl
        · rfl
  | close main =>
      apply numbering.of_same
      all_goals
        unfold closeIfWillClose
        split
        · rfl
        · rfl
  | maintain main =>
      apply numbering.of_same
      all_goals
        unfold maintain
        split
        · rfl
        · rfl
  | startTask found =>
      apply numbering.of_same
      all_goals
        unfold HTTPChannel.startTask
        split
        · rfl
        · rfl
  | endTask found =>
      apply numbering.of_same
      all_goals
        unfold HTTPChannel.endTask
        split
        · rfl
        · rfl
        · rfl
  | drain found => exact numbering.prepares (drain_prepares context _ _ channel)
  | flushBelow found => exact numbering.prepares (flushBelow_prepares context _ _ channel)
  | wake found => exact numbering.prepares (wake_prepares context _ channel)
  | resume found => exact numbering.resume context _
  | _ => exact numbering.of_same rfl rfl rfl

/-! ### Every run -/

/-- What holds in every state of a channel. -/
structure Orderly (channel : HTTPChannel) : Prop where
  stage : channel.Stage
  numbering : channel.Numbering

theorem Orderly.new (socket : List SendResult) : (HTTPChannel.new context socket).Orderly where
  stage := .idle rfl rfl rfl rfl
  numbering :=
    { sorted := .nil
      below := fun _ absent => by cases absent
      current := fun _ none => by cases none }

theorem run_orderly [CPython] {socket : List SendResult} {actions : List Action}
    {channel : HTTPChannel}
    (ran : Transition.run (next context) actions (HTTPChannel.new context socket) = some channel) :
    channel.Orderly := by
  apply Transition.run_invariant ?_ (Orderly.new context socket) ran
  intro action before after orderly taken
  exact ⟨orderly.stage.next context taken, orderly.numbering.next context taken⟩

structure ServedInOrder (channel : HTTPChannel) : Prop where
  alone : channel.pendingTasks + channel.running.length ≤ 1
  nobody : channel.requests = [] → channel.pendingTasks + channel.running.length = 0
  started : .popped ∈ channel.running → channel.requests ≠ []
  order : channel.given <+: channel.appended
  once : channel.appended.Nodup ∧ channel.given.Nodup

theorem Orderly.servedInOrder {channel : HTTPChannel} (orderly : channel.Orderly) :
    channel.ServedInOrder := by
  obtain ⟨stage, numbering⟩ := orderly
  have distinct : channel.appended.Nodup :=
    numbering.sorted.imp fun less => Nat.ne_of_lt less
  have ordered : ∀ order : channel.given <+: channel.appended,
      channel.appended.Nodup ∧ channel.given.Nodup :=
    fun order => ⟨distinct, distinct.sublist order.sublist⟩
  cases stage with
  | idle empty pending nobody all =>
      have order : channel.given <+: channel.appended := by rw [all]
      exact ⟨by simp [pending, nobody], fun _ => by simp [pending, nobody],
        fun popped => by simp [nobody] at popped, order, ordered order⟩
  | waiting nonempty task order =>
      have isPrefix : channel.given <+: channel.appended := by
        rw [order]
        exact List.prefix_append _ _
      refine ⟨?_, fun empty => absurd empty nonempty, fun _ => nonempty, isPrefix, ordered isPrefix⟩
      rcases task with ⟨pending, nobody⟩ | ⟨pending, call⟩
      · simp [pending, nobody]
      · simp [pending, call]
  | serving request rest position queue pending call named order =>
      have isPrefix : channel.given <+: channel.appended := by
        rw [order]
        exact List.prefix_append _ _
      have nonempty : channel.requests ≠ [] := by simp [queue]
      exact ⟨by simp [pending, call], fun empty => absurd empty nonempty, fun _ => nonempty, isPrefix,
        ordered isPrefix⟩
  | halted nonempty pending nobody order =>
      exact ⟨by simp [pending, nobody], fun empty => absurd empty nonempty, fun _ => nonempty, order,
        ordered order⟩
  | ended empty pending nobody order closes =>
      exact ⟨by simp [pending, nobody], fun _ => by simp [pending, nobody],
        fun popped => by simp [nobody] at popped, order, ordered order⟩

def Action.IsLastSection : Action → Prop
  | .settle _ => True
  | .resume _ => True
  | _ => False

/-- A call that ends its last section on a connected channel has seen to the next request. -/
theorem Stage.pending_of_left [CPython] {action : Action} {channel after : HTTPChannel}
    (stage : channel.Stage) (isLast : action.IsLastSection)
    (taken : HTTPChannel.next context action channel = some after)
    (connected : after.output.connected = true) (more : after.requests ≠ []) :
    after.pendingTasks = 1 := by
  cases next_steps context taken with
  | settle found => exact absurd rfl more
  | resume found =>
      obtain ⟨rfl, call, pending, rest, queue, -⟩ := stage.at_request found rfl
      have sent := sendContinue_continues context { channel with requests := rest }
      have resumes := resume_resumes context 0 queue
      generalize HTTPChannel.resume context 0 channel = after
        at resumes connected more ⊢
      cases resumes with
      | next => exact congrArg (· + 1) pending
      | continued last done =>
          rw [done] at sent
          exact absurd (sent.requests.trans last) more
      | failed last done =>
          rw [done] at sent
          exact absurd (sent.requests.trans last) more
      | quiet last => exact absurd (last connected) more
  | _ => exact isLast.elim

/-- Whatever the order of the steps, requests are served one at a time and in order. -/
theorem run_servedInOrder [CPython] {socket : List SendResult} {actions : List Action}
    {channel : HTTPChannel}
    (ran : Transition.run (next context) actions (HTTPChannel.new context socket) = some channel) :
    channel.ServedInOrder ∧
      ∀ action after, action.IsLastSection → next context action channel = some after →
        after.output.connected = true → after.requests ≠ [] → after.pendingTasks = 1 := by
  have orderly := run_orderly context ran
  exact ⟨orderly.servedInOrder, fun _ _ isLast taken connected more =>
    orderly.stage.pending_of_left context isLast taken connected more⟩

def serveFirst (application : Call AppIter) : List Action :=
  [.read (ascii "GET / HTTP/1.1\r\n\r\nGET / HTTP/1.1\r\n\r\n"), .pop, .startTask 0,
    .testConnected 0, .endTask 0 application Task.sampleContext, .drain 0, .resume 0]

theorem run_serveFirst :
    let _ : CPython := .unchecked
    ∃ channel, Transition.run (next {}) (serveFirst (Task.sampleApplication (ascii "abc")))
        (HTTPChannel.new {} []) = some channel ∧
      channel.pendingTasks = 1 ∧ channel.leaving = 1 ∧ channel.given = [0] := by
  intro cpython
  have counts : (Transition.run (next {}) (serveFirst (Task.sampleApplication (ascii "abc")))
      (HTTPChannel.new {} [])).map
        (fun channel => (channel.pendingTasks, channel.leaving, channel.given)) =
      some (1, 1, [0]) := by decide +kernel
  obtain ⟨channel, ran, same⟩ := Option.map_eq_some_iff.mp counts
  obtain ⟨pending, rest⟩ := Prod.mk.inj same
  obtain ⟨left, given⟩ := Prod.mk.inj rest
  exact ⟨channel, ran, pending, left, given⟩

theorem run_servedInOrder_sample :
    let _ : CPython := .unchecked
    ∃ channel, Transition.run (next {}) (serveFirst (Task.sampleApplication (ascii "abc")))
        (HTTPChannel.new {} []) = some channel ∧ channel.ServedInOrder := by
  intro cpython
  obtain ⟨channel, ran, -⟩ := run_serveFirst
  exact ⟨channel, ran, (run_servedInOrder {} ran).1⟩

/-- The task for the second request is pending while the call for the first one still returns. -/
theorem not_alone_leaving :
    let _ : CPython := .unchecked
    ¬ ∀ (context : ChannelContext) (socket : List SendResult) (actions : List Action)
        (channel : HTTPChannel),
      Transition.run (next context) actions (HTTPChannel.new context socket) = some channel →
        channel.pendingTasks + channel.running.length + channel.leaving ≤ 1 := by
  intro cpython alone
  obtain ⟨channel, ran, pending, left, -⟩ := run_serveFirst
  have two := alone {} [] _ channel ran
  omega

end HTTPChannel

end Waitress
