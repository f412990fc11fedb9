import Waitress.Channel.Stages

/-!
# Requests that were completed

A request that `received` leaves completed is taken off, unless the line
`100 Continue`, which clears the mark, is sent for it.
-/

namespace Waitress

open Raising

namespace HTTPRequestParser

/-- A call that raises leaves the request open. -/
def OpenIfRaised {Value : Type} (outcome : HTTPRequestParser × Except Exc Value) : Prop :=
  ∀ exc, outcome.2 = .error exc → outcome.1.completed = false

theorem receivedHead_openIfRaised [CPython] {parser : HTTPRequestParser}
    (unfinished : parser.completed = false) (adj : Adjustments) (headerPlus : Bytes) :
    OpenIfRaised (parser.receivedHead adj headerPlus) := by
  have kept : (parser.runParseHeader adj headerPlus).1.completed = false := unfinished
  unfold receivedHead
  split
  · exact fun exc raised => by cases raised
  generalize parser.runParseHeader adj headerPlus = outcome at kept ⊢
  split
  · exact fun exc raised => by cases raised
  · exact fun exc raised => by cases raised
  · exact fun exc raised => kept
  · dsimp only
    split
    · exact fun exc raised => by cases raised
    · exact fun exc raised => by cases raised

theorem received_openIfRaised [CPython] (adj : Adjustments) (parser : HTTPRequestParser)
    (data : Bytes) : OpenIfRaised (parser.received adj data) := by
  unfold received
  split
  · exact fun exc raised => by cases raised
  rename_i done
  have unfinished : parser.completed = false := eq_false_of_ne_true done
  split
  · exact fun exc raised => by cases raised
  dsimp only
  split
  · generalize kept : HTTPRequestParser.runParseHeader adj _ _ = outcome
    obtain ⟨middle, exc | ⟨⟩⟩ := outcome
    · intro other raised
      have same := congrArg (fun outcome => outcome.1.completed) kept
      exact same.symm.trans unfinished
    · exact fun exc raised => by cases raised
  · split
    · exact fun exc raised => by cases raised
    · generalize head : HTTPRequestParser.receivedHead adj _ _ = outcome
      have opens : OpenIfRaised outcome := by
        rw [← head]
        apply receivedHead_openIfRaised
        exact unfinished
      obtain ⟨middle, exc | ⟨⟩⟩ := outcome
      · exact fun _ _ => opens exc rfl
      · exact fun exc raised => by cases raised

end HTTPRequestParser

namespace HTTPChannel

/-- Every request that was left completed is off, and was appended once unless it is empty. -/
structure TakesFinished (channel : HTTPChannel) : Prop where
  notCurrent : ∀ request ∈ channel.finished,
    channel.request.map Numbered.number ≠ some request.number
  once : ∀ request ∈ channel.finished, request.parser.empty = false →
    channel.appended.count request.number = 1
  distinct : (numbers channel.finished).Nodup

/-- The current request is open, and those that were finished are behind it. -/
structure Closed (channel : HTTPChannel) : Prop where
  current : ∀ request, channel.request = some request → request.parser.completed = false
  past : ∀ request ∈ channel.finished, request.number < channel.currentNumber
  appended : ∀ request ∈ channel.finished, request.parser.empty = false →
    request.number ∈ channel.appended
  distinct : (numbers channel.finished).Nodup

theorem Closed.takesFinished {channel : HTTPChannel} (closed : channel.Closed)
    (numbering : channel.Numbering) : channel.TakesFinished where
  notCurrent request mem same := by
    have less := closed.past request mem
    rw [currentNumber, same] at less
    exact Nat.lt_irrefl _ less
  once request mem full := by
    have distinct : channel.appended.Nodup :=
      numbering.sorted.imp fun less => Nat.ne_of_lt less
    exact List.count_eq_one_of_mem distinct (closed.appended request mem full)
  distinct := closed.distinct

variable (context : ChannelContext)

def Reopens (channel : HTTPChannel) : Prop :=
  channel.request.any (fun request => request.parser.completed) = true ∧
    channel.requests = [] ∧ channel.waitsForContinue = true

instance (channel : HTTPChannel) : Decidable channel.Reopens :=
  inferInstanceAs (Decidable (channel.request.any (fun request => request.parser.completed) = true ∧
    channel.requests = [] ∧ channel.waitsForContinue = true))

/-- No round of the loop reopens a request. -/
def NeverReopens [CPython] : Nat → Bytes → HTTPChannel → Prop
  | 0, _, _ => True
  | fuel + 1, data, channel =>
      ¬ (exec (receiveRequest context data) channel).2.Reopens ∧
        ∀ n after, exec (receiveRound context data) channel = (.ok n, after) → n < data.length →
          NeverReopens fuel (data.drop n) after

/-- The line is sent for a request that is open anyway. -/
theorem sendContinue_closed : Within (Keeps Closed) (sendContinue context) := by
  intro channel closed
  cases current : channel.request with
  | none =>
      rw [sendContinue, exec_get_bind, current]
      exact closed
  | some request =>
      obtain ⟨result, output, completed, -, cleared, done⟩ := exec_sendContinue context current
      have same : channel.currentNumber = request.number := by
        rw [currentNumber, current]
        rfl
      rw [done]
      refine ⟨?_, ?_, closed.appended, closed.distinct⟩
      · intro other named
        obtain rfl := Option.some.inj named
        rcases cleared with kept | cleared
        · exact kept.trans (closed.current request current)
        · exact cleared
      · intro other mem
        exact Nat.lt_of_lt_of_eq (closed.past other mem) same

theorem continueIfAlone_closed : Within (Keeps Closed) (continueIfAlone context) := by
  refine within_bind within_get fun channel => ?_
  split
  · exact sendContinue_closed context
  · exact within_pure _

theorem Closed.takeRequest {channel : HTTPChannel} (closed : channel.Closed) :
    channel.takeRequest = channel := by
  unfold HTTPChannel.takeRequest
  split
  · rfl
  · rename_i request current
    rw [if_pos (closed.current request current)]

/-- A request that is complete is taken. -/
theorem takeRequest_closed {before channel : HTTPChannel} (closed : before.Closed)
    (numbering : channel.Numbering) {request : Numbered}
    (current : channel.request = some request) (complete : request.parser.completed = true)
    (number : request.number = before.currentNumber)
    (finished : channel.finished = before.finished ++ [request])
    (appended : channel.appended = before.appended) : channel.takeRequest.Closed := by
  have less := numbering.current request current
  have past : ∀ other ∈ channel.finished, other.number < channel.nextNumber := by
    rw [finished]
    intro other mem
    rcases List.mem_append.mp mem with earlier | last
    · have before := closed.past other earlier
      omega
    · rw [List.mem_singleton.mp last]
      exact less
  have distinct : (numbers channel.finished).Nodup := by
    rw [finished, numbers, List.map_append]
    apply List.Nodup.append closed.distinct (List.nodup_singleton _)
    intro one mem other
    obtain ⟨earlier, isEarlier, rfl⟩ := List.mem_map.mp mem
    have before := closed.past earlier isEarlier
    have same : earlier.number = request.number := List.mem_singleton.mp other
    omega
  have kept : ∀ other ∈ channel.finished, other.parser.empty = false →
      other.number ∈ before.appended ∨ other = request := by
    rw [finished]
    intro other mem full
    rcases List.mem_append.mp mem with earlier | last
    · exact .inl (closed.appended other earlier full)
    · exact .inr (List.mem_singleton.mp last)
  unfold HTTPChannel.takeRequest
  rw [current]
  dsimp only
  rw [if_neg (by rw [complete]; exact Bool.noConfusion)]
  split
  · rename_i blank
    refine ⟨fun _ none => by (cases none), past, ?_, distinct⟩
    intro other mem full
    rcases kept other mem full with earlier | rfl
    · exact appended ▸ earlier
    · exact Bool.noConfusion (full.symm.trans blank)
  · refine ⟨fun _ none => by (cases none), past, ?_, distinct⟩
    intro other mem full
    change other.number ∈ channel.appended ++ [request.number]
    rcases kept other mem full with earlier | rfl
    · rw [appended]
      exact List.mem_append_left _ earlier
    · exact List.mem_append_right _ (List.mem_singleton_self _)

/-- How a call of the parser can end. -/
inductive ParserLeaves (channel : HTTPChannel) : Except Exc Nat × HTTPChannel → Prop where
  | unfinished {result : Except Exc Nat} {middle : HTTPChannel} : middle.Closed →
      ParserLeaves channel (result, middle)
  | finished {n : Nat} {middle : HTTPChannel} {request : Numbered} :
      middle.request = some request → request.parser.completed = true →
      request.number = channel.currentNumber → middle.finished = channel.finished ++ [request] →
      middle.appended = channel.appended → ParserLeaves channel (.ok n, middle)

theorem receiveRequest_leaves [CPython] (data : Bytes) {channel : HTTPChannel}
    (closed : channel.Closed) :
    ParserLeaves channel (exec (receiveRequest context data) channel) := by
  have number : (channel.request.getD { number := channel.nextNumber, parser := {} }).number =
      channel.currentNumber := by
    cases found : channel.request with
    | none => simp [currentNumber, found]
    | some request => simp [currentNumber, found]
  have raises := HTTPRequestParser.received_openIfRaised context.adj
    (channel.request.getD { number := channel.nextNumber, parser := {} }).parser data
  rw [receiveRequest, exec_get_bind]
  dsimp only
  rw [exec_modify_bind, exec_ofExcept]
  generalize HTTPRequestParser.received context.adj _ data = outcome at raises ⊢
  obtain ⟨parser, result⟩ := outcome
  generalize channel.request.getD { number := channel.nextNumber, parser := {} } = request
    at number ⊢
  cases complete : parser.completed with
  | false =>
      refine .unfinished ⟨?_, ?_, ?_, ?_⟩
      · intro other named
        obtain rfl := Option.some.inj named
        exact complete
      · intro other mem
        exact Nat.lt_of_lt_of_eq (closed.past other mem) number.symm
      · exact closed.appended
      · exact closed.distinct
  | true =>
      cases result with
      | error exc => exact Bool.noConfusion (complete.symm.trans (raises exc rfl))
      | ok n => exact .finished rfl complete number rfl rfl

theorem receiveRound_closed [CPython] {data : Bytes} {channel : HTTPChannel}
    (closed : channel.Closed) (numbering : channel.Numbering)
    (keeps : ¬ (exec (receiveRequest context data) channel).2.Reopens) :
    (exec (receiveRound context data) channel).2.Closed := by
  have leaves := receiveRequest_leaves context data closed
  have numbered := (receiveRequest_receives context data channel).numbering numbering
  rw [receiveRound, exec_bind]
  generalize exec (receiveRequest context data) channel = outcome at leaves keeps numbered ⊢
  cases leaves with
  | unfinished closes =>
      rename_i result middle
      cases result with
      | error exc => exact closes
      | ok n =>
          refine within_bind (continueIfAlone_closed context) (fun _ => ?_) middle closes
          refine within_bind (within_modify fun channel closed => ?_) fun _ => within_pure _
          rw [closed.takeRequest]
          exact closed
  | finished current complete number finished appended =>
      rename_i n middle request
      have alone : exec (continueIfAlone context) middle = (.ok ⟨⟩, middle) := by
        rw [continueIfAlone, exec_get_bind, if_neg, exec_pure]
        intro waits
        refine keeps ⟨?_, waits.1, waits.2⟩
        rw [current]
        exact complete
      dsimp only
      rw [exec_bind, alone]
      exact takeRequest_closed closed numbered current complete number finished appended

theorem receiveLoop_closed [CPython] (fuel : Nat) (data : Bytes) {channel : HTTPChannel}
    (closed : channel.Closed) (numbering : channel.Numbering)
    (never : NeverReopens context fuel data channel) :
    (exec (receiveLoop context fuel data) channel).2.Closed := by
  induction fuel generalizing data channel with
  | zero => exact closed
  | succ fuel inductionHypothesis =>
      obtain ⟨keeps, later⟩ := never
      have round := receiveRound_closed context closed numbering keeps
      have numbered := (receiveRound_receives context data channel).numbering numbering
      rw [receiveLoop, exec_bind]
      rcases outcome : exec (receiveRound context data) channel with ⟨exc | n, middle⟩
      · rw [outcome] at round
        exact round
      · rw [outcome] at round numbered
        dsimp only
        split
        · exact round
        · rename_i more
          exact inductionHypothesis _ round numbered (later n middle outcome (Nat.lt_of_not_ge more))

def KeepsClosed [CPython] (action : Action) (channel : HTTPChannel) : Prop :=
  match action with
  | .read data => NeverReopens context data.length data channel
  | _ => True

theorem Closed.next [CPython] {action : Action} {channel after : HTTPChannel}
    (closed : channel.Closed) (numbering : channel.Numbering)
    (keeps : KeepsClosed context action channel)
    (taken : HTTPChannel.next context action channel = some after) : after.Closed := by
  have same : ∀ {other : HTTPChannel}, other.request = channel.request →
      other.nextNumber = channel.nextNumber → other.finished = channel.finished →
      other.appended = channel.appended → other.Closed := by
    intro other request number finished appended
    obtain ⟨current, past, arrived, distinct⟩ := closed
    refine ⟨by rwa [request], ?_, by rwa [finished, appended], by rwa [finished]⟩
    rw [finished, currentNumber, request, number]
    exact past
  have prepared : ∀ {i : Nat} {request : Numbered} {other : HTTPChannel},
      Prepares i request channel other → other.Closed := by
    rintro i request other ⟨-, -, -, -⟩
    exact same rfl rfl rfl rfl
  cases next_steps context taken with
  | read main =>
      rename_i data
      have received : (exec (received context data) channel).2.Closed := by
        rw [HTTPChannel.received, exec_get_bind]
        split
        · exact closed
        · exact receiveLoop_closed context _ data closed numbering keeps
      obtain ⟨_, read⟩ := handleRead_main context data channel
      rw [read]
      exact ⟨received.current, received.past, received.appended, received.distinct⟩
  | flush main =>
      unfold flushBeforeClose
      dsimp only
      split
      · exact same rfl rfl rfl rfl
      · exact same rfl rfl rfl rfl
  | close main =>
      unfold closeIfWillClose
      split
      · exact same rfl rfl rfl rfl
      · exact same rfl rfl rfl rfl
  | maintain main =>
      unfold maintain
      split
      · exact same rfl rfl rfl rfl
      · exact closed
  | startTask found =>
      unfold HTTPChannel.startTask
      split
      · exact same rfl rfl rfl rfl
      · exact same rfl rfl rfl rfl
  | endTask found =>
      unfold HTTPChannel.endTask
      split
      · exact same rfl rfl rfl rfl
      · exact same rfl rfl rfl rfl
      · exact same rfl rfl rfl rfl
  | drain found => exact prepared (drain_prepares context _ _ channel)
  | flushBelow found => exact prepared (flushBelow_prepares context _ _ channel)
  | wake found => exact prepared (wake_prepares context _ channel)
  | resume found =>
      unfold HTTPChannel.resume
      split
      · exact same rfl rfl rfl rfl
      rename_i first rest queue
      have popped : Closed { channel with requests := rest } := same rfl rfl rfl rfl
      have sent := sendContinue_closed context _ popped
      dsimp only
      repeat' split
      · exact same rfl rfl rfl rfl
      · rename_i middle done
        rw [done] at sent
        exact ⟨sent.current, sent.past, sent.appended, sent.distinct⟩
      · rename_i exc middle done
        rw [done] at sent
        exact ⟨sent.current, sent.past, sent.appended, sent.distinct⟩
      · exact same rfl rfl rfl rfl
  | _ => exact same rfl rfl rfl rfl

/-- Unless a call of `received` reopens a request, every finished one is taken. -/
theorem run_takesFinished [CPython] {socket : List SendResult} {actions : List Action}
    {channel : HTTPChannel}
    (keeps : Transition.Along (next context) (KeepsClosed context) actions
      (HTTPChannel.new context socket))
    (ran : Transition.run (next context) actions (HTTPChannel.new context socket) = some channel) :
    channel.TakesFinished := by
  have start : (HTTPChannel.new context socket).Closed :=
    { current := fun _ none => by cases none
      past := fun _ absent => by cases absent
      appended := fun _ absent => by cases absent
      distinct := .nil }
  have both : channel.Numbering ∧ channel.Closed := by
    apply Transition.run_invariant_along ?_ ⟨(Orderly.new context socket).numbering, start⟩ keeps ran
    rintro action before after ⟨numbering, closed⟩ kept taken
    exact ⟨numbering.next context taken, closed.next context numbering kept taken⟩
  exact both.2.takesFinished both.1

theorem run_takesFinished_sample :
    let _ : CPython := .unchecked
    ∃ channel, Transition.run (next {}) [.read (ascii "GET / HTTP/1.1\r\n\r\n")]
        (HTTPChannel.new {} []) = some channel ∧ channel.TakesFinished := by
  intro cpython
  have keeps : Transition.Along (next {}) (KeepsClosed {})
      [.read (ascii "GET / HTTP/1.1\r\n\r\n")] (HTTPChannel.new {} []) := by
    refine ⟨⟨by decide +kernel, ?_⟩, fun _ _ => trivial⟩
    intro n after round more
    have all : (exec (receiveRound {} (ascii "GET / HTTP/1.1\r\n\r\n")) (HTTPChannel.new {} [])).1 =
        .ok 18 := by decide +kernel
    rw [round] at all
    cases all
    exact absurd more (by decide)
  obtain ⟨channel, ran⟩ : ∃ channel, Transition.run (next {})
      [.read (ascii "GET / HTTP/1.1\r\n\r\n")] (HTTPChannel.new {} []) = some channel := ⟨_, rfl⟩
  exact ⟨channel, ran, run_takesFinished {} keeps ran⟩

/-- A request without a body that expects the line stays the current one. -/
theorem not_takesFinished :
    let _ : CPython := .unchecked
    ¬ ∀ (context : ChannelContext) (socket : List SendResult) (actions : List Action)
        (channel : HTTPChannel),
      Transition.run (next context) actions (HTTPChannel.new context socket) = some channel →
        channel.TakesFinished := by
  intro cpython takes
  have numbered : (Transition.run (next {})
      [.read (ascii "GET / HTTP/1.1\r\nExpect: 100-continue\r\n\r\n")]
      (HTTPChannel.new {} [])).map (fun channel =>
        (channel.request.map Numbered.number, numbers channel.finished)) = some (some 0, [0]) := by
    decide +kernel
  obtain ⟨channel, ran, same⟩ := Option.map_eq_some_iff.mp numbered
  obtain ⟨current, finished⟩ := Prod.mk.inj same
  obtain ⟨request, mem, number⟩ := List.mem_map.mp
    (show 0 ∈ numbers channel.finished by rw [finished]; exact List.mem_singleton_self 0)
  apply (takes {} [] _ channel ran).notCurrent request mem
  rw [current, number]

end HTTPChannel

end Waitress
