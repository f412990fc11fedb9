import Waitress.Parser.Head
import Waitress.Receiver.Body

/-!
# Segmentation independence of the parser

`reader` reads a request one byte at a time.  The parser, which works on
segments, is that machine, so that the way a stream is cut does not show in
the request.
-/

namespace Waitress

/-- What the bytes of a request so far mean. -/
inductive Reading where
  | heading (text : Bytes)
  | body (request : RequestHead) (state : Body) (count : Nat)
  | blank
  | ready (request : RequestHead) (content : Bytes)
  | failed
  | raised
  deriving DecidableEq, Repr

namespace Reading

def firstBody : Receiver → Body
  | .fixed rcv => .fixed rcv.remain []
  | .chunked _ => .chunked (.sizeLine [] [])

def headEnd [CPython] (adj : Adjustments) (text : Bytes) : Reading :=
  if Bytes.lstrip text = [] then .blank
  else
    match Raising.exec (parseHeader adj (Bytes.lstrip text)) {} with
    | (.error (.parsingError _), _) => .failed
    | (.error (.transferEncodingNotImplemented _), _) => .failed
    | (.error _, _) => .raised
    | (.ok (), request) =>
        if request.contentLength > 0 ∧ request.contentLength ≥ adj.maxRequestBodySize then .failed
        else
          match request.bodyRcv with
          | none => .ready request []
          | some rcv => .body request (firstBody rcv) 0

def completeHead (request : RequestHead) (content : Bytes) : RequestHead :=
  { request with
    headers :=
      if request.chunked = true then
        request.headers.set "CONTENT_LENGTH".toList (intStr content.length)
      else request.headers }

/-- Where `count` bytes of a body have led to. -/
def inBody (adj : Adjustments) (request : RequestHead) (state : Body) (count : Nat) : Reading :=
  if (count : Int) ≥ adj.maxRequestBodySize then .failed
  else if state.isBroken = true then .failed
  else if state.isFinished = true then
    .ready (completeHead request state.content) state.content
  else .body request state count

def step [CPython] (adj : Adjustments) : Reading → UInt8 → Reading
  | .heading text, x =>
      if ((text ++ [x]).length : Int) ≥ adj.maxRequestHeaderSize then .failed
      else if findDoubleNewline (text ++ [x]) = none then .heading (text ++ [x])
      else headEnd adj (text ++ [x])
  | .body request state count, x => inBody adj request (state.step x) (count + 1)
  | .blank, _ => .blank
  | .ready request content, _ => .ready request content
  | .failed, _ => .failed
  | .raised, _ => .raised

def isHalted : Reading → Bool
  | .blank => true
  | .ready _ _ => true
  | _ => false

def isBroken : Reading → Bool
  | .failed => true
  | .raised => true
  | _ => false

end Reading

def reader [CPython] (adj : Adjustments) : Incremental.Machine Reading UInt8 where
  step := Reading.step adj
  halted := Reading.isHalted
  broken := Reading.isBroken
  broken_step := by
    intro state broken symbol
    cases state <;> first | rfl | simp [Reading.isBroken] at broken
  broken_runs := by
    intro state broken
    cases state <;> first | rfl | simp [Reading.isBroken] at broken

namespace Reading

variable [CPython] {adj : Adjustments}

theorem run_failed (input : Bytes) : (reader adj).run .failed input = (.failed, []) :=
  (reader adj).run_broken rfl input

variable (adj) in
/-- Reading a head: it ends with the first double newline unless it is too
large by then. -/
theorem run_heading {text input : Bytes} (open_ : findDoubleNewline text = none)
    (nonempty : input ≠ []) :
    (reader adj).run (.heading text) input =
      if (((findDoubleNewline (text ++ input)).getD (text ++ input).length : Nat) : Int) ≥
          adj.maxRequestHeaderSize then (.failed, [])
      else
        match findDoubleNewline (text ++ input) with
        | none => (.heading (text ++ input), [])
        | some index =>
            (reader adj).run (headEnd adj ((text ++ input).take index))
              ((text ++ input).drop index) := by
  induction input generalizing text with
  | nil => exact absurd rfl nonempty
  | cons x input inductionHypothesis =>
      have shape : text ++ x :: input = (text ++ [x]) ++ input := by simp
      rw [(reader adj).run_cons rfl, shape]
      change (reader adj).run (step adj (.heading text) x) input = _
      by_cases large : ((text ++ [x]).length : Int) ≥ adj.maxRequestHeaderSize
      · have stillLarge : (((findDoubleNewline (text ++ [x] ++ input)).getD
            (text ++ [x] ++ input).length : Nat) : Int) ≥ adj.maxRequestHeaderSize := by
          cases found : findDoubleNewline (text ++ [x] ++ input) with
          | none =>
              rw [Option.getD_none, List.length_append]
              omega
          | some index =>
              have late : text.length < index := by
                rw [List.append_assoc] at found
                exact findDoubleNewline_late open_ found
              simp only [List.length_append, List.length_singleton] at large
              simp only [Option.getD_some]
              omega
        rw [step, if_pos large, if_pos stillLarge, run_failed]
      · cases found : findDoubleNewline (text ++ [x]) with
        | none =>
            rw [step, if_neg large, if_pos found]
            by_cases last : input = []
            · subst last
              rw [List.append_nil, found, Option.getD_none, if_neg large]
              rfl
            · exact inductionHypothesis found last
        | some index =>
            have ends : (text ++ [x]).length = index := by
              rw [List.length_append, List.length_singleton]
              exact (findDoubleNewline_snoc open_ found).symm
            rw [step, if_neg large, if_neg (by simp [found]), findDoubleNewline_append found,
              Option.getD_some, if_neg (by rwa [← ends])]
            simp only [List.take_left' ends, List.drop_left' ends]

theorem run_body {request : RequestHead} {state next : Body} {input : Bytes} (count : Nat)
    (running : state.isFinished = false) (nonempty : input ≠ [])
    (exactly : bodyMachine.run state input = (next, [])) :
    (reader adj).run (.body request state count) input =
      (inBody adj request next (count + input.length), []) := by
  induction input generalizing state count with
  | nil => exact absurd rfl nonempty
  | cons x input inductionHypothesis =>
      rw [bodyMachine.run_cons running] at exactly
      rw [(reader adj).run_cons rfl]
      change bodyMachine.run (state.step x) input = (next, []) at exactly
      change (reader adj).run (inBody adj request (state.step x) (count + 1)) input = _
      by_cases last : input = []
      · subst last
        rw [bodyMachine.run_nil] at exactly
        obtain ⟨rfl, -⟩ := Prod.mk.inj exactly
        rfl
      have total : count + (x :: input).length = count + 1 + input.length := by
        rw [List.length_cons]
        omega
      rw [total]
      by_cases large : ((count + 1 : Nat) : Int) ≥ adj.maxRequestBodySize
      · have stillLarge : ((count + 1 + input.length : Nat) : Int) ≥ adj.maxRequestBodySize := by
          omega
        rw [inBody, if_pos large, run_failed, inBody, if_pos stillLarge]
      · by_cases broken : (state.step x).isBroken = true
        · rw [bodyMachine.run_broken broken] at exactly
          obtain ⟨rfl, -⟩ := Prod.mk.inj exactly
          simp only [inBody, large, broken, if_true, run_failed, ite_self]
        · by_cases finished : (state.step x).isFinished = true
          · rw [bodyMachine.run_halted finished] at exactly
            exact absurd (Prod.mk.inj exactly).2 last
          · rw [inBody, if_neg large, if_neg broken, if_neg finished]
            exact inductionHypothesis (count + 1) (by simpa using finished) last exactly

theorem run_body_broken {request : RequestHead} {state : Body} {input : Bytes} (count : Nat)
    (running : state.isFinished = false) (sound : state.isBroken = false)
    (broken : (bodyMachine.run state input).1.isBroken = true) :
    ((reader adj).run (.body request state count) input).1 = .failed := by
  induction input generalizing state count with
  | nil => exact absurd (sound.symm.trans broken) (by simp)
  | cons x input inductionHypothesis =>
      rw [bodyMachine.run_cons running] at broken
      rw [(reader adj).run_cons rfl]
      change (bodyMachine.run (state.step x) input).1.isBroken = true at broken
      change ((reader adj).run (inBody adj request (state.step x) (count + 1)) input).1 = _
      by_cases failed : ((count + 1 : Nat) : Int) ≥ adj.maxRequestBodySize ∨
          (state.step x).isBroken = true
      · have next : inBody adj request (state.step x) (count + 1) = .failed := by
          rcases failed with large | broke
          · rw [inBody, if_pos large]
          · rw [inBody, if_pos broke, ite_self]
        rw [next, run_failed]
      · obtain ⟨small, unbroken⟩ := not_or.mp failed
        by_cases finished : (state.step x).isFinished = true
        · rw [bodyMachine.run_halted finished] at broken
          exact absurd broken unbroken
        · rw [inBody, if_neg small, if_neg unbroken, if_neg finished]
          exact inductionHypothesis (count + 1) (by simpa using finished)
            (by simpa using unbroken) broken

end Reading

/-- A parser that is fed; once `received` has raised it is fed no more. -/
structure Feeding where
  parser : HTTPRequestParser := {}
  raised : Option Exc := none
  deriving DecidableEq, Repr

namespace Feeding

def received [CPython] (adj : Adjustments) (feeding : Feeding) (data : Bytes) : Feeding × Nat :=
  match feeding.parser.received adj data with
  | (parser, .ok consumed) => (⟨parser, none⟩, consumed)
  | (parser, .error exc) => (⟨parser, some exc⟩, 0)

def consumer [CPython] (adj : Adjustments) : Incremental.Consumer Feeding UInt8 where
  receive := received adj
  done := fun feeding => feeding.parser.completed || feeding.raised.isSome

/-- The parser's fields, by the state of the machine. -/
def Follows (feeding : Feeding) : Reading → Prop
  | .heading text =>
      findDoubleNewline text = none ∧
        feeding = ⟨{ headerPlus := text, headerBytesReceived := text.length }, none⟩
  | .body request state count =>
      state.isFinished = false ∧ state.isBroken = false ∧
        ∃ rcv headersFinished headerPlus headerBytesReceived, Receiver.Follows rcv state ∧
          feeding =
            ⟨{ toRequestHead := { request with bodyRcv := some rcv }
               bodyBytesReceived := count, headersFinished, headerPlus, headerBytesReceived },
              none⟩
  | .blank =>
      ∃ headersFinished headerPlus headerBytesReceived,
        feeding =
          ⟨{ completed := true, empty := true, headersFinished, headerPlus, headerBytesReceived },
            none⟩
  | .ready request content =>
      ∃ bodyRcv headersFinished headerPlus headerBytesReceived bodyBytesReceived,
        (match bodyRcv with
          | none => content = []
          | some rcv => rcv.getbuf.Holds content) ∧
        feeding =
          ⟨{ toRequestHead := { request with bodyRcv }, completed := true,
             headersFinished, headerPlus, headerBytesReceived, bodyBytesReceived },
            none⟩
  | .failed =>
      feeding.parser.completed = true ∧ feeding.parser.empty = false ∧
        feeding.parser.error.isSome = true ∧ feeding.raised = none
  | .raised =>
      feeding.parser.completed = false ∧ feeding.parser.empty = false ∧
        feeding.raised.isSome = true

theorem Follows.raised_iff {feeding : Feeding} {state : Reading} (follows : feeding.Follows state) :
    feeding.raised.isSome = true ↔ state = .raised := by
  cases state with
  | heading text => obtain ⟨-, rfl⟩ := follows; simp
  | body request state count => obtain ⟨-, -, _, _, _, _, -, rfl⟩ := follows; simp
  | blank => obtain ⟨_, _, _, rfl⟩ := follows; simp
  | ready request content => obtain ⟨_, _, _, _, _, -, rfl⟩ := follows; simp
  | failed => simp [follows.2.2.2]
  | raised => simp [follows.2.2]

variable [CPython] {adj : Adjustments}

def ReceiveFollows (adj : Adjustments) (feeding : Feeding) (state : Reading) (segment : Bytes) :
    Prop :=
  ∃ next, (feeding.received adj segment).1.Follows next ∧
    (0 < (feeding.received adj segment).2 ∧ (feeding.received adj segment).2 ≤ segment.length ∧
        (reader adj).run state (segment.take (feeding.received adj segment).2) = (next, []) ∨
      (reader adj).broken next = true ∧ ((reader adj).run state segment).1 = next)

theorem firstBody_follows {block : Bytes} {final : RequestHead} {rcv : Receiver}
    (parsed : Raising.exec (parseHeader adj block) {} = (.ok ⟨⟩, final))
    (given : final.bodyRcv = some rcv) :
    rcv.Follows (Reading.firstBody rcv) ∧ (Reading.firstBody rcv).isFinished = false ∧
      (Reading.firstBody rcv).isBroken = false := by
  have empty : OverflowableBuffer.Holds { overflow := adj.inbufOverflow } [] :=
    ⟨OverflowableBuffer.fresh_valid _, rfl⟩
  rcases bodyRcv_fresh parsed given with rfl | ⟨positive, rfl⟩
  · exact ⟨ChunkedReceiver.fresh_follows _, rfl, rfl⟩
  · have some : ¬ final.contentLength.toNat = 0 := by omega
    exact ⟨⟨rfl, by simp [some], empty⟩, by simp [Reading.firstBody, Body.isFinished, some], rfl⟩

def ofResult : HTTPRequestParser × Except Exc Unit → Feeding
  | (parser, .ok _) => ⟨parser, none⟩
  | (parser, .error exc) => ⟨parser, some exc⟩

variable (adj) in
theorem receivedHead_follows (text headerPlus : Bytes) (headerBytesReceived : Nat) :
    (ofResult (HTTPRequestParser.receivedHead adj { headerPlus, headerBytesReceived }
      (Bytes.lstrip text))).Follows (Reading.headEnd adj text) := by
  unfold HTTPRequestParser.receivedHead Reading.headEnd
  by_cases blank : Bytes.lstrip text = []
  · rw [if_pos blank, if_pos blank]
    exact ⟨_, _, _, rfl⟩
  rw [if_neg blank, if_neg blank, HTTPRequestParser.runParseHeader]
  rcases parsed : Raising.exec (parseHeader adj (Bytes.lstrip text)) {} with ⟨exc | _, request⟩
  · cases exc with
    | parsingError message => exact ⟨rfl, rfl, rfl, rfl⟩
    | transferEncodingNotImplemented message => exact ⟨rfl, rfl, rfl, rfl⟩
    | _ => exact ⟨rfl, rfl, rfl⟩
  · by_cases large : request.contentLength > 0 ∧ request.contentLength ≥ adj.maxRequestBodySize
    · simp only [large, and_self, if_true]
      exact ⟨rfl, rfl, rfl, rfl⟩
    · simp only [large, if_false]
      cases given : request.bodyRcv with
      | none =>
          cases request
          cases given
          exact ⟨none, _, _, _, _, rfl, rfl⟩
      | some rcv =>
          obtain ⟨follows, unfinished, unbroken⟩ := firstBody_follows parsed given
          cases request
          cases given
          exact ⟨unfinished, unbroken, rcv, _, _, _, follows, rfl⟩

theorem received_inBody {parser : HTTPRequestParser} {rcv : Receiver} {segment : Bytes}
    (running : parser.completed = false) (given : parser.bodyRcv = some rcv) :
    received adj ⟨parser, none⟩ segment =
      (⟨(parser.receivedBody adj rcv segment).1, none⟩, (rcv.received segment).2) := by
  have consumed : (parser.receivedBody adj rcv segment).2 = (rcv.received segment).2 := by
    unfold HTTPRequestParser.receivedBody
    dsimp only
    split_ifs <;> rfl
  simp only [received, HTTPRequestParser.received, running, given, Bool.false_eq_true, if_false,
    consumed]

omit [CPython] in
/-- The parser after a call in the body, by what the receiver came to. -/
theorem receivedBody_follows {request : RequestHead} {rcv : Receiver} {next : Body}
    {segment : Bytes} (count headerBytesReceived : Nat) (headersFinished : Bool) (headerPlus : Bytes)
    (follows : (rcv.received segment).1.Follows next) :
    (Feeding.mk
      (HTTPRequestParser.receivedBody adj
        { toRequestHead := { request with bodyRcv := some rcv }
          bodyBytesReceived := count, headersFinished, headerPlus, headerBytesReceived }
        rcv segment).1 none).Follows
      (Reading.inBody adj request next (count + (rcv.received segment).2)) := by
  obtain ⟨whenBroken, whenSound⟩ := follows.status
  unfold HTTPRequestParser.receivedBody Reading.inBody
  dsimp only
  split
  · exact ⟨rfl, rfl, rfl, rfl⟩
  · cases broken : next.isBroken with
    | true =>
        rw [if_pos rfl, if_pos (whenBroken broken)]
        exact ⟨rfl, rfl, whenBroken broken, rfl⟩
    | false =>
        obtain ⟨noError, completed⟩ := whenSound broken
        simp only [noError, completed, Option.isSome_none, Bool.false_eq_true, if_false]
        cases finished : next.isFinished with
        | true =>
            have holds := follows.holds finished
            have length : (rcv.received segment).1.len = next.content.length := by
              rw [Receiver.len, OverflowableBuffer.len_eq holds.valid, holds.pending]
            simp only [if_true, length]
            exact ⟨some _, _, _, _, _, holds, rfl⟩
        | false =>
            simp only [Bool.false_eq_true, if_false]
            exact ⟨finished, broken, _, _, _, _, follows, rfl⟩

theorem received_body {request : RequestHead} {state : Body} {count : Nat} {feeding : Feeding}
    {segment : Bytes} (follows : feeding.Follows (.body request state count))
    (nonempty : segment ≠ []) : ReceiveFollows adj feeding (.body request state count) segment := by
  obtain ⟨unfinished, unbroken, rcv, headersFinished, headerPlus, headerBytesReceived, rcvFollows,
    rfl⟩ := follows
  have running : rcv.completed = false := (rcvFollows.status.2 unbroken).2.trans unfinished
  obtain ⟨next, nextFollows, exactly⟩ := Receiver.received_follows rcvFollows running nonempty
  rw [ReceiveFollows, received_inBody rfl rfl]
  refine ⟨_, receivedBody_follows _ _ _ _ nextFollows, ?_⟩
  dsimp only
  rcases exactly with ⟨positive, bounded, whole⟩ | ⟨broken, runs⟩
  · have length : (segment.take (rcv.received segment).2).length = (rcv.received segment).2 :=
      List.length_take_of_le bounded
    refine .inl ⟨positive, bounded, ?_⟩
    rw [Reading.run_body count unfinished (List.length_pos_iff.mp (by omega)) whole, length]
  · have failed : Reading.inBody adj request next (count + (rcv.received segment).2) = .failed := by
      rw [Reading.inBody, if_pos (show next.isBroken = true from broken), ite_self]
    rw [failed]
    exact .inr ⟨rfl, Reading.run_body_broken count unfinished unbroken (by rw [runs]; exact broken)⟩

theorem received_inHeading {text segment : Bytes}
    (small : ¬ (((findDoubleNewline (text ++ segment)).getD (text ++ segment).length : Nat) : Int) ≥
      adj.maxRequestHeaderSize) :
    received adj ⟨{ headerPlus := text, headerBytesReceived := text.length }, none⟩ segment =
      match findDoubleNewline (text ++ segment) with
      | none =>
          (⟨{ headerPlus := text ++ segment, headerBytesReceived := (text ++ segment).length },
            none⟩, segment.length)
      | some index =>
          let ended := ofResult (HTTPRequestParser.receivedHead adj
            { headerPlus := text, headerBytesReceived := index }
            (Bytes.lstrip ((text ++ segment).take index)))
          (ended,
            if ended.raised.isSome = true then 0
            else segment.length - ((text ++ segment).length - index)) := by
  rw [List.length_append] at small
  simp only [received, HTTPRequestParser.received, Bool.false_eq_true, if_false, small]
  cases found : findDoubleNewline (text ++ segment) with
  | none => simp only [Option.getD_none, List.length_append]
  | some index =>
      simp only [Option.getD_some]
      rcases HTTPRequestParser.receivedHead adj { headerPlus := text, headerBytesReceived := index }
        (Bytes.lstrip ((text ++ segment).take index)) with ⟨parser, _ | _⟩ <;> rfl

theorem received_tooLarge {text segment : Bytes}
    (large : (((findDoubleNewline (text ++ segment)).getD (text ++ segment).length : Nat) : Int) ≥
      adj.maxRequestHeaderSize) :
    (received adj ⟨{ headerPlus := text, headerBytesReceived := text.length }, none⟩
      segment).1.Follows .failed := by
  rw [List.length_append] at large
  simp only [received, HTTPRequestParser.received, Bool.false_eq_true, if_false, large, if_true,
    HTTPRequestParser.runParseHeader]
  have parsed := exec_parseHeader_stub adj
  rcases stub : Raising.exec (parseHeader adj (ascii "GET / HTTP/1.0\r\n")) {} with ⟨_ | _, head⟩
  · rw [stub] at parsed
    cases parsed
  · exact ⟨rfl, rfl, rfl, rfl⟩

theorem received_heading {text segment : Bytes} {feeding : Feeding}
    (follows : feeding.Follows (.heading text)) (nonempty : segment ≠ []) :
    ReceiveFollows adj feeding (.heading text) segment := by
  obtain ⟨open_, rfl⟩ := follows
  by_cases large : (((findDoubleNewline (text ++ segment)).getD (text ++ segment).length : Nat) :
      Int) ≥ adj.maxRequestHeaderSize
  · refine ⟨.failed, received_tooLarge large, .inr ⟨rfl, ?_⟩⟩
    rw [Reading.run_heading adj open_ nonempty, if_pos large]
  · rw [ReceiveFollows, received_inHeading large]
    have positive := List.length_pos_iff.mpr nonempty
    cases found : findDoubleNewline (text ++ segment) with
    | none =>
        refine ⟨.heading (text ++ segment), ⟨found, rfl⟩, .inl ⟨positive, Nat.le_refl _, ?_⟩⟩
        rw [List.take_length, Reading.run_heading adj open_ nonempty, if_neg large, found]
    | some index =>
        have late := findDoubleNewline_late open_ found
        have bounds := findDoubleNewline_bounds found
        rw [found, Option.getD_some] at large
        have length : (text ++ segment).length = text.length + segment.length :=
          List.length_append
        have follows := receivedHead_follows adj ((text ++ segment).take index) text index
        dsimp only
        by_cases raised : (ofResult (HTTPRequestParser.receivedHead adj
            { headerPlus := text, headerBytesReceived := index }
            (Bytes.lstrip ((text ++ segment).take index)))).raised.isSome = true
        · have state := follows.raised_iff.mp raised
          rw [state] at follows
          refine ⟨.raised, follows, .inr ⟨rfl, ?_⟩⟩
          rw [Reading.run_heading adj open_ nonempty, found, Option.getD_some, if_neg large]
          dsimp only
          rw [state, (reader adj).run_broken rfl]
        · have count : segment.length - ((text ++ segment).length - index) =
              index - text.length := by omega
          have read : text ++ segment.take (index - text.length) = (text ++ segment).take index := by
            rw [List.take_append, List.take_of_length_le (show text.length ≤ index by omega)]
          have ends := findDoubleNewline_take found
          rw [if_neg raised, count]
          refine ⟨_, follows, .inl ⟨by omega, by omega, ?_⟩⟩
          rw [Reading.run_heading adj open_ (List.length_pos_iff.mp (by rw [List.length_take]; omega)),
            read, ends, Option.getD_some, if_neg large]
          dsimp only
          rw [List.take_take, Nat.min_self, List.drop_of_length_le (by rw [List.length_take]; omega)]
          rfl

/-- The parser is the machine `reader`, working on segments. -/
def simulation (adj : Adjustments) : Incremental.Simulation (consumer adj) (reader adj) where
  related := Follows
  done_stops := by
    intro feeding state follows done
    cases state with
    | heading text =>
        obtain ⟨-, rfl⟩ := follows
        exact absurd done (by simp [consumer])
    | body request state count =>
        obtain ⟨-, -, rcv, _, _, _, -, rfl⟩ := follows
        exact absurd done (by simp [consumer])
    | blank => exact .inl rfl
    | ready request content => exact .inl rfl
    | failed => exact .inr rfl
    | raised => exact .inr rfl
  receive := by
    intro feeding state segment follows running nonempty
    cases state with
    | heading text => exact received_heading follows nonempty
    | body request state count => exact received_body follows nonempty
    | blank =>
        obtain ⟨_, _, _, rfl⟩ := follows
        exact absurd running (by simp [consumer])
    | ready request content =>
        obtain ⟨_, _, _, _, _, -, rfl⟩ := follows
        exact absurd running (by simp [consumer])
    | failed => exact absurd running (by simp [consumer, follows.1])
    | raised => exact absurd running (by simp [consumer, follows.2.2])

/-- What two runs have to agree on; the errors themselves may differ. -/
structure SameOutcome (first second : Feeding × Nat) : Prop where
  completed : first.1.parser.completed = second.1.parser.completed
  empty : first.1.parser.empty = second.1.parser.empty
  failed : (first.1.parser.error.isSome || first.1.raised.isSome) =
    (second.1.parser.error.isSome || second.1.raised.isSome)
  request : first.1.parser.completed = true → first.1.parser.error = none →
    first.1.parser.headers = second.1.parser.headers ∧
      first.1.parser.command = second.1.parser.command ∧
      first.1.parser.requestUri = second.1.parser.requestUri ∧
      first.1.parser.version = second.1.parser.version ∧
      first.1.parser.path = second.1.parser.path ∧
      first.1.parser.query = second.1.parser.query ∧
      first.1.parser.getBodyStream.pending = second.1.parser.getBodyStream.pending ∧
      first.2 = second.2

omit [CPython] in
theorem ready_bodyStream {feeding : Feeding} {request : RequestHead} {content : Bytes}
    (follows : feeding.Follows (.ready request content)) :
    feeding.parser.getBodyStream.pending = content := by
  obtain ⟨bodyRcv, _, _, _, _, body, rfl⟩ := follows
  cases bodyRcv with
  | none => exact body.symm
  | some rcv =>
      simp only [HTTPRequestParser.getBodyStream, Receiver.getfile,
        OverflowableBuffer.getfile_pending body.valid, body.pending]

omit [CPython] in
/-- Two parsers that follow one state of the machine are the same request. -/
theorem sameOutcome_of_follows {first second : Feeding × Nat} {state : Reading}
    (firstFollows : first.1.Follows state) (secondFollows : second.1.Follows state)
    (consumed : state.isBroken = true ∨ first.2 = second.2) :
    SameOutcome first second := by
  obtain ⟨first, firstCount⟩ := first
  obtain ⟨second, secondCount⟩ := second
  cases state with
  | heading text =>
      obtain ⟨-, rfl⟩ := firstFollows
      obtain ⟨-, rfl⟩ := secondFollows
      exact ⟨rfl, rfl, rfl, fun completed => absurd completed (by simp)⟩
  | body request state count =>
      obtain ⟨-, -, _, _, _, _, -, rfl⟩ := firstFollows
      obtain ⟨-, -, _, _, _, _, -, rfl⟩ := secondFollows
      exact ⟨rfl, rfl, rfl, fun completed => absurd completed (by simp)⟩
  | blank =>
      obtain ⟨_, _, _, rfl⟩ := firstFollows
      obtain ⟨_, _, _, rfl⟩ := secondFollows
      have counts := consumed.resolve_left (by simp [Reading.isBroken])
      exact ⟨rfl, rfl, rfl, fun _ _ => ⟨rfl, rfl, rfl, rfl, rfl, rfl, rfl, counts⟩⟩
  | ready request content =>
      have bodies := (ready_bodyStream firstFollows).trans (ready_bodyStream secondFollows).symm
      obtain ⟨_, _, _, _, _, -, rfl⟩ := firstFollows
      obtain ⟨_, _, _, _, _, -, rfl⟩ := secondFollows
      have counts := consumed.resolve_left (by simp [Reading.isBroken])
      exact ⟨rfl, rfl, rfl, fun _ _ => ⟨rfl, rfl, rfl, rfl, rfl, rfl, bodies, counts⟩⟩
  | failed =>
      obtain ⟨completed, empty, error, -⟩ := firstFollows
      obtain ⟨completed', empty', error', -⟩ := secondFollows
      refine ⟨completed.trans completed'.symm, empty.trans empty'.symm, ?_, fun _ none => ?_⟩
      · rw [error, error', Bool.true_or, Bool.true_or]
      · rw [none] at error
        cases error
  | raised =>
      obtain ⟨completed, empty, raised⟩ := firstFollows
      obtain ⟨completed', empty', raised'⟩ := secondFollows
      refine ⟨completed.trans completed'.symm, empty.trans empty'.symm, ?_, fun done => ?_⟩
      · rw [raised, raised', Bool.or_true, Bool.or_true]
      · exact absurd (completed.symm.trans done) (by simp)

/-- A fresh parser is where the machine is after the bytes it was fed. -/
theorem feed_follows (adj : Adjustments) (segments : List Bytes) :
    ((consumer adj).feed {} segments).1.Follows ((reader adj).run (.heading []) segments.flatten).1 ∧
      ((reader adj).broken ((reader adj).run (.heading []) segments.flatten).1 = true ∨
        ((consumer adj).feed {} segments).2 +
          ((reader adj).run (.heading []) segments.flatten).2.length = segments.flatten.length) := by
  have fresh : (simulation adj).related {} (.heading []) := ⟨by decide, rfl⟩
  have agrees := (simulation adj).feed_agrees segments fresh
  exact ⟨agrees.related, agrees.consumed⟩

/-- However a stream is cut, the parser makes the same of it. -/
theorem feed_segmentation (adj : Adjustments) {first second : List Bytes}
    (same : first.flatten = second.flatten) :
    SameOutcome ((consumer adj).feed {} first) ((consumer adj).feed {} second) := by
  obtain ⟨firstFollows, firstConsumed⟩ := feed_follows adj first
  obtain ⟨secondFollows, secondConsumed⟩ := feed_follows adj second
  rw [← same] at secondFollows secondConsumed
  refine sameOutcome_of_follows firstFollows secondFollows ?_
  rcases firstConsumed with broken | firstCount
  · exact .inl broken
  · exact secondConsumed.imp id fun secondCount => by omega

omit [CPython] in
/-- One `POST`, cut inside of the double newline and of the body. -/
theorem feed_segmentation_post :
    let _ : CPython := .unchecked
    SameOutcome
      ((consumer {}).feed {} [ascii "POST / HTTP/1.1\r\nContent-Length: 3\r\n\r\nabc"])
      ((consumer {}).feed {}
        [ascii "POST / HTTP/1.1\r\nContent-Length: 3\r\n\r", ascii "\na", ascii "bc"]) := by
  intro cpython
  exact feed_segmentation {} (by decide)

end Feeding

end Waitress
