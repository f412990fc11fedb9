import Waitress.Channel.Exclusion
import Waitress.Channel.Lossless

/-!
# What one flusher at a time is good for

As long as the flushes do not overlap, the socket accepts the bytes that were written,
in order, none of them twice and none left out.
-/

namespace Waitress.Interleaving

open Raising Output

namespace State

/-- The first outbuf is the one that the thread has taken. -/
def Takes (number : Nat) (outbuflen : Int) (outbuf : Outbuf) (state : State) : Prop :=
  number = state.dropped ∧ outbuf.len = outbuflen ∧
    ∃ rest, state.output.outbufs = outbuf :: rest

/-- Nothing is lost, and the position is that of the only thread that flushes. -/
def Tracks (context : ChannelContext) (state : State) : FlushPosition → Prop
  | .looping number outbuflen =>
      Lossless state.output ∧ ∃ outbuf, state.Takes number outbuflen outbuf
  | .got number outbuflen chunk =>
      Lossless state.output ∧ ∃ outbuf, state.Takes number outbuflen outbuf ∧
        chunk = outbuf.get context.sendbufLen
  -- The skip is still to come.
  | .sent number outbuflen numSent =>
      ∃ outbuf, state.Takes number outbuflen outbuf ∧
        (outbuf.skip numSent true).1 = .ok () ∧
        (outbuf.skip numSent true).2.len = outbuflen - numSent ∧
        Lossless
          { state.output with
            outbufs := state.output.outbufs.set 0 (outbuf.skip numSent true).2
            totalOutbufsLen := state.output.totalOutbufsLen - numSent }
  | _ => Lossless state.output

def TracksAll (context : ChannelContext) (state : State) : Option FlushPosition → Prop
  | none => Lossless state.output
  | some position => state.Tracks context position

theorem Takes.outbuf? {number : Nat} {outbuflen : Int} {outbuf : Outbuf} {state : State}
    (takes : state.Takes number outbuflen outbuf) : state.outbuf? number = some outbuf := by
  obtain ⟨rfl, -, rest, outbufs⟩ := takes
  rw [State.outbuf?, if_neg (Nat.lt_irrefl _), Nat.sub_self, outbufs]
  rfl

theorem Takes.mem {number : Nat} {outbuflen : Int} {outbuf : Outbuf} {state : State}
    (takes : state.Takes number outbuflen outbuf) : outbuf ∈ state.output.outbufs := by
  obtain ⟨-, -, rest, outbufs⟩ := takes
  rw [outbufs]
  exact List.mem_cons_self ..

/-- The accepted bytes are the first of the written ones. -/
theorem TracksAll.delivered {context : ChannelContext} {state : State}
    {position : Option FlushPosition} (tracks : state.TracksAll context position) :
    state.output.accepted <+: state.output.written := by
  have kept : ∀ {out : Output}, Lossless out → out.accepted <+: out.written :=
    fun lossless => ⟨_, lossless.queue⟩
  rcases position with _ | position
  · exact kept tracks
  cases position with
  | looping number outbuflen => exact kept tracks.1
  | got number outbuflen chunk => exact kept tracks.1
  | sent number outbuflen numSent =>
      obtain ⟨outbuf, -, -, -, lossless⟩ := tracks
      exact ⟨_, lossless.queue⟩
  | _ => exact kept tracks

variable {context : ChannelContext}

theorem flushStep_tracks {doClose : Bool} {answer : SendResult} {position : FlushPosition}
    {state : State} (tracks : state.Tracks context position)
    (connected : (flushStep context doClose answer position state).2.output.connected = true) :
    (flushStep context doClose answer position state).2.TracksAll context
      (match (flushStep context doClose answer position state).1 with
      | .at next => some next
      | _ => none) := by
  cases position with
  | top =>
      cases outbufs : state.output.outbufs with
      | nil =>
          rw [flushStep, outbufs]
          exact tracks
      | cons outbuf rest =>
          rw [flushStep, outbufs]
          exact ⟨tracks, outbuf, rfl, rfl, rest, outbufs⟩
  | looping number outbuflen =>
      obtain ⟨lossless, outbuf, takes⟩ := tracks
      rw [flushStep, takes.outbuf?]
      split
      · exact ⟨lossless, outbuf, takes, rfl⟩
      · next finished =>
          split
          · next more =>
              obtain ⟨-, len, rest, outbufs⟩ := takes
              have valid := lossless.valid outbuf (outbufs ▸ List.mem_cons_self ..)
              have empty : outbuf.pending = [] := by
                have length := Outbuf.len_eq valid
                exact List.length_eq_zero_iff.mp (by omega)
              refine lossless.tail outbufs empty ?_
              rintro rfl
              rw [outbufs] at more
              exact absurd more (by simp)
          · exact lossless
  | got number outbuflen chunk =>
      obtain ⟨lossless, outbuf, takes, rfl⟩ := tracks
      cases answer with
      | sent n =>
          rw [flushStep]
          split
          · exact lossless
          · obtain ⟨isFirst, isLen, rest, outbufs⟩ := takes
            have enough : min n (outbuf.get context.sendbufLen).length ≤
                (outbuf.get context.sendbufLen).length := min_le_right _ _
            obtain ⟨progress, len⟩ := lossless.progress outbufs enough
            have valid := lossless.valid outbuf (outbufs ▸ List.mem_cons_self ..)
            have prefix_ := (Outbuf.get_prefix valid context.sendbufLen).length_le
            refine ⟨outbuf, ⟨isFirst, isLen, rest, outbufs⟩,
              (Outbuf.skip_spec valid (enough.trans prefix_)).1, len.trans ?_, ?_⟩
            · rw [isLen]
            · dsimp only
              rw [outbufs]
              exact progress
      | disconnected =>
          rw [flushStep]
          cases doClose with
          | false => exact lossless
          | true => exact lossless
      | wouldBlock => exact lossless
      | raises exc => exact lossless
  | sent number outbuflen numSent =>
      obtain ⟨outbuf, takes, skips, len, lossless⟩ := tracks
      have found := takes.outbuf?
      obtain ⟨rfl, isLen, rest, outbufs⟩ := takes
      rw [flushStep, found]
      dsimp only
      rw [Nat.sub_self]
      generalize skipped : outbuf.skip numSent true = result at skips len lossless ⊢
      obtain ⟨result, left⟩ := result
      dsimp only at skips len lossless ⊢
      subst skips
      exact ⟨lossless, left, rfl, len, rest, by dsimp only; rw [outbufs]; rfl⟩
  | closing => exact Bool.noConfusion connected
  | closed => exact tracks

structure SameData (before after : State) : Prop where
  dropped : after.dropped = before.dropped
  outbufs : after.output.outbufs = before.output.outbufs
  total : after.output.totalOutbufsLen = before.output.totalOutbufsLen
  accepted : after.output.accepted = before.output.accepted
  written : after.output.written = before.output.written

theorem SameData.lossless {before after : State} (same : SameData before after)
    (lossless : Lossless before.output) : Lossless after.output where
  queue := by
    rw [same.accepted, same.outbufs, same.written]
    exact lossless.queue
  total := by
    rw [same.total, same.outbufs]
    exact lossless.total
  last := by
    rw [same.outbufs]
    exact lossless.last
  valid := by
    rw [same.outbufs]
    exact lossless.valid

theorem SameData.takes {before after : State} (same : SameData before after) {number : Nat}
    {outbuflen : Int} {outbuf : Outbuf} (takes : before.Takes number outbuflen outbuf) :
    after.Takes number outbuflen outbuf := by
  obtain ⟨isFirst, isLen, rest, outbufs⟩ := takes
  exact ⟨isFirst.trans same.dropped.symm, isLen, rest, same.outbufs.trans outbufs⟩

theorem SameData.tracksAll {before after : State} (same : SameData before after)
    {position : Option FlushPosition} (tracks : before.TracksAll context position) :
    after.TracksAll context position := by
  rcases position with _ | position
  · exact same.lossless tracks
  cases position with
  | looping number outbuflen =>
      obtain ⟨lossless, outbuf, takes⟩ := tracks
      exact ⟨same.lossless lossless, outbuf, same.takes takes⟩
  | got number outbuflen chunk =>
      obtain ⟨lossless, outbuf, takes, isChunk⟩ := tracks
      exact ⟨same.lossless lossless, outbuf, same.takes takes, isChunk⟩
  | sent number outbuflen numSent =>
      obtain ⟨outbuf, takes, skips, len, lossless⟩ := tracks
      refine ⟨outbuf, same.takes takes, skips, len, ?_⟩
      rw [same.outbufs, same.total]
      refine ⟨?_, lossless.total, lossless.last, lossless.valid⟩
      dsimp only
      rw [same.accepted, same.written]
      exact lossless.queue
  | _ => exact same.lossless tracks

/-- As long as the client is there, nothing is lost. -/
def Delivers (context : ChannelContext) (state : State) : Prop :=
  state.output.connected = true →
    state.TracksAll context (state.main.flush?.or state.worker.flush?)

theorem Delivers.quiet {before after : State} (delivers : before.Delivers context)
    (connected : after.output.connected = true → before.output.connected = true)
    (same : SameData before after)
    (flush : after.main.flush?.or after.worker.flush? =
      before.main.flush?.or before.worker.flush?) : after.Delivers context := by
  intro open_
  rw [flush]
  exact same.tracksAll (delivers (connected open_))

theorem appendContinue_conserves : Within Conserves appendContinue := by
  refine within_get_bind fun out => ?_
  rw [exec_bind, exec_ofExcept]
  cases appended : appendLast continueLine out.outbufs with
  | error exc => exact fun connected => ⟨connected, id⟩
  | ok filled =>
      refine fun connected => ⟨connected, fun lossless => ?_⟩
      obtain ⟨_, same, kept⟩ := lossless.append continueLine
      obtain rfl := Except.ok.inj (appended.symm.trans same)
      exact kept true

/-! ### Where no flush is going on -/

theorem worker_flush_eq_none {position : WorkerPosition} (free : position.holdsOutbufs = false) :
    position.flush? = none := by
  by_contra flushes
  have holds := WorkerPosition.holdsOutbufs_of_flush (Option.isSome_iff_ne_none.mpr flushes)
  exact Bool.false_ne_true (free.symm.trans holds)

/-- While the main thread flushes, the worker does not. -/
theorem Exclusive.worker_calm {state : State} (exclusive : state.Exclusive)
    (flushes : state.main.flush?.isSome = true) : state.worker.flush? = none := by
  by_contra both
  have some := Option.isSome_iff_ne_none.mpr both
  rcases MainPosition.locked_of_flush flushes with locked | unlocked
  · have holds := WorkerPosition.holdsOutbufs_of_flush some
    exact Bool.false_ne_true ((exclusive.outbufLock locked).symm.trans holds)
  · obtain ⟨none, calm⟩ := exclusive.alone unlocked
    rcases WorkerPosition.busy_or_continuing_of_flush some with busy | continuing
    · exact absurd none (Nat.ne_of_gt (exclusive.queued busy))
    · exact Bool.false_ne_true (calm.symm.trans continuing)

/-- While the worker works in a section, the main thread does not flush. -/
theorem Exclusive.main_calm {state : State} (exclusive : state.Exclusive)
    (free : state.main.holdsOutbufs = false)
    (works : state.worker.isBusy = true ∨ state.worker.isContinuing = true) :
    state.main.flush? = none := by
  by_contra both
  rcases MainPosition.locked_of_flush (Option.isSome_iff_ne_none.mpr both) with locked | unlocked
  · exact Bool.false_ne_true (free.symm.trans locked)
  · obtain ⟨none, calm⟩ := exclusive.alone unlocked
    rcases works with busy | continuing
    · exact absurd none (Nat.ne_of_gt (exclusive.queued busy))
    · exact Bool.false_ne_true (calm.symm.trans continuing)

theorem Exclusive.main_free {state : State} (exclusive : state.Exclusive)
    (holds : state.worker.holdsOutbufs = true) : state.main.holdsOutbufs = false := by
  by_contra both
  have free := exclusive.outbufLock (Bool.eq_true_of_not_eq_false both)
  exact Bool.false_ne_true (free.symm.trans holds)

theorem catchRaised_sameData (outcome : FlushOutcome) (catches : Bool) (state : State) :
    SameData state (catchRaised outcome catches state) := by
  rw [catchRaised]
  split
  · exact ⟨rfl, rfl, rfl, rfl, rfl⟩
  · exact ⟨rfl, rfl, rfl, rfl, rfl⟩

theorem catchRaised_worker (outcome : FlushOutcome) (catches : Bool) (state : State) :
    (catchRaised outcome catches state).worker = state.worker := by
  rw [catchRaised]
  split <;> rfl

theorem catchRaised_main (outcome : FlushOutcome) (catches : Bool) (state : State) :
    (catchRaised outcome catches state).main = state.main := by
  rw [catchRaised]
  split <;> rfl

theorem catchRaised_connected (outcome : FlushOutcome) (catches : Bool) (state : State) :
    (catchRaised outcome catches state).output.connected = state.output.connected := by
  rw [catchRaised]
  split <;> rfl

theorem Delivers.flushMain {state : State} (delivers : state.Delivers context)
    (exclusive : state.Exclusive) (flushes : state.main.flush?.isSome = true)
    (answer : SendResult) : (flushMain context answer state).Delivers context := by
  have calm := exclusive.worker_calm flushes
  have afterFlush := MainPosition.flush_afterFlush flushes
  obtain ⟨position, flush⟩ := Option.isSome_iff_exists.mp flushes
  obtain ⟨-, -, -, worker, connects⟩ := flushStep_frame context true answer position state
  have stepped := @flushStep_tracks context true answer position state
  rw [State.flushMain, flush]
  dsimp only
  generalize flushStep context true answer position state = result at *
  obtain ⟨outcome, after⟩ := result
  dsimp only at *
  intro connected
  have same := catchRaised_sameData outcome state.main.catches after
  have open_ : after.output.connected = true :=
    (catchRaised_connected outcome state.main.catches after).symm.trans connected
  have start := delivers (connects open_)
  rw [flush] at start
  have none : (catchRaised outcome state.main.catches after).worker.flush? = none := by
    rw [catchRaised_worker, worker.flush, calm]
  rw [afterFlush, none, Option.or_none]
  exact SameData.tracksAll { same with } (stepped start open_)

theorem Delivers.flushWorker {state : State} (delivers : state.Delivers context)
    (exclusive : state.Exclusive) (flushes : state.worker.flush?.isSome = true)
    (answer : SendResult) : (flushWorker context answer state).Delivers context := by
  have calm : state.main.flush? = none := by
    have holds := WorkerPosition.holdsOutbufs_of_flush flushes
    exact exclusive.main_calm (exclusive.main_free holds)
      (WorkerPosition.busy_or_continuing_of_flush flushes)
  have afterFlush := WorkerPosition.flush_afterFlush flushes
  obtain ⟨position, flush⟩ := Option.isSome_iff_exists.mp flushes
  obtain ⟨-, -, main, -, connects⟩ :=
    flushStep_frame context state.worker.doClose answer position state
  have stepped := @flushStep_tracks context state.worker.doClose answer position state
  rw [State.flushWorker, flush]
  dsimp only
  generalize flushStep context state.worker.doClose answer position state = result at *
  obtain ⟨outcome, after⟩ := result
  dsimp only at *
  intro connected
  have same := catchRaised_sameData outcome state.worker.catches after
  have open_ : after.output.connected = true :=
    (catchRaised_connected outcome state.worker.catches after).symm.trans connected
  have start := delivers (connects open_)
  rw [calm, flush] at start
  have none : (catchRaised outcome state.worker.catches after).main.flush? = none := by
    rw [catchRaised_main, main, calm]
  rw [afterFlush, none, Option.none_or]
  exact SameData.tracksAll { same with } (stepped start open_)

def Backed (action : Action) : Prop :=
  match action with
  | .append data => Output.Backed data
  | _ => True

theorem Delivers.mainMoves {before after : State} (delivers : before.Delivers context)
    {start main : MainPosition} (here : before.main = start) (there : after.main = main)
    (worker : after.worker.flush? = before.worker.flush?)
    (flush : main.flush? = start.flush?) (same : SameData before after)
    (connected : after.output.connected = true → before.output.connected = true) :
    after.Delivers context := by
  apply delivers.quiet connected same
  rw [here, there, worker, flush]

theorem Delivers.workerMoves {before after : State} (delivers : before.Delivers context)
    {start worker : WorkerPosition} (here : before.worker = start) (there : after.worker = worker)
    (main : after.main = before.main) (flush : worker.flush? = start.flush?)
    (same : SameData before after)
    (connected : after.output.connected = true → before.output.connected = true) :
    after.Delivers context := by
  apply delivers.quiet connected same
  rw [here, there, main, flush]

theorem Delivers.mainStarts {before after : State} (delivers : before.Delivers context)
    {start : MainPosition} (here : before.main = start) (idle : start.flush? = none)
    (calm : before.worker.flush? = none) (worker : after.worker = before.worker)
    (flush : after.main.flush? = none ∨ after.main.flush? = some .top)
    (conserves : Conserves before.output after.output) : after.Delivers context := by
  intro open_
  obtain ⟨connected, kept⟩ := conserves open_
  have start := delivers connected
  rw [here, idle, calm] at start
  rw [worker, calm, Option.or_none]
  rcases flush with none | top
  · rw [none]
    exact kept start
  · rw [top]
    exact kept start

theorem Delivers.workerStarts {before after : State} (delivers : before.Delivers context)
    {start : WorkerPosition} (here : before.worker = start) (idle : start.flush? = none)
    (calm : before.main.flush? = none) (main : after.main = before.main)
    (flush : after.worker.flush? = none ∨ after.worker.flush? = some .top)
    (conserves : Conserves before.output after.output) : after.Delivers context := by
  intro open_
  obtain ⟨connected, kept⟩ := conserves open_
  have start := delivers connected
  rw [here, idle, calm] at start
  rw [main, calm, Option.none_or]
  rcases flush with none | top
  · rw [none]
    exact kept start
  · rw [top]
    exact kept start

variable (context)

theorem next_delivers {action : Action} {state after : State} (exclusive : state.Exclusive)
    (delivers : state.Delivers context) (alone : FlushesAlone action state)
    (backed : Backed action) (taken : next context action state = some after) :
    after.Delivers context := by
  obtain ⟨enabled, rfl⟩ := (next_eq_some context).mp taken
  have keeps : ∀ {out : Output}, Conserves out out := fun open_ => ⟨open_, id⟩
  cases action with
  | parse | blank | maintain => exact delivers.quiet id ⟨rfl, rfl, rfl, rfl, rfl⟩ rfl
  | complete => exact delivers.quiet id ⟨rfl, rfl, rfl, rfl, rfl⟩ rfl
  | startReading | endReading | unlockLockable | handOver | unlockClosing =>
      exact delivers.mainMoves enabled rfl rfl rfl ⟨rfl, rfl, rfl, rfl, rfl⟩ id
  | announce | lockAnnounce =>
      exact delivers.mainMoves enabled.1 rfl rfl rfl ⟨rfl, rfl, rfl, rfl, rfl⟩ id
  | lockReading =>
      refine delivers.mainMoves enabled.1 rfl rfl ?_ ⟨rfl, rfl, rfl, rfl, rfl⟩ id
      change (if _ then _ else _ : MainPosition).flush? = _
      split <;> rfl
  | appendAnnounce =>
      have conserves := appendContinue_conserves state.output
      have calm : state.worker.flush? = none :=
        worker_flush_eq_none (exclusive.outbufLock (by rw [show state.main = _ from enabled]; rfl))
      change (appendAnnounce state).Delivers context
      rw [appendAnnounce]
      generalize exec appendContinue state.output = outcome at conserves ⊢
      obtain ⟨exc | ⟨⟩, output⟩ := outcome
      · exact delivers.mainStarts enabled rfl calm rfl (.inl rfl) conserves
      · exact delivers.mainStarts enabled rfl calm rfl (.inr rfl) conserves
  | unlockAnnounce raised | unlockReading raised =>
      refine delivers.mainMoves enabled rfl rfl ?_ ⟨rfl, rfl, rfl, rfl, rfl⟩ id
      change (if _ then _ else _ : MainPosition).flush? = _
      split <;> rfl
  | testRequests =>
      change (testRequests state).Delivers context
      rw [testRequests]
      split
      · next none =>
          have calm : state.worker.flush? = Option.none := by
            by_contra flushes
            rcases WorkerPosition.busy_or_continuing_of_flush
                (Option.isSome_iff_ne_none.mpr flushes) with busy | continuing
            · exact absurd none (Nat.ne_of_gt (exclusive.queued busy))
            · exact Bool.false_ne_true ((alone none).symm.trans continuing)
          exact delivers.mainStarts enabled rfl calm rfl (.inr rfl) keeps
      · exact delivers.mainMoves enabled rfl rfl rfl ⟨rfl, rfl, rfl, rfl, rfl⟩ id
  | testTotal | closeIfWillClose =>
      refine delivers.mainMoves enabled rfl rfl ?_ ⟨rfl, rfl, rfl, rfl, rfl⟩ id
      change (if _ then _ else _ : MainPosition).flush? = _
      split <;> rfl
  | tryLock =>
      change (tryLock state).Delivers context
      rw [tryLock]
      split
      · exact delivers.mainMoves enabled rfl rfl rfl ⟨rfl, rfl, rfl, rfl, rfl⟩ id
      · next free =>
          have calm := worker_flush_eq_none (Bool.eq_false_iff.mpr free)
          exact delivers.mainStarts enabled rfl calm rfl (.inr rfl) keeps
  | flushMain answer => exact delivers.flushMain exclusive enabled.1 answer
  | notifyIfBelow =>
      refine delivers.mainMoves enabled rfl ?_ rfl ⟨rfl, rfl, rfl, rfl, rfl⟩ id
      change (if _ then _ else _ : WorkerPosition).flush? = _
      split
      · exact (WorkerPosition.notify_alike state.worker).flush
      · rfl
  | testFlushed =>
      change (testFlushed state).Delivers context
      rw [testFlushed]
      split
      · exact delivers.mainMoves enabled rfl rfl rfl ⟨rfl, rfl, rfl, rfl, rfl⟩ id
      · exact delivers.mainMoves enabled rfl rfl rfl ⟨rfl, rfl, rfl, rfl, rfl⟩ id
  | startClosing =>
      rcases enabled with idle | failing
      · exact delivers.mainMoves idle rfl rfl rfl ⟨rfl, rfl, rfl, rfl, rfl⟩ id
      · exact delivers.mainMoves failing rfl rfl rfl ⟨rfl, rfl, rfl, rfl, rfl⟩ id
  | lockClosing => exact Bool.noConfusion
  | cancel => exact Bool.noConfusion
  | serve => exact delivers.workerMoves enabled.2 rfl rfl rfl ⟨rfl, rfl, rfl, rfl, rfl⟩ id
  | write | lockWriting | lockSettling | lockPopping | lockContinue =>
      exact delivers.workerMoves enabled.1 rfl rfl rfl ⟨rfl, rfl, rfl, rfl, rfl⟩ id
  | look waiter =>
      refine delivers.workerMoves enabled rfl rfl ?_ ⟨rfl, rfl, rfl, rfl, rfl⟩ id
      change (if _ then _ else _ : WorkerPosition).flush? = _
      cases waiter <;> split <;> rfl
  | lockBelow waiter =>
      have calm := exclusive.main_calm enabled.2 (.inl (by rw [enabled.1]; rfl))
      exact delivers.workerStarts enabled.1 rfl calm rfl (.inr rfl) keeps
  | flushWorker answer => exact delivers.flushWorker exclusive enabled answer
  | waitOrUnlock waiter raised =>
      refine delivers.workerMoves enabled rfl rfl ?_ ⟨rfl, rfl, rfl, rfl, rfl⟩ id
      change (if _ then _ else _ : WorkerPosition).flush? = _
      split <;> rfl
  | wake waiter raised =>
      refine delivers.workerMoves enabled.1 rfl rfl ?_ ⟨rfl, rfl, rfl, rfl, rfl⟩ id
      change (if _ then _ else _ : WorkerPosition).flush? = _
      split <;> rfl
  | unlockBelow waiter =>
      refine delivers.workerMoves enabled rfl rfl ?_ ⟨rfl, rfl, rfl, rfl, rfl⟩ id
      cases waiter <;> rfl
  | append data =>
      have holds : state.worker.holdsOutbufs = true := by
        rw [show state.worker = .appending data from enabled]
        rfl
      have calm : state.main.flush? = none :=
        exclusive.main_calm (exclusive.main_free holds)
          (.inl (by rw [show state.worker = .appending data from enabled]; rfl))
      have conserves := appendPayload_conserves context backed state.output
      change (append context data state).Delivers context
      rw [append]
      split
      · exact delivers.workerMoves enabled rfl rfl rfl ⟨rfl, rfl, rfl, rfl, rfl⟩ id
      generalize exec (appendPayload context data) state.output = outcome at conserves ⊢
      obtain ⟨exc | ⟨⟩, output⟩ := outcome
      · exact delivers.workerStarts enabled rfl calm rfl (.inl rfl) conserves
      · refine delivers.workerStarts enabled rfl calm rfl ?_ conserves
        dsimp only
        split
        · exact .inr rfl
        · exact .inl rfl
  | unlockWriting | unlockSettling | unlockContinue | leave =>
      exact delivers.workerMoves enabled rfl rfl rfl ⟨rfl, rfl, rfl, rfl, rfl⟩ id
  | endTask closeOnFinish =>
      cases closeOnFinish with
      | false => exact delivers.workerMoves enabled rfl rfl rfl ⟨rfl, rfl, rfl, rfl, rfl⟩ id
      | true => exact delivers.workerMoves enabled rfl rfl rfl ⟨rfl, rfl, rfl, rfl, rfl⟩ id
  | testBacklog =>
      refine delivers.workerMoves enabled rfl rfl ?_ ⟨rfl, rfl, rfl, rfl, rfl⟩ id
      change (if _ then _ else _ : WorkerPosition).flush? = _
      split <;> rfl
  | pop =>
      change (pop state).Delivers context
      rw [pop]
      split
      · exact delivers.workerMoves enabled rfl rfl rfl ⟨rfl, rfl, rfl, rfl, rfl⟩ id
      split
      · exact delivers.workerMoves enabled rfl rfl rfl ⟨rfl, rfl, rfl, rfl, rfl⟩ id
      · exact delivers.workerMoves enabled rfl rfl rfl ⟨rfl, rfl, rfl, rfl, rfl⟩ id
  | testContinue =>
      refine delivers.workerMoves enabled rfl rfl ?_ ⟨rfl, rfl, rfl, rfl, rfl⟩ id
      change (if _ then _ else _ : WorkerPosition).flush? = _
      split <;> rfl
  | appendContinue =>
      have holds : state.worker.holdsOutbufs = true := by
        rw [show state.worker = .continueLocked from enabled]
        rfl
      have calm : state.main.flush? = none :=
        exclusive.main_calm (exclusive.main_free holds)
          (.inr (by rw [show state.worker = .continueLocked from enabled]; rfl))
      have conserves := appendContinue_conserves state.output
      change (appendContinuing state).Delivers context
      rw [appendContinuing]
      generalize exec State.appendContinue state.output = outcome at conserves ⊢
      obtain ⟨exc | ⟨⟩, output⟩ := outcome
      · exact delivers.workerStarts enabled rfl calm rfl (.inl rfl) conserves
      · exact delivers.workerStarts enabled rfl calm rfl (.inr rfl) conserves

theorem new_delivers : (new context).Delivers context :=
  fun _ => new_lossless context []

/-- As long as no such sections overlap, one thread at a time is in a round of a flush,
and the socket has accepted the first of the bytes that were written. -/
theorem run_oneFlusher (actions : List Action) {state : State}
    (alone : Transition.Along (next context) FlushesAlone actions (new context))
    (ran : Transition.run (next context) actions (new context) = some state) :
    ¬ state.Overlap ∧
      ((∀ action ∈ actions, Backed action) → state.output.connected = true →
        state.output.accepted <+: state.output.written) := by
  refine ⟨(run_exclusive context alone ran).not_overlap, fun backed connected => ?_⟩
  have start := And.intro (new_exclusive context) (new_delivers context)
  have kept := Transition.run_invariant_along
    (fun _ _ _ kept met taken =>
      And.intro (next_exclusive context kept.1 met.1 taken)
        (next_delivers context kept.1 kept.2 met.1 met.2 taken))
    start (alone.and _ backed) ran
  exact (kept.2 connected).delivered

/-- The response to the only request waits in the outbuf, and the head of the next request
waits for its line. -/
def servedRun : List Action :=
  [.startReading, .lockReading, .complete, .parse true, .endReading false, .unlockReading false,
    .serve, .write (.bytes [0]), .lockWriting (.bytes [0]), .look (.writeSoon (.bytes [0])),
    .append (.bytes [0]), .flushWorker .wouldBlock, .flushWorker .wouldBlock,
    .flushWorker .wouldBlock, .unlockWriting, .endTask false, .testBacklog, .lockPopping, .pop,
    .testContinue]

/-- The worker appends the line and finds the socket blocked; the main thread sends all of it
afterwards. -/
def servedInTurn : List Action :=
  servedRun ++ [.lockContinue, .appendContinue, .flushWorker .wouldBlock, .flushWorker .wouldBlock,
    .flushWorker .wouldBlock, .unlockContinue, .leave, .testRequests, .flushMain .wouldBlock,
    .flushMain .wouldBlock, .flushMain (.sent 100), .flushMain .wouldBlock, .flushMain .wouldBlock]

theorem run_oneFlusher_sample :
    ∃ state, Transition.run (next {}) servedInTurn (new {}) = some state ∧
      state.output.accepted.length = 26 ∧ ¬ state.Overlap ∧
        state.output.accepted <+: state.output.written := by
  have ran : ∃ state, Transition.run (next {}) servedInTurn (new {}) = some state ∧
      state.output.accepted.length = 26 ∧ state.output.connected = true := by
    refine ⟨_, rfl, ?_⟩
    decide +kernel
  obtain ⟨state, ran, sent, connected⟩ := ran
  obtain ⟨apart, delivered⟩ := run_oneFlusher {} servedInTurn (by decide +kernel) ran
  refine ⟨state, ran, sent, apart, delivered (fun action mem => ?_) connected⟩
  cases action with
  | append data =>
      cases data with
      | bytes => trivial
      | file => simp [servedInTurn, servedRun] at mem
  | _ => trivial

/-- Both threads get the byte of the response. -/
theorem not_oneFlusher :
    ¬ ∀ (context : ChannelContext) (actions : List Action) (state : State),
      Transition.run (next context) actions (new context) = some state → ¬ state.Overlap := by
  intro never
  have ran : ∃ state, Transition.run (next {})
      (servedRun ++ [.testRequests, .flushMain .wouldBlock, .flushMain .wouldBlock,
        .lockContinue, .appendContinue, .flushWorker .wouldBlock, .flushWorker .wouldBlock])
      (new {}) = some state ∧ state.main.flush?.any FlushPosition.isBetween = true ∧
      state.worker.flush?.any FlushPosition.isBetween = true := by
    refine ⟨_, rfl, ?_⟩
    decide +kernel
  obtain ⟨state, ran, overlap⟩ := ran
  exact never {} _ state ran overlap

end State

end Waitress.Interleaving
