import Mathlib.Algebra.BigOperators.Group.Finset.Basic
import Mathlib.Algebra.BigOperators.Ring.Finset
import Waitress.Library.Transition

/-!
# The thread pool

The steps of `ThreadedTaskDispatcher` are the sections under its lock.  A
handler thread leaves the lock to serve a task or to wait on `queue_cv`; what a
task does is of no concern here.
-/

namespace Waitress

/-- Where the handler thread of a number is. -/
inductive HandlerPosition where
  /-- Outside of the lock: just started, or serving a task. -/
  | outside
  /-- In `queue_cv.wait()`. -/
  | parked
  /-- In `queue_cv.wait()`, notified, but without the lock so far. -/
  | notified
  /-- Ended by an exception. -/
  | crashed
  deriving DecidableEq, Repr

namespace HandlerPosition

def isWaiting : HandlerPosition → Bool
  | .parked => true
  | .notified => true
  | _ => false

def active (position : HandlerPosition) : Int := if position.isWaiting = true then 0 else 1

end HandlerPosition

/-- The dispatcher with the positions of its threads.  The last three fields
record what was asked of it. -/
structure ThreadedTaskDispatcher (Task : Type) where
  threads : Finset Nat := ∅
  queue : List Task := []
  stopCount : Int := 0
  activeCount : Int := 0
  position : Nat → HandlerPosition := fun _ => .outside
  requested : Nat := 0
  added : List Task := []
  taken : List Task := []

namespace ThreadedTaskDispatcher

variable {Task : Type}

def move (threadNo : Nat) (position : HandlerPosition) (pool : ThreadedTaskDispatcher Task) :
    ThreadedTaskDispatcher Task :=
  { pool with position := Function.update pool.position threadNo position }

def notifyAll (pool : ThreadedTaskDispatcher Task) : ThreadedTaskDispatcher Task :=
  { pool with
    position := fun threadNo =>
      if pool.position threadNo = .parked then .notified else pool.position threadNo }

def freeNumber (threads : Finset Nat) : Nat → Nat → Nat
  | 0, threadNo => threadNo
  | fuel + 1, threadNo =>
      if threadNo ∈ threads then freeNumber threads fuel (threadNo + 1) else threadNo

/-- The part of a round of `set_thread_count` behind the search for a number. -/
def startThread (threadNo : Nat) (pool : ThreadedTaskDispatcher Task) :
    ThreadedTaskDispatcher Task :=
  move threadNo .outside
    { pool with
      threads := insert threadNo pool.threads
      activeCount := pool.activeCount + 1 }

/-- The loop of `set_thread_count` that starts threads. -/
def startThreads : Nat → Nat → ThreadedTaskDispatcher Task → ThreadedTaskDispatcher Task
  | 0, _, pool => pool
  | missing + 1, threadNo, pool =>
      let threadNo := freeNumber pool.threads pool.threads.card threadNo
      startThreads missing (threadNo + 1) (startThread threadNo pool)

def setThreadCount (count : Nat) (pool : ThreadedTaskDispatcher Task) :
    ThreadedTaskDispatcher Task :=
  let running := (pool.threads.card : Int) - pool.stopCount
  let pool := startThreads (count - running).toNat 0 { pool with requested := count }
  if running > count then
    notifyAll { pool with stopCount := pool.stopCount + (running - count) }
  else pool

/-- `add_task`, where `woken` is the thread that is notified, if one is parked. -/
def addTask (task : Task) (woken : Option Nat) (pool : ThreadedTaskDispatcher Task) :
    Option (ThreadedTaskDispatcher Task) :=
  let pool := { pool with queue := pool.queue ++ [task], added := pool.added ++ [task] }
  match woken with
  | some threadNo =>
      if threadNo ∈ pool.threads ∧ pool.position threadNo = .parked then
        some (move threadNo .notified pool)
      else none
  | none => if ∀ threadNo ∈ pool.threads, pool.position threadNo ≠ .parked then some pool else none

/-- The section of `handler_thread` from the test of the inner loop on. -/
def handlerLoop (threadNo : Nat) (pool : ThreadedTaskDispatcher Task) :
    ThreadedTaskDispatcher Task :=
  if pool.queue = [] ∧ pool.stopCount = 0 then
    move threadNo .parked { pool with activeCount := pool.activeCount - 1 }
  else if pool.stopCount > 0 then
    { pool with
      activeCount := pool.activeCount - 1
      stopCount := pool.stopCount - 1
      threads := pool.threads.erase threadNo }
  else
    match pool.queue with
    | [] => move threadNo .crashed pool
    | task :: queue =>
        move threadNo .outside { pool with queue, taken := pool.taken ++ [task] }

/-- A handler thread takes the lock, to begin with or to return from `wait()`. -/
def handlerThread (threadNo : Nat) (pool : ThreadedTaskDispatcher Task) :
    Option (ThreadedTaskDispatcher Task) :=
  if threadNo ∈ pool.threads then
    match pool.position threadNo with
    | .outside => some (handlerLoop threadNo pool)
    | .notified => some (handlerLoop threadNo { pool with activeCount := pool.activeCount + 1 })
    | .parked => none
    | .crashed => none
  else none

def cancelPending (pool : ThreadedTaskDispatcher Task) : ThreadedTaskDispatcher Task :=
  notifyAll { pool with queue := [], taken := pool.taken ++ pool.queue }

inductive Action (Task : Type) where
  | setThreadCount (count : Nat)
  | addTask (task : Task) (woken : Option Nat)
  | handlerThread (threadNo : Nat)
  | cancelPending

def next : Action Task → ThreadedTaskDispatcher Task → Option (ThreadedTaskDispatcher Task)
  | .setThreadCount count, pool => some (setThreadCount count pool)
  | .addTask task woken, pool => addTask task woken pool
  | .handlerThread threadNo, pool => handlerThread threadNo pool
  | .cancelPending, pool => some (cancelPending pool)

/-! ### Free numbers -/

theorem freeNumber_not_mem {threads : Finset Nat} {fuel threadNo : Nat}
    (enough : (threads.filter (threadNo ≤ ·)).card ≤ fuel) :
    freeNumber threads fuel threadNo ∉ threads := by
  induction fuel generalizing threadNo with
  | zero =>
      intro taken
      have listed : threadNo ∈ threads.filter (threadNo ≤ ·) :=
        Finset.mem_filter.mpr ⟨taken, Nat.le_refl _⟩
      rw [Finset.card_eq_zero.mp (Nat.le_zero.mp enough)] at listed
      exact absurd listed (Finset.notMem_empty _)
  | succ fuel inductionHypothesis =>
      rw [freeNumber]
      split
      · rename_i taken
        refine inductionHypothesis (Nat.le_of_lt_succ (Nat.lt_of_lt_of_le ?_ enough))
        refine Finset.card_lt_card ((Finset.ssubset_iff_of_subset fun other mem => ?_).mpr
          ⟨threadNo, Finset.mem_filter.mpr ⟨taken, Nat.le_refl _⟩, fun mem => ?_⟩)
        · rw [Finset.mem_filter] at mem ⊢
          exact ⟨mem.1, by omega⟩
        · rw [Finset.mem_filter] at mem
          omega
      · assumption

/-! ### The number of active threads -/

/-- The sum of what the registered threads add to it. -/
def activeThreads (pool : ThreadedTaskDispatcher Task) : Int :=
  ∑ threadNo ∈ pool.threads, (pool.position threadNo).active

theorem move_position_self (threadNo : Nat) (position : HandlerPosition)
    (pool : ThreadedTaskDispatcher Task) :
    (pool.move threadNo position).position threadNo = position :=
  Function.update_self _ _ _

theorem move_position_of_ne {threadNo other : Nat} (different : other ≠ threadNo)
    (position : HandlerPosition) (pool : ThreadedTaskDispatcher Task) :
    (pool.move threadNo position).position other = pool.position other :=
  Function.update_of_ne different _ _

theorem sum_active_move {threads : Finset Nat} {threadNo : Nat} (absent : threadNo ∉ threads)
    (position : HandlerPosition) (pool : ThreadedTaskDispatcher Task) :
    ∑ other ∈ threads, ((pool.move threadNo position).position other).active =
      ∑ other ∈ threads, (pool.position other).active := by
  refine Finset.sum_congr rfl fun other mem => ?_
  rw [move_position_of_ne]
  rintro rfl
  exact absent mem

theorem activeThreads_move {threadNo : Nat} {pool : ThreadedTaskDispatcher Task}
    (registered : threadNo ∈ pool.threads) (position : HandlerPosition) :
    (pool.move threadNo position).activeThreads =
      pool.activeThreads - (pool.position threadNo).active + position.active := by
  have others := sum_active_move (Finset.notMem_erase threadNo pool.threads) position pool
  have before := Finset.add_sum_erase pool.threads
    (fun other => (pool.position other).active) registered
  have after := Finset.add_sum_erase pool.threads
    (fun other => ((pool.move threadNo position).position other).active) registered
  rw [others, move_position_self] at after
  change ∑ other ∈ pool.threads, _ = ∑ other ∈ pool.threads, _ - _ + _
  omega

theorem activeThreads_eq_card (pool : ThreadedTaskDispatcher Task) :
    pool.activeThreads =
      (pool.threads.filter fun threadNo => (pool.position threadNo).isWaiting = false).card := by
  rw [activeThreads, Finset.card_filter, Nat.cast_sum]
  refine Finset.sum_congr rfl fun threadNo _ => ?_
  cases pool.position threadNo <;> rfl

theorem activeThreads_notifyAll (pool : ThreadedTaskDispatcher Task) :
    pool.notifyAll.activeThreads = pool.activeThreads := by
  refine Finset.sum_congr rfl fun threadNo _ => ?_
  change (if pool.position threadNo = .parked then _ else _ : HandlerPosition).active = _
  split
  · rename_i parked
    rw [parked]
    rfl
  · rfl

theorem notifyAll_not_parked (pool : ThreadedTaskDispatcher Task) (threadNo : Nat) :
    pool.notifyAll.position threadNo ≠ .parked := by
  change (if pool.position threadNo = .parked then _ else _) ≠ _
  split
  · exact HandlerPosition.noConfusion
  · assumption

/-! ### The invariant -/

/-- The books of the dispatcher, with what keeps them right. -/
structure Sound (pool : ThreadedTaskDispatcher Task) : Prop where
  stopCount_nonneg : 0 ≤ pool.stopCount
  stopCount_le : pool.stopCount ≤ pool.threads.card
  running : (pool.threads.card : Int) - pool.stopCount = pool.requested
  active : pool.activeCount = pool.activeThreads
  fifo : pool.added = pool.taken ++ pool.queue
  /-- Threads that have to stop are not left parked. -/
  released : 0 < pool.stopCount → ∀ threadNo ∈ pool.threads, pool.position threadNo ≠ .parked
  /-- While there are tasks, not all threads are parked. -/
  attended : pool.queue ≠ [] → pool.threads.Nonempty →
    ∃ threadNo ∈ pool.threads, pool.position threadNo ≠ .parked

theorem Sound.initial : (({} : ThreadedTaskDispatcher Task)).Sound where
  stopCount_nonneg := Int.le_refl 0
  stopCount_le := Int.le_refl 0
  running := rfl
  active := rfl
  fifo := rfl
  released positive := absurd positive (Int.lt_irrefl 0)
  attended nonempty := absurd rfl nonempty

structure Started (missing : Nat) (pool after : ThreadedTaskDispatcher Task) : Prop where
  card : after.threads.card = pool.threads.card + missing
  idle : after.activeCount - after.activeThreads = pool.activeCount - pool.activeThreads
  old : ∀ threadNo ∈ pool.threads, threadNo ∈ after.threads ∧
    after.position threadNo = pool.position threadNo
  new : ∀ threadNo ∈ after.threads, threadNo ∉ pool.threads → after.position threadNo = .outside
  frame : after.queue = pool.queue ∧ after.stopCount = pool.stopCount ∧
    after.requested = pool.requested ∧ after.added = pool.added ∧ after.taken = pool.taken

theorem startThread_started {threadNo : Nat} {pool : ThreadedTaskDispatcher Task}
    (free : threadNo ∉ pool.threads) : Started 1 pool (startThread threadNo pool) where
  card := Finset.card_insert_of_notMem free
  idle := by
    have others := sum_active_move free .outside pool
    have total : (startThread threadNo pool).activeThreads = 1 + pool.activeThreads := by
      change ∑ other ∈ insert threadNo pool.threads, _ = 1 + ∑ other ∈ pool.threads, _
      rw [Finset.sum_insert free, ← others, startThread, move_position_self]
      rfl
    rw [total]
    change pool.activeCount + 1 - _ = _
    omega
  old other mem := by
    refine ⟨Finset.mem_insert_of_mem mem, move_position_of_ne ?_ _ _⟩
    rintro rfl
    exact free mem
  new other mem absent := by
    obtain rfl := (Finset.mem_insert.mp mem).resolve_right absent
    exact move_position_self _ _ _
  frame := ⟨rfl, rfl, rfl, rfl, rfl⟩

theorem Started.trans {first second : Nat} {pool middle after : ThreadedTaskDispatcher Task}
    (start : Started first pool middle) (rest : Started second middle after) :
    Started (second + first) pool after where
  card := by
    rw [rest.card, start.card]
    omega
  idle := rest.idle.trans start.idle
  old threadNo mem := by
    obtain ⟨registered, same⟩ := start.old threadNo mem
    obtain ⟨still, sameThen⟩ := rest.old threadNo registered
    exact ⟨still, sameThen.trans same⟩
  new threadNo mem absent := by
    by_cases early : threadNo ∈ middle.threads
    · exact (rest.old threadNo early).2.trans (start.new threadNo early absent)
    · exact rest.new threadNo mem early
  frame := by
    obtain ⟨queue, stopCount, requested, added, taken⟩ := rest.frame
    rw [queue, stopCount, requested, added, taken]
    exact start.frame

theorem startThreads_started (missing threadNo : Nat) (pool : ThreadedTaskDispatcher Task) :
    Started missing pool (startThreads missing threadNo pool) := by
  induction missing generalizing threadNo pool with
  | zero =>
      exact ⟨rfl, rfl, fun _ mem => ⟨mem, rfl⟩, fun _ mem absent => absurd mem absent,
        rfl, rfl, rfl, rfl, rfl⟩
  | succ missing inductionHypothesis =>
      have free : freeNumber pool.threads pool.threads.card threadNo ∉ pool.threads :=
        freeNumber_not_mem (Finset.card_le_card (Finset.filter_subset _ _))
      exact (startThread_started free).trans (inductionHypothesis _ _)

/-! ### What the steps preserve -/

theorem Sound.setThreadCount {pool : ThreadedTaskDispatcher Task} (sound : pool.Sound)
    (count : Nat) : (setThreadCount count pool).Sound := by
  have started := startThreads_started
    (count - ((pool.threads.card : Int) - pool.stopCount)).toNat 0 { pool with requested := count }
  unfold ThreadedTaskDispatcher.setThreadCount
  dsimp only
  generalize startThreads _ _ _ = after at started
  obtain ⟨card, idle, old, new, queue, stopCount, requested, added, taken⟩ := started
  dsimp only at card idle old new queue stopCount requested added taken
  have nonneg := sound.stopCount_nonneg
  have le := sound.stopCount_le
  have running := sound.running
  have active : after.activeCount = after.activeThreads := by
    have same := sound.active
    change _ = pool.activeCount - pool.activeThreads at idle
    omega
  have fifo : after.added = after.taken ++ after.queue := by
    rw [added, taken, queue]
    exact sound.fifo
  split
  · rename_i surplus
    refine ⟨?_, ?_, ?_, ?_, fifo, fun _ threadNo _ => notifyAll_not_parked _ threadNo,
      fun _ ⟨threadNo, mem⟩ => ⟨threadNo, mem, notifyAll_not_parked _ threadNo⟩⟩
    · change 0 ≤ after.stopCount + _
      omega
    · change after.stopCount + _ ≤ after.threads.card
      omega
    · change (after.threads.card : Int) - (after.stopCount + _) = after.requested
      omega
    · rw [activeThreads_notifyAll]
      exact active
  · rename_i enough
    refine ⟨by omega, by omega, by omega, active, fifo, fun positive threadNo mem => ?_,
      fun waiting staff => ?_⟩
    · by_cases registered : threadNo ∈ pool.threads
      · rw [(old threadNo registered).2]
        exact sound.released (stopCount ▸ positive) threadNo registered
      · rw [new threadNo mem registered]
        exact HandlerPosition.noConfusion
    · by_cases staffed : pool.threads.Nonempty
      · obtain ⟨threadNo, mem, awake⟩ := sound.attended (queue ▸ waiting) staffed
        obtain ⟨registered, same⟩ := old threadNo mem
        exact ⟨threadNo, registered, same ▸ awake⟩
      · obtain ⟨threadNo, mem⟩ := staff
        refine ⟨threadNo, mem, ?_⟩
        rw [new threadNo mem fun registered => staffed ⟨threadNo, registered⟩]
        exact HandlerPosition.noConfusion

theorem Sound.addTask {pool after : ThreadedTaskDispatcher Task} (sound : pool.Sound)
    {task : Task} {woken : Option Nat} (added : addTask task woken pool = some after) :
    after.Sound := by
  have fifo : pool.added ++ [task] = pool.taken ++ (pool.queue ++ [task]) := by
    rw [sound.fifo, List.append_assoc]
  unfold ThreadedTaskDispatcher.addTask at added
  cases woken with
  | some threadNo =>
      dsimp only at added
      split at added
      · rename_i parked
        cases added
        refine ⟨sound.stopCount_nonneg, sound.stopCount_le, sound.running, ?_, fifo,
          fun positive other mem waits => ?_, fun _ _ => ⟨threadNo, parked.1, ?_⟩⟩
        · have total := activeThreads_move parked.1 .notified
          rw [parked.2] at total
          exact sound.active.trans (total.trans (by simp [HandlerPosition.active,
            HandlerPosition.isWaiting])).symm
        · exact sound.released positive threadNo parked.1 parked.2
        · rw [move_position_self]
          exact HandlerPosition.noConfusion
      · cases added
  | none =>
      dsimp only at added
      split at added
      · rename_i nobody
        cases added
        exact ⟨sound.stopCount_nonneg, sound.stopCount_le, sound.running, sound.active, fifo,
          sound.released, fun _ ⟨threadNo, mem⟩ => ⟨threadNo, mem, nobody threadNo mem⟩⟩
      · cases added

theorem Sound.cancelPending {pool : ThreadedTaskDispatcher Task} (sound : pool.Sound) :
    pool.cancelPending.Sound where
  stopCount_nonneg := sound.stopCount_nonneg
  stopCount_le := sound.stopCount_le
  running := sound.running
  active := (sound.active).trans (activeThreads_notifyAll _).symm
  fifo := sound.fifo.trans (List.append_nil _).symm
  released _ threadNo _ := notifyAll_not_parked _ threadNo
  attended nonempty := absurd rfl nonempty

/-- `counted` is the number of active threads with this one among them. -/
theorem Sound.handlerLoop {pool : ThreadedTaskDispatcher Task} (sound : pool.Sound)
    {threadNo : Nat} (registered : threadNo ∈ pool.threads) {counted : Int}
    (count : counted = pool.activeThreads - (pool.position threadNo).active + 1) :
    (handlerLoop threadNo { pool with activeCount := counted }).Sound := by
  have moved := fun position => activeThreads_move registered position
  unfold ThreadedTaskDispatcher.handlerLoop
  dsimp only
  split
  · -- the thread parks
    rename_i idle
    refine ⟨sound.stopCount_nonneg, sound.stopCount_le, sound.running, ?_, sound.fifo,
      fun positive => absurd idle.2 (Int.ne_of_gt positive), fun nonempty => absurd idle.1 nonempty⟩
    refine Eq.trans ?_ (moved .parked).symm
    change counted - 1 = _ + 0
    omega
  · split
    · -- the thread stops
      rename_i stops
      have erased := Finset.card_erase_of_mem registered
      have staff := Finset.card_pos.mpr ⟨threadNo, registered⟩
      have le := sound.stopCount_le
      have running := sound.running
      refine ⟨?_, ?_, ?_, ?_, sound.fifo, fun _ other mem => ?_, fun waiting left => ?_⟩
      · change 0 ≤ pool.stopCount - 1
        omega
      · change pool.stopCount - 1 ≤ ((pool.threads.erase threadNo).card : Int)
        omega
      · change ((pool.threads.erase threadNo).card : Int) - (pool.stopCount - 1) = pool.requested
        omega
      · have total := Finset.add_sum_erase pool.threads
          (fun other => (pool.position other).active) registered
        change _ = pool.activeThreads at total
        change counted - 1 = ∑ other ∈ pool.threads.erase threadNo, (pool.position other).active
        omega
      · exact sound.released stops other (Finset.mem_of_mem_erase mem)
      · obtain ⟨other, mem⟩ := left
        exact ⟨other, mem, sound.released stops other (Finset.mem_of_mem_erase mem)⟩
    · rename_i busy stays
      have zero : pool.stopCount = 0 := Int.le_antisymm (Int.not_lt.mp stays) sound.stopCount_nonneg
      split
      · rename_i empty
        exact absurd ⟨empty, zero⟩ busy
      · -- the thread takes a task
        rename_i task queue first
        refine ⟨sound.stopCount_nonneg, sound.stopCount_le, sound.running, ?_, ?_,
          fun positive => absurd zero (Int.ne_of_gt positive), fun _ _ => ⟨threadNo, registered, ?_⟩⟩
        · refine Eq.trans ?_ (moved .outside).symm
          exact count
        · have fifo := sound.fifo
          rw [first] at fifo
          exact fifo.trans (List.append_cons _ _ _)
        · rw [move_position_self]
          exact HandlerPosition.noConfusion

theorem Sound.handlerThread {pool after : ThreadedTaskDispatcher Task} (sound : pool.Sound)
    {threadNo : Nat} (handled : handlerThread threadNo pool = some after) : after.Sound := by
  unfold ThreadedTaskDispatcher.handlerThread at handled
  split at handled
  · rename_i registered
    split at handled
    · rename_i outside
      cases handled
      refine sound.handlerLoop registered ?_
      rw [outside, sound.active]
      exact (Int.sub_add_cancel _ _).symm
    · rename_i notified
      cases handled
      refine sound.handlerLoop registered ?_
      rw [notified, sound.active]
      exact (congrArg (· + 1) (Int.sub_zero _)).symm
    · cases handled
    · cases handled
  · cases handled

theorem Sound.next {pool after : ThreadedTaskDispatcher Task} (sound : pool.Sound)
    {action : Action Task} (taken : next action pool = some after) : after.Sound := by
  cases action with
  | setThreadCount count =>
      cases taken
      exact sound.setThreadCount count
  | addTask task woken => exact sound.addTask taken
  | handlerThread threadNo => exact sound.handlerThread taken
  | cancelPending =>
      cases taken
      exact sound.cancelPending

/-! ### The books -/

/-- The counters are right, the tasks leave the queue in order and no task
waits for a pool that is all parked. -/
structure BooksKept (pool : ThreadedTaskDispatcher Task) : Prop where
  stopCount : 0 ≤ pool.stopCount ∧ pool.stopCount ≤ pool.threads.card
  requested : (pool.threads.card : Int) - pool.stopCount = pool.requested
  active : pool.activeCount =
    (pool.threads.filter fun threadNo => (pool.position threadNo).isWaiting = false).card
  fifo : pool.added = pool.taken ++ pool.queue
  notStranded : ¬ (pool.queue ≠ [] ∧ pool.stopCount = 0 ∧ pool.threads.Nonempty ∧
    ∀ threadNo ∈ pool.threads, pool.position threadNo = .parked)

theorem Sound.booksKept {pool : ThreadedTaskDispatcher Task} (sound : pool.Sound) :
    pool.BooksKept where
  stopCount := ⟨sound.stopCount_nonneg, sound.stopCount_le⟩
  requested := sound.running
  active := sound.active.trans pool.activeThreads_eq_card
  fifo := sound.fifo
  notStranded := by
    rintro ⟨waiting, -, staffed, parked⟩
    obtain ⟨threadNo, mem, awake⟩ := sound.attended waiting staffed
    exact awake (parked threadNo mem)

/-- Whatever the order of the sections, the books are kept. -/
theorem run_booksKept {actions : List (Action Task)} {pool : ThreadedTaskDispatcher Task}
    (ran : Transition.run next actions {} = some pool) : pool.BooksKept :=
  (Transition.run_invariant (fun _ _ _ sound taken => Sound.next sound taken) Sound.initial
    ran).booksKept

/-- The first of two threads parks, is notified of a task and has to stop instead. -/
theorem run_booksKept_sample :
    ∃ pool : ThreadedTaskDispatcher Nat,
      Transition.run next
        [.setThreadCount 2, .handlerThread 0, .addTask 7 (some 0), .setThreadCount 1,
          .handlerThread 0] {} = some pool ∧
      pool.threads = {1} ∧ pool.queue = [7] ∧ pool.BooksKept := by
  obtain ⟨pool, ran, threads, queue⟩ : ∃ pool : ThreadedTaskDispatcher Nat,
      Transition.run next
        [.setThreadCount 2, .handlerThread 0, .addTask 7 (some 0), .setThreadCount 1,
          .handlerThread 0] {} = some pool ∧ pool.threads = {1} ∧ pool.queue = [7] :=
    ⟨_, rfl, by decide, by decide⟩
  exact ⟨pool, ran, threads, queue, run_booksKept ran⟩

end ThreadedTaskDispatcher

end Waitress
