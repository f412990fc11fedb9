import Waitress.Server

/-!
# Steps of a channel in the process

What `act` leaves is the process with the new channel, its pool and the trigger of
its server, from the maps of which the channel is taken if it was closed.
-/

namespace Waitress.Process

/-- What a step of a channel finds and leaves, but for the maps. -/
structure ActsOn [CPython] (id : Nat) (action : HTTPChannel.Action) (now : Int)
    (woken : Option Nat) (process : Process) (before after : Connection) (trigger : Trigger Empty)
    (pool : ThreadedTaskDispatcher Nat) : Prop where
  found : process.connection id = some before
  taken : HTTPChannel.next before.context action before.channel = some after.channel
  context : after.context = before.context
  server : after.server = before.server
  fileno : after.fileno = before.fileno
  lastStep : after.lastStep = now
  lastActivity : after.lastActivity = now ∨ after.lastActivity = before.lastActivity
  added : addTasks id woken before.channel after.channel process.pool = some pool
  closed : trigger.closed = (process.server before.server).trigger.closed
  pipe : (process.server before.server).trigger.pipe ≤ trigger.pipe
  pulled : before.channel.pulls before.context action = true → trigger.closed = false →
    0 < trigger.pipe

def placed (id : Nat) (after : Connection) (trigger : Trigger Empty)
    (pool : ThreadedTaskDispatcher Nat) (process : Process) : Process :=
  setConnection id after
    (setServer after.server { process.server after.server with trigger } { process with pool })

/-! ### Fields -/

section

variable (id other i : Nat) (connection : Connection) (server : BaseWSGIServer)
  (trigger : Trigger Empty) (pool : ThreadedTaskDispatcher Nat) (process : Process)

@[simp]
theorem setServer_server_self : (process.setServer i server).server i = server :=
  Function.update_self _ _ _

theorem setServer_server_of_ne {i j : Nat} (different : j ≠ i) :
    (process.setServer i server).server j = process.server j :=
  Function.update_of_ne different _ _

@[simp]
theorem setConnection_connection_self :
    (process.setConnection id connection).connection id = some connection :=
  Function.update_self _ _ _

theorem setConnection_connection_of_ne {id other : Nat} (different : other ≠ id) :
    (process.setConnection id connection).connection other = process.connection other :=
  Function.update_of_ne different _ _

@[simp]
theorem placed_connection_self :
    (process.placed id connection trigger pool).connection id = some connection :=
  Function.update_self _ _ _

theorem placed_connection_of_ne {id other : Nat} (different : other ≠ id) :
    (process.placed id connection trigger pool).connection other = process.connection other :=
  Function.update_of_ne different _ _

theorem placed_server :
    (process.placed id connection trigger pool).server i =
      { process.server i with
        trigger :=
          if i = connection.server then trigger else (process.server i).trigger } := by
  by_cases same : i = connection.server
  · rw [if_pos same, same]
    exact Function.update_self _ _ _
  · rw [if_neg same]
    exact Function.update_of_ne same _ _

@[simp]
theorem delChannel_connection_self (fileno : Nat) :
    (process.delChannel id fileno connection).connection id =
      some { connection with fileno := none } :=
  Function.update_self _ _ _

theorem delChannel_connection_of_ne {id other : Nat} (different : other ≠ id) (fileno : Nat) :
    (process.delChannel id fileno connection).connection other = process.connection other :=
  Function.update_of_ne different _ _

theorem delChannel_server (fileno : Nat) :
    (process.delChannel id fileno connection).server i =
      { process.server i with
        activeChannels :=
          if i = connection.server then (process.server i).activeChannels.erase fileno
          else (process.server i).activeChannels } := by
  by_cases same : i = connection.server
  · rw [if_pos same, same]
    exact Function.update_self _ _ _
  · rw [if_neg same]
    exact Function.update_of_ne same _ _

@[simp]
theorem addChannel_connection_self (fileno : Nat) (context : ChannelContext)
    (socket : List SendResult) (now : Int) :
    (process.addChannel i fileno context socket now).connection process.nextId =
      some (.new i fileno context socket now) :=
  Function.update_self _ _ _

theorem addChannel_connection_of_ne {process : Process} {id : Nat} (different : id ≠ process.nextId)
    (fileno : Nat) (context : ChannelContext) (socket : List SendResult) (now : Int) :
    (process.addChannel i fileno context socket now).connection id = process.connection id :=
  Function.update_of_ne different _ _

theorem addChannel_server (j fileno : Nat) (context : ChannelContext) (socket : List SendResult)
    (now : Int) :
    (process.addChannel i fileno context socket now).server j =
      { process.server j with
        activeChannels :=
          if j = i then (process.server j).activeChannels.set fileno process.nextId
          else (process.server j).activeChannels } := by
  by_cases same : j = i
  · rw [if_pos same, same]
    exact setServer_server_self _ _ _
  · rw [if_neg same]
    exact setServer_server_of_ne _ _ same

end

/-! ### Cases -/

variable [CPython]

inductive Acted (id : Nat) (action : HTTPChannel.Action) (now : Int) (woken : Option Nat)
    (process : Process) : Process → Prop where
  | stays {before after : Connection} {trigger : Trigger Empty}
      {pool : ThreadedTaskDispatcher Nat} :
      ActsOn id action now woken process before after trigger pool →
      (before.fileno ≠ none → before.channel.closes action after.channel = false) →
      Acted id action now woken process (process.placed id after trigger pool)
  | closes {before after : Connection} {trigger : Trigger Empty}
      {pool : ThreadedTaskDispatcher Nat} {fileno : Nat} :
      ActsOn id action now woken process before after trigger pool →
      after.fileno = some fileno → before.channel.closes action after.channel = true →
      Acted id action now woken process
        ((process.placed id after trigger pool).delChannel id fileno after)

omit [CPython] in
theorem pullTrigger_trigger (i : Nat) (process : Process) :
    ∃ trigger, (pullTrigger i process).2 =
        process.setServer i { process.server i with trigger } ∧
      trigger.closed = (process.server i).trigger.closed ∧
      (process.server i).trigger.pipe ≤ trigger.pipe ∧
      (trigger.closed = false → 0 < trigger.pipe) := by
  unfold pullTrigger Trigger.physicalPull
  dsimp only
  split
  · rename_i trigger pulled
    split at pulled
    · cases pulled
    · cases pulled
      exact ⟨_, rfl, rfl, Nat.le_succ _, fun _ => Nat.succ_pos _⟩
  · rename_i raised
    split at raised
    · rename_i isClosed
      refine ⟨(process.server i).trigger, ?_, rfl, Nat.le_refl _, fun isOpen => ?_⟩
      · exact congrArg (fun server => { process with server })
          (Function.update_eq_self i process.server).symm
      · exact absurd (isOpen.symm.trans isClosed) Bool.false_ne_true
    · cases raised

theorem act_cases {id : Nat} {action : HTTPChannel.Action} {now : Int} {woken : Option Nat}
    {process final : Process} (taken : process.act id action now woken = some final) :
    Acted id action now woken process final := by
  unfold act at taken
  obtain ⟨before, found, taken⟩ := Option.bind_eq_some_iff.mp taken
  obtain ⟨channel, stepped, taken⟩ := Option.bind_eq_some_iff.mp taken
  obtain ⟨pool, added, taken⟩ := Option.bind_eq_some_iff.mp taken
  -- the trigger of the server, pulled or not
  obtain ⟨trigger, pulls, isClosed, pipe, isPulled⟩ : ∃ trigger,
      (if before.channel.pulls before.context action = true then pullTrigger before.server process
        else (true, process)).2 = process.setServer before.server
          { process.server before.server with trigger } ∧
      trigger.closed = (process.server before.server).trigger.closed ∧
      (process.server before.server).trigger.pipe ≤ trigger.pipe ∧
      (before.channel.pulls before.context action = true → trigger.closed = false →
        0 < trigger.pipe) := by
    split
    · rename_i pulls
      obtain ⟨trigger, pulled, isClosed, pipe, noticed⟩ := pullTrigger_trigger before.server process
      exact ⟨trigger, pulled, isClosed, pipe, fun _ => noticed⟩
    · rename_i quiet
      refine ⟨_, ?_, rfl, Nat.le_refl _, fun pulls => absurd pulls quiet⟩
      exact congrArg (fun server => { process with server })
        (Function.update_eq_self before.server process.server).symm
  generalize (if before.channel.pulls before.context action = true then _ else _ : Bool × Process)
    = outcome at taken pulls
  obtain ⟨pulled, middle⟩ := outcome
  dsimp only at taken pulls
  cases pulls
  have acts : ∀ lastActivity, (lastActivity = now ∨ lastActivity = before.lastActivity) →
      ActsOn id action now woken process before
        { before with channel, lastActivity, lastStep := now } trigger pool :=
    fun lastActivity activity =>
      { found, taken := stepped, context := rfl, server := rfl, fileno := rfl, lastStep := rfl,
        lastActivity := activity, added, closed := isClosed, pipe, pulled := isPulled }
  have activity : (if before.channel.touches action pulled channel = true then now
      else before.lastActivity) = now ∨
      (if before.channel.touches action pulled channel = true then now
        else before.lastActivity) = before.lastActivity := by
    split
    · exact .inl rfl
    · exact .inr rfl
  generalize (if before.channel.touches action pulled channel = true then now
      else before.lastActivity) = lastActivity at taken activity
  split at taken
  · rename_i fileno registered
    split at taken
    · rename_i closes
      cases taken
      exact .closes (acts _ activity) registered closes
    · rename_i stays
      cases taken
      exact .stays (acts _ activity) fun _ => Bool.eq_false_iff.mpr stays
  · rename_i unregistered
    cases taken
    exact .stays (acts _ activity) fun registered => absurd unregistered registered

/-- What a step of a channel leaves. -/
structure Leaves (id : Nat) (action : HTTPChannel.Action) (now : Int) (woken : Option Nat)
    (process : Process) (before after : Connection) (final : Process) : Prop where
  found : process.connection id = some before
  taken : HTTPChannel.next before.context action before.channel = some after.channel
  context : after.context = before.context
  server : after.server = before.server
  fileno : after.fileno = before.fileno ∧
      (before.fileno ≠ none → before.channel.closes action after.channel = false) ∨
    after.fileno = none ∧ before.channel.closes action after.channel = true
  lastStep : after.lastStep = now
  lastActivity : after.lastActivity = now ∨ after.lastActivity = before.lastActivity
  connection : final.connection = Function.update process.connection id (some after)
  pool : addTasks id woken before.channel after.channel process.pool = some final.pool
  serving : final.serving = process.serving
  loop : final.loop = process.loop
  entries : final.map.entries.Sublist process.map.entries
  map : ∀ fileno registered, final.map.get? fileno = some registered →
    process.map.get? fileno = some registered
  listening : ∀ i, (final.server i).fileno = (process.server i).fileno
  triggerFileno : ∀ i, (final.server i).triggerFileno = (process.server i).triggerFileno
  cleanup : ∀ i, (final.server i).nextChannelCleanup = (process.server i).nextChannelCleanup
  closed : ∀ i, (final.server i).trigger.closed = (process.server i).trigger.closed
  pipe : ∀ i, (process.server i).trigger.pipe ≤ (final.server i).trigger.pipe
  pulled : before.channel.pulls before.context action = true →
    (final.server before.server).trigger.closed = false →
    0 < (final.server before.server).trigger.pipe

theorem act_leaves {id : Nat} {action : HTTPChannel.Action} {now : Int} {woken : Option Nat}
    {process final : Process} (taken : process.act id action now woken = some final) :
    ∃ before after, Leaves id action now woken process before after final := by
  -- the triggers, which `del_channel` leaves alone
  have triggers : ∀ {before after : Connection} {trigger : Trigger Empty}
      {pool : ThreadedTaskDispatcher Nat},
      ActsOn id action now woken process before after trigger pool → ∀ i,
      ((process.placed id after trigger pool).server i).trigger.closed =
          (process.server i).trigger.closed ∧
        (process.server i).trigger.pipe ≤
          ((process.placed id after trigger pool).server i).trigger.pipe := by
    intro before after trigger pool acts i
    rw [placed_server]
    dsimp only
    split
    · rename_i same
      rw [same, acts.server]
      exact ⟨acts.closed, acts.pipe⟩
    · exact ⟨rfl, Nat.le_refl _⟩
  have pulled : ∀ {before after : Connection} {trigger : Trigger Empty}
      {pool : ThreadedTaskDispatcher Nat},
      ActsOn id action now woken process before after trigger pool →
      ((process.placed id after trigger pool).server before.server).trigger = trigger := by
    intro before after trigger pool acts
    rw [placed_server]
    exact if_pos acts.server.symm
  cases act_cases taken with
  | @stays before after trigger pool acts open_ =>
      refine ⟨before, after, ?_⟩
      exact
        { found := acts.found, taken := acts.taken, context := acts.context,
          server := acts.server, fileno := .inl ⟨acts.fileno, open_⟩, lastStep := acts.lastStep,
          lastActivity := acts.lastActivity, connection := rfl, pool := acts.added,
          serving := rfl, loop := rfl, entries := .refl _, map := fun _ _ found => found
          listening := fun i => by rw [placed_server]
          triggerFileno := fun i => by rw [placed_server]
          cleanup := fun i => by rw [placed_server]
          closed := fun i => (triggers acts i).1
          pipe := fun i => (triggers acts i).2
          pulled := by
            rw [pulled acts]
            exact acts.pulled }
  | @closes before after trigger pool fileno acts registered closes =>
      refine ⟨before, { after with fileno := none }, ?_⟩
      exact
        { found := acts.found, taken := acts.taken, context := acts.context,
          server := acts.server, fileno := .inr ⟨rfl, closes⟩, lastStep := acts.lastStep,
          lastActivity := acts.lastActivity
          connection := Function.update_idem _ _ _
          pool := acts.added, serving := rfl, loop := rfl
          entries := List.filter_sublist
          map := by
            intro other object found
            change (process.map.erase fileno).get? other = _ at found
            rw [Dict.get?_erase] at found
            split at found
            · cases found
            · exact found
          listening := fun i => by rw [delChannel_server, placed_server]
          triggerFileno := fun i => by rw [delChannel_server, placed_server]
          cleanup := fun i => by rw [delChannel_server, placed_server]
          closed := fun i => by
            rw [delChannel_server]
            exact (triggers acts i).1
          pipe := fun i => by
            rw [delChannel_server]
            exact (triggers acts i).2
          pulled := by
            rw [delChannel_server]
            dsimp only
            rw [pulled acts]
            exact acts.pulled }

theorem Leaves.connection_self {id : Nat} {action : HTTPChannel.Action} {now : Int}
    {woken : Option Nat} {process final : Process} {before after : Connection}
    (leaves : Leaves id action now woken process before after final) :
    final.connection id = some after := by
  rw [leaves.connection, Function.update_self]

theorem Leaves.connection_of_ne {id other : Nat} {action : HTTPChannel.Action} {now : Int}
    {woken : Option Nat} {process final : Process} {before after : Connection}
    (leaves : Leaves id action now woken process before after final) (different : other ≠ id) :
    final.connection other = process.connection other := by
  rw [leaves.connection, Function.update_of_ne different]

/-! ### Handler threads -/

inductive Serves (threadNo : Nat) (action : HTTPChannel.Action) (now : Int) (woken : Option Nat)
    (process : Process) : Process → Prop where
  | calls {id : Nat} {middle : Process} {before after : Connection} :
      process.serving threadNo = some (.calling id) → action.isService = true →
      process.act id action now woken = some middle →
      Leaves id action now woken process before after middle →
      Serves threadNo action now woken process
        (middle.setServing threadNo (Serving.go id before.channel after.channel))
  | returns {id : Nat} {middle : Process} {before after : Connection} :
      process.serving threadNo = some (.returning id) →
      process.act id .return_ now woken = some middle →
      Leaves id .return_ now woken process before after middle →
      Serves threadNo action now woken process (middle.setServing threadNo none)

theorem service_serves {threadNo : Nat} {action : HTTPChannel.Action} {now : Int}
    {woken : Option Nat} {process final : Process}
    (done : process.service threadNo action now woken = some final) :
    Serves threadNo action now woken process final := by
  unfold Process.service at done
  split at done
  · rename_i id calling
    split at done
    · rename_i isService
      obtain ⟨connection, found, done⟩ := Option.bind_eq_some_iff.mp done
      obtain ⟨middle, acted, done⟩ := Option.bind_eq_some_iff.mp done
      obtain ⟨served, foundThen, done⟩ := Option.bind_eq_some_iff.mp done
      obtain ⟨before, after, leaves⟩ := act_leaves acted
      obtain rfl := Option.some.inj (leaves.found.symm.trans found)
      obtain rfl := Option.some.inj (leaves.connection_self.symm.trans foundThen)
      cases done
      exact .calls calling isService acted leaves
    · cases done
  · rename_i id returning
    obtain ⟨middle, acted, rfl⟩ := Option.map_eq_some_iff.mp done
    obtain ⟨before, after, leaves⟩ := act_leaves acted
    exact .returns returning acted leaves
  · cases done

inductive Takes (threadNo : Nat) (now : Int) (process : Process) : Process → Prop where
  | task {id : Nat} {queue : List Nat} {pool : ThreadedTaskDispatcher Nat} {middle : Process}
      {before after : Connection} : process.serving threadNo = none →
      process.pool.handlerThread threadNo = some pool → process.pool.queue = id :: queue →
      pool.queue = queue → process.act id .pop now none = some middle →
      Leaves id .pop now none process before after middle →
      Takes threadNo now process
        (setServing threadNo (some (.calling id)) { middle with pool })
  | other {pool : ThreadedTaskDispatcher Nat} : process.serving threadNo = none →
      process.pool.handlerThread threadNo = some pool →
      (∀ id queue, process.pool.queue = id :: queue → pool.queue ≠ queue) →
      Takes threadNo now process { process with pool }

theorem handlerThread_takes {threadNo : Nat} {now : Int} {process final : Process}
    (done : process.handlerThread threadNo now = some final) : Takes threadNo now process final := by
  unfold Process.handlerThread at done
  split at done
  · rename_i free
    obtain ⟨pool, handled, done⟩ := Option.bind_eq_some_iff.mp done
    split at done
    · rename_i empty
      cases done
      refine .other free handled fun id queue first => ?_
      cases empty.symm.trans first
    · rename_i id queue first
      split at done
      · rename_i taken
        obtain ⟨middle, acted, rfl⟩ := Option.map_eq_some_iff.mp done
        obtain ⟨before, after, leaves⟩ := act_leaves acted
        exact .task free handled first taken acted leaves
      · rename_i notTaken
        cases done
        refine .other free handled fun other rest same => ?_
        obtain ⟨-, rfl⟩ := List.cons.inj (first.symm.trans same)
        exact notTaken
  · cases done

/-! ### The loop over the items -/

section

variable {adj : ServerAdjustments} {now : Int}

omit [CPython] in
theorem cleanUp_connection (i id : Nat) (process : Process) :
    (process.cleanUp adj i now).connection id = process.connection id ∨
      ∃ before, process.connection id = some before ∧
        id ∈ (process.server i).activeChannels.entries.map Prod.snd ∧
        before.lastActivity < now - adj.channelTimeout ∧
        (process.cleanUp adj i now).connection id =
          some { before with channel := before.channel.maintain } := by
  unfold Process.cleanUp
  dsimp only
  split
  · change (process.connection id).map _ = _ ∨ ∃ before, _ ∧ _ ∧ _ ∧
      (process.connection id).map _ = _
    rw [setServer_server_self]
    cases found : process.connection id with
    | none => exact .inl rfl
    | some before =>
        rw [Option.map_some]
        split
        · rename_i idle
          exact .inr ⟨before, rfl, idle.1, idle.2, rfl⟩
        · exact .inl rfl
  · exact .inl rfl

omit [CPython] in
theorem readable_server (size : Nat) (server : BaseWSGIServer) :
    ∃ inConnectionOverflow,
      (server.readable adj size).2 = { server with inConnectionOverflow } := by
  unfold BaseWSGIServer.readable
  split
  · split
    · exact ⟨true, rfl⟩
    · split
      · exact ⟨false, rfl⟩
      · exact ⟨_, rfl⟩
  · exact ⟨_, rfl⟩

inductive Tests (adj : ServerAdjustments) (now : Int) (process : Process) :
    Registered → Bool × Process → Prop where
  | server {i : Nat} {inConnectionOverflow : Bool} {cleaned : Process} :
      cleaned = process.cleanUp adj i now →
      Tests adj now process (.server i)
        (((cleaned.server i).readable adj cleaned.map.entries.length).1,
          cleaned.setServer i { cleaned.server i with inConnectionOverflow })
  | other {registered : Registered} {isReadable : Bool} :
      (∀ i, registered ≠ .server i) → Tests adj now process registered (isReadable, process)

omit [CPython] in
theorem testReadable_tests {process : Process} {registered : Registered}
    {tested : Bool × Process} (done : process.testReadable adj now registered = some tested) :
    Tests adj now process registered tested := by
  cases registered with
  | server i =>
      obtain ⟨inConnectionOverflow, changed⟩ := @readable_server adj
        (process.cleanUp adj i now).map.entries.length ((process.cleanUp adj i now).server i)
      have last : tested = (((process.cleanUp adj i now).server i).readable adj
            (process.cleanUp adj i now).map.entries.length |>.1,
          (process.cleanUp adj i now).setServer i
            (((process.cleanUp adj i now).server i).readable adj
              (process.cleanUp adj i now).map.entries.length).2) :=
        (Option.some.inj done).symm
      rw [last, changed]
      exact .server rfl
  | trigger i =>
      cases done
      exact .other nofun
  | channel id =>
      obtain ⟨connection, -, rfl⟩ := Option.map_eq_some_iff.mp done
      exact .other nofun

end

/-! ### What every step preserves -/

/-- An invariant that does not look at the positions of the threads is preserved by a
step if it is by each operation on the channels, the maps and the servers.  A server
cleans up in a state that is known to be quiet. -/
structure Preserved (adj : ServerAdjustments) (now : Int) (quiet invariant : Process → Prop) :
    Prop where
  frame : ∀ {process : Process} (loop : LoopPosition) (pool : ThreadedTaskDispatcher Nat)
    (serving : Nat → Option Serving), invariant process →
      invariant { process with loop, pool, serving }
  act : ∀ {process after : Process} {id : Nat} {action : HTTPChannel.Action} {woken : Option Nat},
    invariant process → process.act id action now woken = some after → invariant after
  cleanUp : ∀ {process : Process} (i : Nat), quiet process → invariant process →
    invariant (process.cleanUp adj i now)
  server : ∀ {process : Process} (i : Nat) (inConnectionOverflow : Bool) (trigger : Trigger Empty),
    invariant process → trigger.closed = (process.server i).trigger.closed →
      invariant (process.setServer i { process.server i with inConnectionOverflow, trigger })
  closeServer : ∀ {process : Process} (i : Nat), invariant process →
    invariant (process.closeServer i)
  addChannel : ∀ {process : Process} {i listening fileno : Nat} (sendbufLen : Nat)
    (socket : List SendResult), invariant process →
      process.map.get? listening = some (.server i) → process.map.get? fileno = none →
      invariant
        (process.addChannel i fileno { adj := adj.toAdjustments, sendbufLen } socket now)

section

variable {adj : ServerAdjustments} {now : Int} {quiet invariant : Process → Prop}

theorem Preserved.loop (preserved : Preserved adj now quiet invariant) {process : Process}
    (holds : invariant process) (loop : LoopPosition) : invariant { process with loop } :=
  preserved.frame loop process.pool process.serving holds

theorem Preserved.testReadable (preserved : Preserved adj now quiet invariant) {process : Process}
    (still : quiet process) (holds : invariant process) {registered : Registered}
    {tested : Bool × Process}
    (done : process.testReadable adj now registered = some tested) : invariant tested.2 := by
  cases testReadable_tests done with
  | @server i inConnectionOverflow cleaned same =>
      have cleanedUp := preserved.cleanUp i still holds
      rw [← same] at cleanedUp
      exact preserved.server i inConnectionOverflow _ cleanedUp rfl
  | other => exact holds

omit [CPython] in
theorem readTrigger_eq (i : Nat) (process : Process) :
    ∃ server, process.readTrigger i = { process with server } := by
  unfold Process.readTrigger
  dsimp only
  split
  · exact ⟨_, rfl⟩
  · exact ⟨_, rfl⟩

theorem Preserved.readTrigger (preserved : Preserved adj now quiet invariant) {process : Process}
    (holds : invariant process) (i : Nat) : invariant (process.readTrigger i) := by
  unfold Process.readTrigger
  dsimp only
  split
  · rename_i trigger received
    exact preserved.server i _ _ holds (Trigger.closed_recv received)
  · exact holds

theorem Preserved.handle (preserved : Preserved adj now quiet invariant) {process after : Process}
    (holds : invariant process) {id : Nat} {action : HTTPChannel.Action} {woken : Option Nat}
    {r w e : List Nat} (done : process.handle id action now woken r w e = some after) :
    invariant after := by
  obtain ⟨middle, acted, done⟩ := Option.bind_eq_some_iff.mp done
  obtain ⟨connection, -, done⟩ := Option.bind_eq_some_iff.mp done
  cases done
  exact preserved.loop (preserved.act holds acted) _

theorem Preserved.handled (preserved : Preserved adj now quiet invariant) {process after : Process}
    (holds : invariant process) {busy : Option Nat} {r' r w e : List Nat}
    (done : Handled adj now process busy r' r w e after) : invariant after := by
  cases done with
  | nothing => exact preserved.loop holds _
  | accepts idle first isServer free =>
      exact preserved.loop (preserved.addChannel _ _ holds isServer free) _
  | closeServer => exact preserved.loop (preserved.closeServer _ holds) _
  | readTrigger => exact preserved.loop (preserved.readTrigger holds _) _
  | channel alone done isMain => exact preserved.handle holds done

theorem Preserved.cancelTasks (preserved : Preserved adj now quiet invariant) {ids : List Nat}
    {process after : Process} (holds : invariant process)
    (done : cancelTasks now ids process = some after) : invariant after := by
  induction ids generalizing process with
  | nil =>
      cases done
      exact holds
  | cons id ids inductionHypothesis =>
      obtain ⟨middle, acted, rest⟩ := Option.bind_eq_some_iff.mp done
      exact inductionHypothesis (preserved.act holds acted) rest

theorem Preserved.service (preserved : Preserved adj now quiet invariant) {process after : Process}
    (holds : invariant process) {threadNo : Nat} {action : HTTPChannel.Action}
    {woken : Option Nat} (done : process.service threadNo action now woken = some after) :
    invariant after := by
  cases service_serves done with
  | calls calling isService acted => exact preserved.frame _ _ _ (preserved.act holds acted)
  | returns returning acted => exact preserved.frame _ _ _ (preserved.act holds acted)

theorem Preserved.handlerThread (preserved : Preserved adj now quiet invariant)
    {process after : Process} (holds : invariant process) {threadNo : Nat}
    (done : process.handlerThread threadNo now = some after) : invariant after := by
  cases handlerThread_takes done with
  | @task id queue pool middle _ _ free handled first taken acted =>
      have popped := preserved.frame middle.loop pool
        (Function.update middle.serving threadNo (some (.calling id))) (preserved.act holds acted)
      exact popped
  | other free handled => exact preserved.frame _ _ _ holds

theorem Preserved.perform (preserved : Preserved adj now quiet invariant) {process after : Process}
    (holds : invariant process) {action : Action}
    (still : ∀ items isReadable r w e,
      process.loop = .gathering items isReadable r w e → quiet process)
    (taken : process.perform adj now action = some after) : invariant after := by
  cases perform_steps adj taken with
  | testReadable at_ tested =>
      exact preserved.loop (preserved.testReadable (still _ _ _ _ _ at_) holds tested) _
  | handled at_ suffix done => exact preserved.handled holds done
  | setThreadCount at_ => exact preserved.frame _ _ _ holds
  | cancelPending at_ done => exact preserved.frame _ _ _ (preserved.cancelTasks holds done)
  | handlerThread done => exact preserved.handlerThread holds done
  | service done => exact preserved.service holds done
  | testWritable | select | selectFails | poll | interrupt => exact preserved.loop holds _

end

end Waitress.Process
