import Waitress.Server.Handlers

/-!
# The maintenance of the servers

A server looks for idle channels when it is asked whether it is readable, but not
before `cleanup_interval` is over.  A channel that has taken no step for longer than
that and `channel_timeout` has been found, if it has no requests.
-/

namespace Waitress.Process

/-- The times of the servers and of the channels, none of which is behind the clock. -/
structure Timed (adj : ServerAdjustments) (clock : Int) (process : Process) : Prop where
  activity : ∀ id connection, process.connection id = some connection →
    connection.lastActivity ≤ connection.lastStep ∧ connection.lastStep ≤ clock
  cleanup : ∀ i, (process.server i).nextChannelCleanup ≤ clock + adj.cleanupInterval
  /-- An idle channel that is not marked is looked at in time. -/
  idle : ∀ id connection, process.connection id = some connection → connection.fileno ≠ none →
    connection.channel.requests = [] → connection.channel.output.willClose = false →
      (process.server connection.server).nextChannelCleanup ≤
        connection.lastStep + adj.channelTimeout + adj.cleanupInterval

variable {adj : ServerAdjustments} {clock now : Int} {process : Process}

theorem Timed.later (timed : process.Timed adj clock) (later : clock ≤ now) :
    process.Timed adj now where
  activity id connection found := by
    have activity := timed.activity id connection found
    omega
  cleanup i := by
    have cleanup := timed.cleanup i
    omega
  idle := timed.idle

theorem Timed.of_same {after : Process} (timeout : 0 ≤ adj.channelTimeout)
    (timed : process.Timed adj now)
    (cleanup : ∀ i,
      (after.server i).nextChannelCleanup = (process.server i).nextChannelCleanup)
    (connection : ∀ id connection, after.connection id = some connection →
      process.connection id = some connection ∨
        connection.lastStep = now ∧ connection.lastActivity ≤ now) :
    after.Timed adj now where
  activity id another found := by
    rcases connection id another found with same | ⟨last, activity⟩
    · exact timed.activity id another same
    · omega
  cleanup i := by
    rw [cleanup]
    exact timed.cleanup i
  idle id another found registered empty unmarked := by
    rw [cleanup]
    rcases connection id another found with same | ⟨last, -⟩
    · exact timed.idle id another same registered empty unmarked
    · have most := timed.cleanup another.server
      omega

/-! ### The maintenance -/

theorem cleanUp_of_lt {i : Nat} (early : now < (process.server i).nextChannelCleanup) :
    process.cleanUp adj i now = process :=
  if_neg (Int.not_le.mpr early)

theorem cleanUp_server_of_le {i : Nat} (late : (process.server i).nextChannelCleanup ≤ now) (j : Nat) :
    ((process.cleanUp adj i now).server j).nextChannelCleanup =
      if j = i then now + adj.cleanupInterval else (process.server j).nextChannelCleanup := by
  rw [Process.cleanUp, if_pos late]
  change ((process.setServer i _).server j).nextChannelCleanup = _
  split
  · rename_i same
    rw [same, setServer_server_self]
  · rename_i different
    rw [setServer_server_of_ne _ _ different]

theorem cleanUp_connection_of_le {i id : Nat}
    (late : (process.server i).nextChannelCleanup ≤ now) {before : Connection}
    (found : process.connection id = some before)
    (active : id ∈ (process.server i).activeChannels.entries.map Prod.snd)
    (silent : before.lastActivity < now - adj.channelTimeout) :
    (process.cleanUp adj i now).connection id =
      some { before with channel := before.channel.maintain } := by
  rw [Process.cleanUp, if_pos late]
  change (process.connection id).map _ = _
  rw [setServer_server_self, found, Option.map_some, if_pos ⟨active, silent⟩]

/-- A server knows of the channels that it has accepted, until they are closed. -/
theorem Registry.mem_active (registry : process.Registry) {id : Nat} {connection : Connection}
    (found : process.connection id = some connection) (registered : connection.fileno ≠ none) :
    id ∈ (process.server connection.server).activeChannels.entries.map Prod.snd := by
  obtain ⟨fileno, held⟩ := Option.ne_none_iff_exists'.mp registered
  have known := (registry.active connection.server fileno id).mpr ⟨connection, found, held, rfl⟩
  exact List.mem_map.mpr
    ⟨_, (Dict.mem_entries_iff (registry.activeDistinct connection.server)).mpr known, rfl⟩

theorem maintain_willClose {channel : HTTPChannel} (empty : channel.requests = []) :
    channel.maintain.output.willClose = true := by
  rw [HTTPChannel.maintain, if_pos empty]

theorem maintain_requests (channel : HTTPChannel) :
    channel.maintain.requests = channel.requests := by
  unfold HTTPChannel.maintain
  split
  · rfl
  · rfl

theorem Timed.cleanUp (timed : process.Timed adj now) (quiet : process.Quiet) (i : Nat) :
    (process.cleanUp adj i now).Timed adj now := by
  by_cases early : now < (process.server i).nextChannelCleanup
  · rw [cleanUp_of_lt early]
    exact timed
  have late := Int.not_lt.mp early
  refine ⟨fun id after found => ?_, fun j => ?_, fun id after found registered empty unmarked => ?_⟩
  · rcases @cleanUp_connection adj now i id process with same | ⟨before, was, -, -, cleaned⟩
    · exact timed.activity id after (same.symm.trans found)
    · rw [cleaned] at found
      cases found
      exact timed.activity id before was
  · rw [cleanUp_server_of_le late]
    split
    · exact Int.le_refl _
    · exact timed.cleanup j
  · -- a channel that was marked is not unmarked
    rcases @cleanUp_connection adj now i id process with same | ⟨before, was, -, -, cleaned⟩
    · have was := same.symm.trans found
      rw [cleanUp_server_of_le late]
      split
      · rename_i isServer
        have active := quiet.1.mem_active was registered
        rw [isServer] at active
        have recent : now - adj.channelTimeout ≤ after.lastActivity := by
          refine Int.not_lt.mp fun silent => ?_
          have cleaned := cleanUp_connection_of_le late was active silent
          rw [found] at cleaned
          have same : after.channel = after.channel.maintain :=
            congrArg Connection.channel (Option.some.inj cleaned)
          have marked := maintain_willClose empty
          rw [← same, unmarked] at marked
          cases marked
        have activity := timed.activity id after was
        omega
      · exact timed.idle id after was registered empty unmarked
    · rw [cleaned] at found
      cases found
      rw [maintain_willClose ((maintain_requests before.channel).symm.trans empty)] at unmarked
      cases unmarked

/-! ### Every run -/

section

variable [CPython]

theorem Timed.preserved (timeout : 0 ≤ adj.channelTimeout) :
    Preserved adj now Quiet (Timed adj now) where
  frame _ _ _ timed := ⟨timed.activity, timed.cleanup, timed.idle⟩
  act := by
    intro process final id action woken timed acted
    obtain ⟨before, after, leaves⟩ := act_leaves acted
    refine timed.of_same timeout leaves.cleanup fun other another found => ?_
    by_cases same : other = id
    · rw [same, leaves.connection_self] at found
      cases found
      have earlier := timed.activity id before leaves.found
      refine .inr ⟨leaves.lastStep, ?_⟩
      rcases leaves.lastActivity with touched | kept
      · exact Int.le_of_eq touched
      · omega
    · exact .inl ((leaves.connection_of_ne same).symm.trans found)
  cleanUp i quiet timed := timed.cleanUp quiet i
  server := by
    intro process i inConnectionOverflow trigger timed _
    refine timed.of_same timeout (fun j => ?_) fun _ _ found => .inl found
    by_cases same : j = i
    · rw [same, setServer_server_self]
    · rw [setServer_server_of_ne _ _ same]
  closeServer := by
    intro process i timed
    refine timed.of_same timeout (fun j => ?_) fun _ _ found => .inl found
    unfold Process.closeServer
    by_cases same : j = i
    · rw [same, setServer_server_self]
    · rw [setServer_server_of_ne _ _ same]
  addChannel := by
    intro process i listening fileno sendbufLen socket timed _ _
    refine timed.of_same timeout (fun j => by rw [addChannel_server]) fun id another found => ?_
    by_cases same : id = process.nextId
    · rw [same, addChannel_connection_self] at found
      cases found
      exact .inr ⟨rfl, Int.le_refl _⟩
    · exact .inl ((addChannel_connection_of_ne _ same _ _ _ _).symm.trans found)

/-- The clock does not go back. -/
def Onward (step : Int × Action) (process : Process) : Prop := process.clock ≤ step.1

instance (step : Int × Action) (process : Process) : Decidable (Onward step process) :=
  inferInstanceAs (Decidable (_ ≤ _))

structure Maintained (adj : ServerAdjustments) (now : Int) (i : Nat) (process after : Process) :
    Prop where
  /-- A channel is only marked if it has no requests and was silent for long. -/
  onlyIdle : ∀ id before connection, process.connection id = some before →
    after.connection id = some connection → before.channel.output.willClose = false →
      connection.channel.output.willClose = true →
        before.channel.requests = [] ∧ before.lastActivity < now - adj.channelTimeout
  /-- If it was idle for even longer, it is marked. -/
  allIdle : ∀ id connection, after.connection id = some connection → connection.server = i →
    connection.fileno ≠ none → connection.channel.requests = [] →
      connection.lastStep + adj.channelTimeout + adj.cleanupInterval < now →
        connection.channel.output.willClose = true

omit [CPython] in
theorem le_nextChannelCleanup (interval : 0 ≤ adj.cleanupInterval) (i : Nat) :
    now ≤ ((process.cleanUp adj i now).server i).nextChannelCleanup := by
  by_cases early : now < (process.server i).nextChannelCleanup
  · rw [cleanUp_of_lt early]
    exact Int.le_of_lt early
  · rw [cleanUp_server_of_le (Int.not_lt.mp early), if_pos rfl]
    omega

theorem Timed.maintained {after : Process} {i fileno : Nat} {items : List (Nat × Registered)}
    {r w e : List Nat} (interval : 0 ≤ adj.cleanupInterval) (timed : process.Timed adj now)
    (connected : process.Connected)
    (at_ : process.loop = .gathering ((fileno, .server i) :: items) none r w e)
    (taken : process.perform adj now .testReadable = some after) :
    Maintained adj now i process after := by
  have same : after.connection = (process.cleanUp adj i now).connection := by
    cases perform_steps adj taken with
    | testReadable at_Item tested =>
        rw [at_] at at_Item
        cases at_Item
        cases testReadable_tests tested with
        | server cleaned =>
            rw [← cleaned]
            rfl
        | other notServer => exact absurd rfl (notServer i)
    | handled at_Handler =>
        rw [at_] at at_Handler
        cases at_Handler
  refine ⟨fun id before connection was found unmarked marked => ?_,
    fun id connection found isServer registered empty idle => ?_⟩
  · rw [same] at found
    rcases @cleanUp_connection adj now i id process with kept | ⟨other, wasToo, -, silent, cleaned⟩
    · rw [kept, was] at found
      cases found
      cases unmarked.symm.trans marked
    · rw [was] at wasToo
      cases wasToo
      rw [cleaned] at found
      cases found
      refine ⟨?_, silent⟩
      by_contra busy
      rw [HTTPChannel.maintain, if_neg busy] at marked
      cases unmarked.symm.trans marked
  · by_contra notMarked
    rw [same] at found
    have cleanedUp := timed.cleanUp (connected.quiet _ _ _ _ _ at_) i
    have late := @le_nextChannelCleanup adj now process interval i
    have soon := cleanedUp.idle id connection found registered empty
      (Bool.eq_false_iff.mpr notMarked)
    rw [isServer] at soon
    omega

omit [CPython] in
theorem Timed.created (interval : 0 ≤ adj.cleanupInterval) (threads : Nat)
    (filenos : List (Nat × Nat)) : (createServer threads filenos).Timed adj 0 where
  activity id connection found := by
    rw [createServer_connection] at found
    cases found
  cleanup i := by
    have start := @createServer_server (fun server => server.nextChannelCleanup = 0) rfl
      (fun _ _ => rfl) threads filenos i
    omega
  idle id connection found := by
    rw [createServer_connection] at found
    cases found

/-- Whatever the order of the steps, idle channels are found in time, and no others. -/
theorem run_maintained {threads : Nat} {filenos : List (Nat × Nat)}
    {steps : List (Int × Action)} (distinct : (allFilenos filenos).Nodup)
    (interval : 0 ≤ adj.cleanupInterval) (timeout : 0 ≤ adj.channelTimeout)
    (onward : Transition.Along (next adj) Onward steps (createServer threads filenos))
    (ran : Transition.run (next adj) steps (createServer threads filenos) = some process)
    {i fileno : Nat} {items : List (Nat × Registered)} {r w e : List Nat} {after : Process}
    (at_ : process.loop = .gathering ((fileno, .server i) :: items) none r w e)
    (later : process.clock ≤ now) (taken : process.next adj (now, .testReadable) = some after) :
    Maintained adj now i process after := by
  obtain ⟨timed, connected⟩ : process.Timed adj process.clock ∧ process.Connected := by
    apply Transition.run_invariant_along ?_ ?_ onward ran
    · rintro step before final ⟨timed, connected⟩ met stepped
      refine ⟨?_, connected.next stepped⟩
      obtain ⟨middle, performed, rfl⟩ := Option.map_eq_some_iff.mp stepped
      have kept := (Timed.preserved timeout).perform (timed.later met) connected.quiet performed
      exact ⟨kept.activity, kept.cleanup, kept.idle⟩
    · obtain ⟨map, server, created⟩ := addServers_eq filenos 0
        { pool := ThreadedTaskDispatcher.setThreadCount threads {} }
      have start : (createServer threads filenos).clock = 0 := by
        rw [createServer, created]
      rw [start]
      exact ⟨.created interval threads filenos, .created threads distinct⟩
  obtain ⟨middle, performed, rfl⟩ := Option.map_eq_some_iff.mp taken
  have maintained := (timed.later later).maintained interval connected at_ performed
  exact ⟨maintained.onlyIdle, maintained.allIdle⟩

/-- A connection is accepted, and nothing happens until its server is asked again. -/
def acceptOne : List (Int × Action) :=
  [(1, .poll), (1, .testReadable), (1, .testWritable), (1, .testReadable), (1, .testWritable),
    (2, .select [4] [] []), (2, .handleRead (.accepted 5 65536 []) none), (2, .poll),
    (200, .testReadable), (200, .testWritable)]

omit [CPython] in
theorem run_maintained_sample :
    let _ : CPython := .unchecked
    ∃ process after, Transition.run (next {}) acceptOne (createServer 1 [(3, 4)]) = some process ∧
      process.next {} (200, .testReadable) = some after ∧
      ((after.connection 0).map fun connection => connection.channel.output.willClose) =
        some true ∧
      Maintained {} 200 0 process after := by
  intro cpython
  have ends : (Transition.run (next {}) acceptOne (createServer 1 [(3, 4)])).map
      (fun process => (process.loop, process.clock,
        (process.next {} (200, .testReadable)).map fun after =>
          (after.connection 0).map fun connection => connection.channel.output.willClose)) =
      some (.gathering [(4, .server 0), (5, .channel 0)] none [3] [] [3], 200,
        some (some true)) := by decide +kernel
  obtain ⟨process, ran, same⟩ := Option.map_eq_some_iff.mp ends
  obtain ⟨at_, same⟩ := Prod.mk.inj same
  obtain ⟨clock, same⟩ := Prod.mk.inj same
  obtain ⟨after, taken, marked⟩ := Option.map_eq_some_iff.mp same
  refine ⟨process, after, ran, taken, marked, ?_⟩
  exact run_maintained (by decide) (by decide) (by decide) (by decide +kernel) ran at_
    (Int.le_of_eq clock) taken

end

end Waitress.Process
