import Waitress.Server.Handlers

/-!
# The channels of the process

Whatever the process does with a connection is a run of its channel alone, so that
what holds in every run of a channel holds of every connection.
-/

namespace Waitress.Process

section

variable [CPython] (adj : ServerAdjustments)

/-- The channel has come about by steps of its own. -/
structure Traced (connection : Connection) : Prop where
  adj : connection.context.adj = adj.toAdjustments
  reaches : ∃ socket, Transition.Reaches (HTTPChannel.next connection.context)
    (.new connection.context socket) connection.channel

def Refines (process : Process) : Prop :=
  ∀ id connection, process.connection id = some connection → Traced adj connection

variable {adj}

theorem Traced.step {before after : Connection} (traced : Traced adj before)
    {action : HTTPChannel.Action} (context : after.context = before.context)
    (taken : HTTPChannel.next before.context action before.channel = some after.channel) :
    Traced adj after where
  adj := by
    rw [context]
    exact traced.adj
  reaches := by
    obtain ⟨socket, reaches⟩ := traced.reaches
    rw [context]
    exact ⟨socket, reaches.step _ taken⟩

theorem Refines.preserved (now : Int) : Preserved adj now Quiet (Refines adj) where
  frame _ _ _ refines := refines
  act := by
    intro process final id action woken refines acted
    obtain ⟨before, after, leaves⟩ := act_leaves acted
    intro other connection found
    by_cases same : other = id
    · rw [same, leaves.connection_self] at found
      cases found
      exact (refines id before leaves.found).step leaves.context leaves.taken
    · rw [leaves.connection_of_ne same] at found
      exact refines other connection found
  cleanUp := by
    intro process i quiet refines id connection found
    rcases @cleanUp_connection adj now i id process with same | ⟨before, was, active, -, cleaned⟩
    · exact refines id connection (same.symm.trans found)
    · rw [cleaned] at found
      cases found
      have taken : HTTPChannel.next before.context .maintain before.channel =
          some before.channel.maintain := if_pos (quiet.idle was active).1
      exact (refines id before was).step rfl taken
  server _ _ _ refines _ := refines
  closeServer _ refines := refines
  addChannel := by
    intro process i listening fileno sendbufLen socket refines _ _ id connection found
    by_cases same : id = process.nextId
    · rw [same, addChannel_connection_self] at found
      cases found
      exact ⟨rfl, socket, .refl _ _⟩
    · rw [addChannel_connection_of_ne _ same] at found
      exact refines id connection found

end

end Waitress.Process
