import Waitress.Server.Acting

/-!
# The socket map

The map, the `active_channels` of the servers and the descriptors that the objects
hold say the same: an object is found under its descriptor exactly as long as it is
not closed.
-/

namespace Waitress.Process

/-- The maps and the descriptors agree. -/
structure Registry (process : Process) : Prop where
  distinct : process.map.Distinct
  server : ∀ fileno i,
    process.map.get? fileno = some (.server i) ↔ (process.server i).fileno = some fileno
  trigger : ∀ fileno i,
    process.map.get? fileno = some (.trigger i) ↔ (process.server i).triggerFileno = some fileno
  channel : ∀ fileno id, process.map.get? fileno = some (.channel id) ↔
    ∃ connection, process.connection id = some connection ∧ connection.fileno = some fileno
  activeDistinct : ∀ i, (process.server i).activeChannels.Distinct
  active : ∀ i fileno id, (process.server i).activeChannels.get? fileno = some id ↔
    ∃ connection, process.connection id = some connection ∧ connection.fileno = some fileno ∧
      connection.server = i
  fresh : ∀ id, process.nextId ≤ id → process.connection id = none

/-- What the maps say of a server. -/
def BaseWSGIServer.entry (server : BaseWSGIServer) : Option Nat × Option Nat × Dict Nat Nat :=
  (server.fileno, server.triggerFileno, server.activeChannels)

def Connection.entry (connection : Connection) : Option Nat × Nat :=
  (connection.fileno, connection.server)

structure SameEntries (process after : Process) : Prop where
  map : after.map = process.map
  nextId : after.nextId = process.nextId
  server : ∀ i, BaseWSGIServer.entry (after.server i) = BaseWSGIServer.entry (process.server i)
  connection : ∀ id,
    (after.connection id).map Connection.entry = (process.connection id).map Connection.entry

theorem SameEntries.exists_iff {process after : Process} (same : SameEntries process after)
    {id : Nat} (predicate : Option Nat × Nat → Prop) :
    (∃ connection, after.connection id = some connection ∧
        predicate (Connection.entry connection)) ↔
      ∃ connection, process.connection id = some connection ∧
        predicate (Connection.entry connection) := by
  have entries := same.connection id
  cases found : after.connection id with
  | none =>
      rw [found] at entries
      rw [Option.map_eq_none_iff.mp entries.symm]
  | some connection =>
      rw [found] at entries
      obtain ⟨before, was, equal⟩ := Option.map_eq_some_iff.mp entries.symm
      simp [was, equal]

theorem Registry.of_same {process after : Process} (registry : process.Registry)
    (same : SameEntries process after) : after.Registry where
  distinct := by
    rw [same.map]
    exact registry.distinct
  server fileno i := by
    rw [same.map, registry.server]
    have entry := congrArg Prod.fst (same.server i)
    exact Eq.congr_left entry.symm
  trigger fileno i := by
    rw [same.map, registry.trigger]
    have entry := congrArg (fun entry => entry.2.1) (same.server i)
    exact Eq.congr_left entry.symm
  channel fileno id := by
    rw [same.map, registry.channel]
    exact (same.exists_iff fun entry => entry.1 = some fileno).symm
  activeDistinct i := by
    have entry := congrArg (fun entry => entry.2.2) (same.server i)
    change (after.server i).activeChannels = _ at entry
    rw [entry]
    exact registry.activeDistinct i
  active i fileno id := by
    have entry := congrArg (fun entry => entry.2.2.get? fileno) (same.server i)
    change (after.server i).activeChannels.get? fileno = _ at entry
    rw [entry]
    refine (registry.active i fileno id).trans ?_
    exact (same.exists_iff fun entry => entry.1 = some fileno ∧ entry.2 = i).symm
  fresh id new := by
    have entries := same.connection id
    rw [registry.fresh id (same.nextId ▸ new)] at entries
    exact Option.map_eq_none_iff.mp entries

/-! ### Operations -/

theorem get?_eraseFileno (taken : Option Nat) (map : Dict Nat Registered) (fileno : Nat) :
    (eraseFileno taken map).get? fileno =
      if taken = some fileno then none else map.get? fileno := by
  cases taken with
  | none => rfl
  | some other =>
      rw [eraseFileno, Dict.get?_erase]
      simp only [Option.some_inj]

theorem distinct_eraseFileno {map : Dict Nat Registered} (distinct : map.Distinct)
    (taken : Option Nat) : (eraseFileno taken map).Distinct := by
  cases taken with
  | none => exact distinct
  | some fileno => exact distinct.erase fileno

theorem Registry.channel_inj {process : Process} (registry : process.Registry) {id other : Nat}
    {connection another : Connection} {fileno : Nat} (found : process.connection id = some connection)
    (registered : connection.fileno = some fileno)
    (foundToo : process.connection other = some another)
    (registeredToo : another.fileno = some fileno) : id = other := by
  have first := (registry.channel fileno id).mpr ⟨connection, found, registered⟩
  have second := (registry.channel fileno other).mpr ⟨another, foundToo, registeredToo⟩
  exact Registered.channel.inj (Option.some.inj (first.symm.trans second))

theorem Registry.closeServer {process : Process} (registry : process.Registry) (i : Nat) :
    (process.closeServer i).Registry := by
  have others : ∀ {j}, j ≠ i → (process.closeServer i).server j = process.server j :=
    fun different => Function.update_of_ne different _ _
  have self : (process.closeServer i).server i =
      { process.server i with
        fileno := none, accepting := false, triggerFileno := none,
        trigger := (process.server i).trigger.close } := Function.update_self _ _ _
  have found : ∀ fileno, (process.closeServer i).map.get? fileno =
      if (process.server i).fileno = some fileno then none
      else if (process.server i).triggerFileno = some fileno then none
      else process.map.get? fileno := by
    intro fileno
    change (eraseFileno _ (eraseFileno _ process.map)).get? fileno = _
    rw [get?_eraseFileno, get?_eraseFileno]
  refine ⟨?_, fun fileno j => ?_, fun fileno j => ?_, fun fileno id => ?_, fun j => ?_,
    fun j fileno id => ?_, registry.fresh⟩
  · exact distinct_eraseFileno (distinct_eraseFileno registry.distinct _) _
  · have isServer := registry.server fileno i
    have isTrigger := registry.trigger fileno i
    have isOther := registry.server fileno j
    rw [found]
    by_cases same : j = i
    · rw [same, self]
      grind
    · rw [others same]
      grind
  · have isServer := registry.server fileno i
    have isTrigger := registry.trigger fileno i
    have isOther := registry.trigger fileno j
    rw [found]
    by_cases same : j = i
    · rw [same, self]
      grind
    · rw [others same]
      grind
  · have isServer := registry.server fileno i
    have isTrigger := registry.trigger fileno i
    rw [found]
    refine Iff.trans ?_ (registry.channel fileno id)
    grind
  · by_cases same : j = i
    · rw [same, self]
      exact registry.activeDistinct i
    · rw [others same]
      exact registry.activeDistinct j
  · by_cases same : j = i
    · rw [same, self]
      exact registry.active i fileno id
    · rw [others same]
      exact registry.active j fileno id

theorem Registry.delChannel {process : Process} (registry : process.Registry) {id taken : Nat}
    {connection : Connection} (found : process.connection id = some connection)
    (registered : connection.fileno = some taken) :
    (process.delChannel id taken connection).Registry := by
  have isChannel := (registry.channel taken id).mpr ⟨connection, found, registered⟩
  have connections : ∀ other, (process.delChannel id taken connection).connection other =
      if other = id then some { connection with fileno := none } else process.connection other := by
    intro other
    split
    · rename_i same
      rw [same, delChannel_connection_self]
    · rename_i different
      rw [delChannel_connection_of_ne _ _ different]
  have map : ∀ fileno, (process.delChannel id taken connection).map.get? fileno =
      if taken = fileno then none else process.map.get? fileno :=
    fun fileno => Dict.get?_erase process.map taken fileno
  refine ⟨registry.distinct.erase taken, fun fileno i => ?_, fun fileno i => ?_,
    fun fileno other => ?_, fun i => ?_, fun i fileno other => ?_, fun other new => ?_⟩
  · have isServer := registry.server fileno i
    rw [map, delChannel_server]
    grind
  · have isTrigger := registry.trigger fileno i
    rw [map, delChannel_server]
    grind
  · have before := registry.channel fileno other
    rw [map, connections]
    by_cases same : other = id
    · rw [if_pos same]
      grind
    · rw [if_neg same, ← before]
      grind
  · rw [delChannel_server]
    dsimp only
    split
    · exact (registry.activeDistinct i).erase taken
    · exact registry.activeDistinct i
  · have before := registry.active i fileno other
    have alone : ∀ another, process.connection other = some another →
        another.fileno = some taken → other = id :=
      fun another known held => registry.channel_inj known held found registered
    rw [delChannel_server, connections]
    by_cases same : other = id
    · rw [if_pos same]
      grind [Dict.get?_erase]
    · rw [if_neg same]
      grind [Dict.get?_erase]
  · rw [connections]
    have unknown := registry.fresh other new
    grind

theorem Registry.addChannel {process : Process} (registry : process.Registry) (i : Nat)
    {fileno : Nat} (free : process.map.get? fileno = none) (context : ChannelContext)
    (socket : List SendResult) (now : Int) :
    (process.addChannel i fileno context socket now).Registry := by
  have unknown := registry.fresh process.nextId (Nat.le_refl _)
  have connections : ∀ id, (process.addChannel i fileno context socket now).connection id =
      if id = process.nextId then some (.new i fileno context socket now)
      else process.connection id := by
    intro id
    split
    · rename_i same
      rw [same, addChannel_connection_self]
    · rename_i different
      rw [addChannel_connection_of_ne _ different]
  have map : ∀ other, (process.addChannel i fileno context socket now).map.get? other =
      if fileno = other then some (.channel process.nextId) else process.map.get? other :=
    fun other => Dict.get?_set process.map fileno other _
  refine ⟨registry.distinct.set fileno _, fun other j => ?_, fun other j => ?_,
    fun other id => ?_, fun j => ?_, fun j other id => ?_, fun id new => ?_⟩
  · have isServer := registry.server other j
    rw [map, addChannel_server]
    grind
  · have isTrigger := registry.trigger other j
    rw [map, addChannel_server]
    grind
  · have before := registry.channel other id
    rw [map, connections]
    grind [Connection.new]
  · rw [addChannel_server]
    dsimp only
    split
    · exact (registry.activeDistinct j).set fileno _
    · exact registry.activeDistinct j
  · have before := registry.active j other id
    have isChannel := registry.channel other id
    rw [addChannel_server, connections]
    grind [Dict.get?_set, Connection.new]
  · rw [connections]
    have before := registry.fresh id (Nat.le_of_succ_le new)
    change process.nextId + 1 ≤ id at new
    grind

/-! ### Steps -/

section

variable [CPython]

theorem Registry.placed {process : Process} (registry : process.Registry) {id : Nat}
    {action : HTTPChannel.Action} {now : Int} {woken : Option Nat} {before after : Connection}
    {trigger : Trigger Empty} {pool : ThreadedTaskDispatcher Nat}
    (acts : ActsOn id action now woken process before after trigger pool) :
    (process.placed id after trigger pool).Registry := by
  apply registry.of_same
  refine ⟨rfl, rfl, fun i => ?_, fun other => ?_⟩
  · rw [placed_server]
    rfl
  · by_cases same : other = id
    · rw [same, placed_connection_self, acts.found, Option.map_some, Option.map_some,
        Connection.entry, Connection.entry, acts.fileno, acts.server]
    · rw [placed_connection_of_ne _ _ _ _ same]

theorem Registry.act {process after : Process} (registry : process.Registry) {id : Nat}
    {action : HTTPChannel.Action} {now : Int} {woken : Option Nat}
    (taken : process.act id action now woken = some after) : after.Registry := by
  cases act_cases taken with
  | stays acts => exact registry.placed acts
  | closes acts registered =>
      exact (registry.placed acts).delChannel (placed_connection_self _ _ _ _ _) registered

variable (adj : ServerAdjustments)

omit [CPython] in
theorem cleanUp_entries (i : Nat) (now : Int) (process : Process) :
    SameEntries process (process.cleanUp adj i now) := by
  have connections : ∀ id, ((process.cleanUp adj i now).connection id).map Connection.entry =
      (process.connection id).map Connection.entry := by
    intro id
    rcases @cleanUp_connection adj now i id process with same | ⟨before, found, -, -, cleaned⟩
    · rw [same]
    · rw [found, cleaned]
      rfl
  have servers : ∀ j, BaseWSGIServer.entry ((process.cleanUp adj i now).server j) =
      BaseWSGIServer.entry (process.server j) := by
    intro j
    unfold cleanUp
    dsimp only
    split
    · change BaseWSGIServer.entry ((process.setServer i _).server j) = _
      by_cases same : j = i
      · rw [same, setServer_server_self]
        rfl
      · rw [setServer_server_of_ne _ _ same]
    · rfl
  have rest : (process.cleanUp adj i now).map = process.map ∧
      (process.cleanUp adj i now).nextId = process.nextId := by
    unfold cleanUp
    dsimp only
    split
    · exact ⟨rfl, rfl⟩
    · exact ⟨rfl, rfl⟩
  exact ⟨rest.1, rest.2, servers, connections⟩

theorem Registry.preserved (now : Int) : Preserved adj now (fun _ => True) Registry where
  frame _ _ _ registry := registry.of_same ⟨rfl, rfl, fun _ => rfl, fun _ => rfl⟩
  act registry taken := registry.act taken
  cleanUp i _ registry := registry.of_same (cleanUp_entries adj i now _)
  server := by
    intro process i inConnectionOverflow trigger registry _
    refine registry.of_same ⟨rfl, rfl, fun j => ?_, fun _ => rfl⟩
    by_cases same : j = i
    · rw [same, setServer_server_self]
      rfl
    · rw [setServer_server_of_ne _ _ same]
  closeServer i registry := registry.closeServer i
  addChannel sendbufLen socket registry _ free := registry.addChannel _ free _ socket now

theorem Registry.perform {process after : Process} (registry : process.Registry) {now : Int}
    {action : Action} (taken : process.perform adj now action = some after) : after.Registry :=
  (Registry.preserved adj now).perform registry (fun _ _ _ _ _ _ => trivial) taken

end

/-! ### Creation -/

def allFilenos (filenos : List (Nat × Nat)) : List Nat :=
  filenos.flatMap fun pair => [pair.1, pair.2]

structure Created (i : Nat) (process : Process) : Prop where
  registry : process.Registry
  server : ∀ j, i ≤ j → process.server j = {}

theorem get?_addServer (i triggerFileno fileno other : Nat) (process : Process) :
    (process.addServer i triggerFileno fileno).map.get? other =
      if fileno = other then some (.server i)
      else if triggerFileno = other then some (.trigger i) else process.map.get? other := by
  change ((process.map.set triggerFileno _).set fileno _).get? other = _
  rw [Dict.get?_set, Dict.get?_set]

theorem Created.addServer {i : Nat} {process : Process} (created : Created i process)
    {triggerFileno fileno : Nat} (different : triggerFileno ≠ fileno)
    (triggerFree : process.map.get? triggerFileno = none)
    (free : process.map.get? fileno = none) :
    Created (i + 1) (process.addServer i triggerFileno fileno) := by
  have registry := created.registry
  have blank := created.server i (Nat.le_refl i)
  have servers : ∀ j, (process.addServer i triggerFileno fileno).server j =
      if j = i then { fileno := some fileno, triggerFileno := some triggerFileno }
      else process.server j := by
    intro j
    split
    · rename_i same
      rw [same]
      exact Function.update_self _ _ _
    · rename_i different
      exact Function.update_of_ne different _ _
  have map := fun other => get?_addServer i triggerFileno fileno other process
  refine ⟨⟨(registry.distinct.set _ _).set _ _, fun other j => ?_, fun other j => ?_,
    fun other id => ?_, fun j => ?_, fun j other id => ?_, registry.fresh⟩, fun j later => ?_⟩
  · have before := registry.server other j
    rw [map, servers]
    grind
  · have before := registry.trigger other j
    rw [map, servers]
    grind
  · have before := registry.channel other id
    rw [map]
    change _ ↔ ∃ connection, process.connection id = some connection ∧ _
    grind
  · rw [servers]
    split
    · exact Dict.distinct_empty
    · exact registry.activeDistinct j
  · have before := registry.active j other id
    rw [servers]
    change _ ↔ ∃ connection, process.connection id = some connection ∧ _
    split
    · rename_i same
      rw [same, blank] at before
      exact same ▸ before
    · exact before
  · rw [servers, if_neg (Nat.ne_of_gt later)]
    exact created.server j (Nat.le_of_succ_le later)

theorem Created.addServers {filenos : List (Nat × Nat)} {i : Nat} {process : Process}
    (created : Created i process) (distinct : (allFilenos filenos).Nodup)
    (free : ∀ fileno ∈ allFilenos filenos, process.map.get? fileno = none) :
    (addServers i filenos process).Registry := by
  induction filenos generalizing i process with
  | nil => exact created.registry
  | cons pair rest inductionHypothesis =>
      obtain ⟨triggerFileno, fileno⟩ := pair
      change ([triggerFileno, fileno] ++ allFilenos rest).Nodup at distinct
      change ∀ other ∈ [triggerFileno, fileno] ++ allFilenos rest, _ at free
      obtain ⟨pair, others, apart⟩ := List.nodup_append.mp distinct
      have different : triggerFileno ≠ fileno := by
        rintro rfl
        simp at pair
      have added := created.addServer different
        (free triggerFileno (by simp)) (free fileno (by simp))
      refine inductionHypothesis added others fun other mem => ?_
      have unused := free other (List.mem_append_right _ mem)
      have notTrigger := apart triggerFileno (by simp) other mem
      have notFileno := apart fileno (by simp) other mem
      rw [get?_addServer, if_neg notFileno, if_neg notTrigger, unused]

theorem addServers_eq (filenos : List (Nat × Nat)) (i : Nat) (process : Process) :
    ∃ map server, addServers i filenos process = { process with map, server } := by
  induction filenos generalizing i process with
  | nil => exact ⟨_, _, rfl⟩
  | cons pair rest inductionHypothesis =>
      obtain ⟨map, server, added⟩ :=
        inductionHypothesis (i + 1) (process.addServer i pair.1 pair.2)
      exact ⟨map, server, added⟩

/-- What holds of every server at its creation. -/
theorem createServer_server {holds : BaseWSGIServer → Prop} (absent : holds {})
    (new : ∀ fileno triggerFileno,
      holds { fileno := some fileno, triggerFileno := some triggerFileno })
    (threads : Nat) (filenos : List (Nat × Nat)) (j : Nat) :
    holds ((createServer threads filenos).server j) := by
  suffices added : ∀ (i : Nat) (process : Process), (∀ j, holds (process.server j)) →
      holds ((addServers i filenos process).server j) from added 0 _ fun _ => absent
  induction filenos with
  | nil => exact fun _ _ old => old j
  | cons pair rest inductionHypothesis =>
      intro i process old
      refine inductionHypothesis (i + 1) _ fun k => ?_
      by_cases same : k = i
      · rw [same, addServer, setServer_server_self]
        exact new _ _
      · rw [addServer, setServer_server_of_ne _ _ same]
        exact old k

theorem createServer_connection (threads : Nat) (filenos : List (Nat × Nat)) (id : Nat) :
    (createServer threads filenos).connection id = none := by
  obtain ⟨map, server, created⟩ := addServers_eq filenos 0
    { pool := ThreadedTaskDispatcher.setThreadCount threads {} }
  rw [createServer, created]

theorem Registry.created (threads : Nat) {filenos : List (Nat × Nat)}
    (distinct : (allFilenos filenos).Nodup) : (createServer threads filenos).Registry := by
  refine Created.addServers ⟨⟨Dict.distinct_empty, ?_, ?_, ?_, fun _ => Dict.distinct_empty, ?_,
    fun _ _ => rfl⟩, fun _ _ => rfl⟩ distinct fun _ _ => rfl
  · exact fun _ _ => ⟨nofun, nofun⟩
  · exact fun _ _ => ⟨nofun, nofun⟩
  · exact fun _ _ => ⟨nofun, by rintro ⟨_, ⟨⟩, -⟩⟩
  · exact fun _ _ _ => ⟨nofun, by rintro ⟨_, ⟨⟩, -⟩⟩

end Waitress.Process
