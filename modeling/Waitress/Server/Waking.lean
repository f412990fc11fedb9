import Waitress.Server.Dispatch

/-!
# No channel is forgotten

What `select` waits for was found before other threads went on.  A call of `service`
that changes what a channel waits for pulls the trigger when it returns, and the
trigger is among what `select` waits for.
-/

namespace Waitress

namespace HTTPChannel

structure Unattended (channel : HTTPChannel) : Prop where
  pendingTasks : channel.pendingTasks = 0
  running : channel.running = []
  leaving : channel.leaving = 0

end HTTPChannel

namespace Process

def Registered.IsChannel : Registered → Prop
  | .channel _ => True
  | _ => False

def ChannelsLast (items : List (Nat × Registered)) : Prop :=
  items.Pairwise fun first second =>
    Registered.IsChannel first.2 → Registered.IsChannel second.2

/-! ### The order of the map -/

/-- A server has its trigger until it is closed, and both were there before its channels. -/
structure Laid (process : Process) : Prop where
  last : ChannelsLast process.map.entries
  trigger : ∀ i, (process.server i).fileno ≠ none → (process.server i).triggerFileno ≠ none
  server : ∀ id connection, process.connection id = some connection →
    (process.server connection.server).triggerFileno ≠ none ∨
      (process.server connection.server).trigger.closed = true

theorem ChannelsLast.eraseFileno {map : Dict Nat Registered} (last : ChannelsLast map.entries)
    (fileno : Option Nat) : ChannelsLast (eraseFileno fileno map).entries := by
  cases fileno with
  | none => exact last
  | some fileno => exact last.filter _

theorem closeServer_server (i j : Nat) (process : Process) :
    (process.closeServer i).server j =
      if j = i then
        { process.server i with
          fileno := none, accepting := false, triggerFileno := none
          trigger := (process.server i).trigger.close }
      else process.server j := by
  unfold Process.closeServer
  split
  · rename_i same
    rw [same, setServer_server_self]
  · rename_i different
    rw [setServer_server_of_ne _ _ different]

section

variable [CPython] {adj : ServerAdjustments} {process final : Process} {now : Int}

theorem Laid.act (laid : process.Laid) {id : Nat} {action : HTTPChannel.Action}
    {woken : Option Nat} (acted : process.act id action now woken = some final) : final.Laid := by
  obtain ⟨before, after, leaves⟩ := act_leaves acted
  refine ⟨List.Pairwise.sublist leaves.entries laid.last, fun i held => ?_,
    fun other connection found => ?_⟩
  · rw [leaves.triggerFileno]
    rw [leaves.listening] at held
    exact laid.trigger i held
  · rw [leaves.triggerFileno, leaves.closed]
    by_cases same : other = id
    · rw [same, leaves.connection_self] at found
      cases found
      rw [leaves.server]
      exact laid.server id before leaves.found
    · rw [leaves.connection_of_ne same] at found
      exact laid.server other connection found

omit [CPython] in
/-- What the order of the map and the triggers are not about. -/
theorem Laid.of_same (laid : process.Laid) (map : final.map = process.map)
    (server : ∀ i, (final.server i).fileno = (process.server i).fileno ∧
      (final.server i).triggerFileno = (process.server i).triggerFileno ∧
      (final.server i).trigger.closed = (process.server i).trigger.closed)
    (connection : ∀ id connection, final.connection id = some connection →
      ∃ before, process.connection id = some before ∧ connection.server = before.server) :
    final.Laid := by
  refine ⟨?_, fun i held => ?_, fun id after found => ?_⟩
  · rw [map]
    exact laid.last
  · rw [(server i).2.1]
    rw [(server i).1] at held
    exact laid.trigger i held
  · obtain ⟨before, was, same⟩ := connection id after found
    rw [same, (server _).2.1, (server _).2.2]
    exact laid.server id before was

omit [CPython] in
theorem cleanUp_server (i j : Nat) : ∃ nextChannelCleanup,
    (process.cleanUp adj i now).server j = { process.server j with nextChannelCleanup } := by
  unfold Process.cleanUp
  dsimp only
  split
  · change ∃ nextChannelCleanup, (process.setServer i _).server j = _
    by_cases same : j = i
    · rw [same, setServer_server_self]
      exact ⟨_, rfl⟩
    · rw [setServer_server_of_ne _ _ same]
      exact ⟨_, rfl⟩
  · exact ⟨_, rfl⟩

omit [CPython] in
theorem Laid.cleanUp (laid : process.Laid) (i : Nat) : (process.cleanUp adj i now).Laid := by
  refine laid.of_same (cleanUp_entries adj i now process).map (fun j => ?_)
    fun id after found => ?_
  · obtain ⟨nextChannelCleanup, cleaned⟩ := @cleanUp_server adj process now i j
    rw [cleaned]
    exact ⟨rfl, rfl, rfl⟩
  · rcases @cleanUp_connection adj now i id process with same | ⟨before, was, -, -, cleaned⟩
    · exact ⟨after, same.symm.trans found, rfl⟩
    · rw [cleaned] at found
      cases found
      exact ⟨before, was, rfl⟩

omit [CPython] in
theorem Laid.closeServer (laid : process.Laid) (i : Nat) : (process.closeServer i).Laid := by
  refine ⟨(laid.last.eraseFileno _).eraseFileno _, fun j held => ?_, fun id connection found => ?_⟩
  · rw [closeServer_server] at held ⊢
    split at held
    · exact absurd rfl held
    · rename_i different
      rw [if_neg different]
      exact laid.trigger j held
  · rw [closeServer_server]
    split
    · exact .inr rfl
    · exact laid.server id connection found

omit [CPython] in
theorem Laid.addChannel (laid : process.Laid) {i fileno : Nat}
    (listening : (process.server i).fileno ≠ none) (free : process.map.get? fileno = none)
    (context : ChannelContext) (socket : List SendResult) :
    (process.addChannel i fileno context socket now).Laid := by
  refine ⟨?_, fun j held => ?_, fun id connection found => ?_⟩
  · change ChannelsLast (process.map.set fileno _).entries
    rw [Dict.entries_set_of_get?_eq_none free]
    refine List.pairwise_append.mpr ⟨laid.last, List.pairwise_singleton _ _, ?_⟩
    intro item mem other isLast _
    rw [List.mem_singleton.mp isLast]
    trivial
  · rw [addChannel_server] at held ⊢
    exact laid.trigger j held
  · rw [addChannel_server]
    by_cases same : id = process.nextId
    · rw [same, addChannel_connection_self] at found
      cases found
      exact .inl (laid.trigger i listening)
    · rw [addChannel_connection_of_ne _ same] at found
      exact laid.server id connection found

theorem Laid.preserved :
    Preserved adj now (fun _ => True) (fun process => process.Registry ∧ process.Laid) where
  frame _ _ _ both := ⟨(Registry.preserved adj now).frame _ _ _ both.1, both.2.1, both.2.2, both.2.3⟩
  act both acted := ⟨both.1.act acted, both.2.act acted⟩
  cleanUp i still both := ⟨(Registry.preserved adj now).cleanUp i still both.1, both.2.cleanUp i⟩
  server := by
    rintro process i inConnectionOverflow trigger ⟨registry, laid⟩ closed
    refine ⟨(Registry.preserved adj now).server i _ _ registry closed, ?_⟩
    refine laid.of_same rfl (fun j => ?_) fun id connection found => ⟨connection, found, rfl⟩
    by_cases same : j = i
    · rw [same, setServer_server_self]
      exact ⟨rfl, rfl, closed⟩
    · rw [setServer_server_of_ne _ _ same]
      exact ⟨rfl, rfl, rfl⟩
  closeServer i both := ⟨both.1.closeServer i, both.2.closeServer i⟩
  addChannel sendbufLen socket both isServer free := by
    refine ⟨both.1.addChannel _ free _ socket now, both.2.addChannel ?_ free _ socket⟩
    rw [(both.1.server _ _).mp isServer]
    exact Option.some_ne_none _

omit [CPython] in
theorem Laid.created (threads : Nat) {filenos : List (Nat × Nat)}
    (registry : (createServer threads filenos).Registry) :
    (createServer threads filenos).Laid := by
  refine ⟨?_, ?_, fun id connection found => ?_⟩
  · apply List.pairwise_of_forall_mem_list
    rintro ⟨fileno, registered⟩ mem other - isChannel
    cases registered with
    | channel id =>
        have found := (Dict.mem_entries_iff registry.distinct).mp mem
        obtain ⟨connection, known, -⟩ := (registry.channel fileno id).mp found
        rw [createServer_connection] at known
        cases known
    | server | trigger => cases isChannel
  · refine @createServer_server
      (fun server => server.fileno ≠ none → server.triggerFileno ≠ none) ?_ ?_ threads filenos
    · exact fun absent => absurd rfl absent
    · exact fun _ _ _ => Option.some_ne_none _
  · rw [createServer_connection] at found
    cases found

/-! ### The loop over the items -/

/-- `select` is going to return at once, unless the server was closed. -/
def Woken (server : BaseWSGIServer) : Prop :=
  0 < server.trigger.pipe ∨ server.trigger.closed = true

def unasked (items : List (Nat × Registered)) (isReadable : Option Bool) :
    List (Nat × Registered) :=
  if isReadable = none then items else items.tail

def readers (items : List (Nat × Registered)) (isReadable : Option Bool) (r : List Nat) :
    List Nat :=
  match isReadable, items with
  | some isReadable, item :: _ => appendIf isReadable item.1 r
  | _, _ => r

omit [CPython] in
theorem unasked_nil (isReadable : Option Bool) : unasked [] isReadable = [] := ite_self _

omit [CPython] in
theorem readers_nil (isReadable : Option Bool) (r : List Nat) : readers [] isReadable r = r := by
  cases isReadable with
  | none => rfl
  | some isReadable => rfl

structure Gathered (items : List (Nat × Registered)) (isReadable : Option Bool) (r w : List Nat)
    (process : Process) : Prop where
  last : ChannelsLast items
  distinct : (items.map Prod.fst).Nodup
  objects : ∀ fileno registered other, (fileno, registered) ∈ items →
    process.map.get? fileno = some other → other = registered
  /-- No server is asked behind a channel. -/
  passed : ∀ fileno id, process.map.get? fileno = some (.channel id) →
    fileno ∉ items.map Prod.fst → ∀ item ∈ items, Registered.IsChannel item.2
  triggers : ∀ fileno i, process.map.get? fileno = some (.trigger i) →
    fileno ∉ (unasked items isReadable).map Prod.fst → fileno ∈ readers items isReadable r
  readable : ∀ fileno id connection, process.map.get? fileno = some (.channel id) →
    process.connection id = some connection → connection.channel.Unattended →
      fileno ∉ (unasked items isReadable).map Prod.fst →
      connection.channel.readable connection.context = true →
        Woken (process.server connection.server) ∨ fileno ∈ readers items isReadable r
  writable : ∀ fileno id connection, process.map.get? fileno = some (.channel id) →
    process.connection id = some connection → connection.channel.Unattended →
      fileno ∉ items.map Prod.fst → connection.channel.writable = true →
        Woken (process.server connection.server) ∨ fileno ∈ w

omit [CPython] in
theorem Gathered.polled (registry : process.Registry) (laid : process.Laid) :
    process.Gathered process.map.entries none [] [] := by
  have listed : ∀ {fileno registered}, process.map.get? fileno = some registered →
      fileno ∈ process.map.entries.map Prod.fst :=
    fun found => List.mem_map.mpr ⟨_, (Dict.mem_entries_iff registry.distinct).mpr found, rfl⟩
  exact
    { last := laid.last
      distinct := registry.distinct
      objects := fun fileno registered other mem found =>
        Option.some.inj (found.symm.trans ((Dict.mem_entries_iff registry.distinct).mp mem))
      passed := fun _ _ found absent => absurd (listed found) absent
      triggers := fun _ _ found absent => absurd (listed found) absent
      readable := fun _ _ _ found _ _ absent => absurd (listed found) absent
      writable := fun _ _ _ found _ _ absent => absurd (listed found) absent }

omit [CPython] in
/-- Channels may leave the map, and one that changes wakes the main thread up. -/
theorem Gathered.of_moves {items : List (Nat × Registered)} {isReadable : Option Bool}
    {r w : List Nat} (gathered : process.Gathered items isReadable r w)
    (map : ∀ fileno registered, final.map.get? fileno = some registered →
      process.map.get? fileno = some registered)
    (woken : ∀ i, Woken (process.server i) → Woken (final.server i))
    (connection : ∀ fileno id connection, final.map.get? fileno = some (.channel id) →
      final.connection id = some connection → connection.channel.Unattended →
        process.connection id = some connection ∨ Woken (final.server connection.server)) :
    final.Gathered items isReadable r w where
  last := gathered.last
  distinct := gathered.distinct
  objects fileno registered other mem found :=
    gathered.objects fileno registered other mem (map fileno other found)
  passed fileno id found := gathered.passed fileno id (map fileno _ found)
  triggers fileno i found := gathered.triggers fileno i (map fileno _ found)
  readable fileno id another registered found unattended asked isReadable := by
    rcases connection fileno id another registered found unattended with same | wakes
    · have heard := gathered.readable fileno id another (map fileno _ registered) same unattended
        asked isReadable
      exact heard.imp_left (woken _)
    · exact .inl wakes
  writable fileno id another registered found unattended asked isWritable := by
    rcases connection fileno id another registered found unattended with same | wakes
    · have heard := gathered.writable fileno id another (map fileno _ registered) same unattended
        asked isWritable
      exact heard.imp_left (woken _)
    · exact .inl wakes

omit [CPython] in
theorem Gathered.of_same {items : List (Nat × Registered)} {isReadable : Option Bool}
    {r w : List Nat} (gathered : process.Gathered items isReadable r w)
    (map : final.map = process.map) (server : final.server = process.server)
    (connection : final.connection = process.connection) :
    final.Gathered items isReadable r w := by
  refine gathered.of_moves ?_ ?_ ?_
  · rw [map]
    exact fun _ _ found => found
  · rw [server]
    exact fun _ wakes => wakes
  · rw [connection]
    exact fun _ _ _ _ found _ => .inl found

omit [CPython] in
theorem mem_appendIf_of_mem {condition : Bool} {fileno other : Nat} {filenos : List Nat}
    (mem : other ∈ filenos) : other ∈ appendIf condition fileno filenos := by
  unfold appendIf
  split
  · exact List.mem_append_left _ mem
  · exact mem

omit [CPython] in
theorem mem_appendIf_self {condition : Bool} (isTrue : condition = true) (fileno : Nat)
    (filenos : List Nat) : fileno ∈ appendIf condition fileno filenos := by
  rw [appendIf, if_pos isTrue]
  exact List.mem_append_right _ (List.mem_singleton_self _)

omit [CPython] in
/-- What the triggers and the channels answer. -/
theorem testReadable_answer {registered : Registered} {tested : Bool × Process}
    (notServer : ∀ i, registered ≠ .server i)
    (done : process.testReadable adj now registered = some tested) :
    tested.2 = process ∧ (∀ i, registered = .trigger i → tested.1 = true) ∧
      ∀ id connection, registered = .channel id → process.connection id = some connection →
        tested.1 = connection.channel.readable connection.context := by
  cases registered with
  | server i => exact absurd rfl (notServer i)
  | trigger i =>
      cases done
      refine ⟨rfl, fun _ _ => rfl, fun id connection same => ?_⟩
      cases same
  | channel id =>
      obtain ⟨connection, found, rfl⟩ := Option.map_eq_some_iff.mp done
      refine ⟨rfl, fun i same => ?_, fun other another same foundToo => ?_⟩
      · cases same
      · cases same
        rw [Option.some.inj (found.symm.trans foundToo)]

omit [CPython] in
theorem not_mem_cons_keys {item : Nat × Registered} {items : List (Nat × Registered)}
    {fileno : Nat} (different : fileno ≠ item.1) (absent : fileno ∉ items.map Prod.fst) :
    fileno ∉ (item :: items).map Prod.fst := by
  rw [List.map_cons, List.mem_cons, not_or]
  exact ⟨different, absent⟩

omit [CPython] in
theorem Gathered.testServer {i fileno : Nat} {items : List (Nat × Registered)} {r w : List Nat}
    {tested : Bool × Process}
    (gathered : process.Gathered ((fileno, .server i) :: items) none r w)
    (done : process.testReadable adj now (.server i) = some tested) :
    tested.2.Gathered ((fileno, .server i) :: items) (some tested.1) r w := by
  have nobody : ∀ other id, process.map.get? other = some (.channel id) →
      other ∈ ((fileno, Registered.server i) :: items).map Prod.fst := by
    intro other id found
    by_contra absent
    exact gathered.passed other id found absent _ (List.mem_cons_self ..)
  have first : ∀ other, process.map.get? fileno = some other → other = .server i :=
    fun other found => gathered.objects fileno _ other (List.mem_cons_self ..) found
  have map : tested.2.map = process.map := by
    cases testReadable_tests done with
    | server cleaned =>
        rw [cleaned]
        exact (cleanUp_entries adj i now process).map
    | other notServer => exact absurd rfl (notServer i)
  exact
    { last := gathered.last
      distinct := gathered.distinct
      objects := by
        rw [map]
        exact gathered.objects
      passed := by
        rw [map]
        exact gathered.passed
      triggers := by
        intro other j found absent
        rw [map] at found
        have different : other ≠ fileno := by
          rintro rfl
          cases first _ found
        refine mem_appendIf_of_mem ?_
        exact gathered.triggers other j found (not_mem_cons_keys different absent)
      readable := by
        intro other id connection registered _ _ absent
        rw [map] at registered
        have different : other ≠ fileno := by
          rintro rfl
          cases first _ registered
        exact absurd (nobody other id registered) (not_mem_cons_keys different absent)
      writable := by
        intro other id connection registered _ _ absent
        rw [map] at registered
        exact absurd (nobody other id registered) absent }

omit [CPython] in
theorem Gathered.testReadable {item : Nat × Registered} {items : List (Nat × Registered)}
    {r w : List Nat} {tested : Bool × Process}
    (gathered : process.Gathered (item :: items) none r w)
    (done : process.testReadable adj now item.2 = some tested) :
    tested.2.Gathered (item :: items) (some tested.1) r w := by
  obtain ⟨fileno, registered⟩ := item
  by_cases isServer : ∃ i, registered = .server i
  · obtain ⟨i, rfl⟩ := isServer
    exact gathered.testServer done
  obtain ⟨same, isTrigger, isChannel⟩ :=
    testReadable_answer (fun i equal => isServer ⟨i, equal⟩) done
  have first : ∀ other, process.map.get? fileno = some other → other = registered :=
    fun other found => gathered.objects fileno registered other (List.mem_cons_self ..) found
  rw [same]
  refine ⟨gathered.last, gathered.distinct, gathered.objects, gathered.passed,
    fun other i found absent => ?_, fun other id connection held found unattended absent isReadable => ?_,
    gathered.writable⟩
  · by_cases isFirst : other = fileno
    · rw [isFirst] at found ⊢
      exact mem_appendIf_self (isTrigger i (first _ found).symm) _ _
    · refine mem_appendIf_of_mem ?_
      exact gathered.triggers other i found (not_mem_cons_keys isFirst absent)
  · by_cases isFirst : other = fileno
    · rw [isFirst] at held ⊢
      refine .inr (mem_appendIf_self ?_ _ _)
      exact (isChannel id connection (first _ held).symm found).trans isReadable
    · have heard := gathered.readable other id connection held found unattended
        (not_mem_cons_keys isFirst absent) isReadable
      exact heard.imp_right mem_appendIf_of_mem

omit [CPython] in
theorem Gathered.testWritable {item : Nat × Registered} {items : List (Nat × Registered)}
    {r w : List Nat} {isReadable isWritable : Bool}
    (gathered : process.Gathered (item :: items) (some isReadable) r w)
    (done : process.testWritable item.2 = some isWritable) :
    process.Gathered items none (appendIf isReadable item.1 r) (appendIf isWritable item.1 w) := by
  obtain ⟨fileno, registered⟩ := item
  have first : ∀ other, process.map.get? fileno = some other → other = registered :=
    fun other found => gathered.objects fileno registered other (List.mem_cons_self ..) found
  obtain ⟨behind, last⟩ := List.pairwise_cons.mp gathered.last
  refine ⟨last, (List.nodup_cons.mp gathered.distinct).2,
    fun other object another mem => gathered.objects other object another (List.mem_cons_of_mem _ mem),
    fun other id held absent => ?_, gathered.triggers, gathered.readable,
    fun other id connection held found unattended absent writes => ?_⟩
  · by_cases isFirst : other = fileno
    · rw [isFirst] at held
      have isChannel := first _ held
      exact fun item mem => behind item mem (isChannel ▸ trivial)
    · have others := gathered.passed other id held (not_mem_cons_keys isFirst absent)
      exact fun item mem => others item (List.mem_cons_of_mem _ mem)
  · by_cases isFirst : other = fileno
    · rw [isFirst] at held ⊢
      refine .inr (mem_appendIf_self ?_ _ _)
      rw [← first _ held] at done
      obtain ⟨another, foundToo, rfl⟩ := Option.map_eq_some_iff.mp done
      rw [← Option.some.inj (found.symm.trans foundToo)]
      exact writes
    · have heard := gathered.writable other id connection held found unattended
        (not_mem_cons_keys isFirst absent) writes
      exact heard.imp_right mem_appendIf_of_mem

/-! ### The other threads -/

variable {id : Nat} {action : HTTPChannel.Action} {woken : Option Nat}
  {before after : Connection}

theorem Leaves.wakes (leaves : Leaves id action now woken process before after final) {i : Nat}
    (wakes : Woken (process.server i)) : Woken (final.server i) := by
  rcases wakes with byte | closed
  · exact .inl (Nat.lt_of_lt_of_le byte (leaves.pipe i))
  · exact .inr ((leaves.closed i).trans closed)

/-- The step of a channel is heard if it is not the last one, or wakes the main thread up. -/
theorem Gathered.act {items : List (Nat × Registered)} {isReadable : Option Bool}
    {r w : List Nat} (gathered : process.Gathered items isReadable r w)
    (leaves : Leaves id action now woken process before after final)
    (heard : ∀ fileno, process.map.get? fileno = some (.channel id) →
      after.channel.Unattended → Woken (final.server before.server)) :
    final.Gathered items isReadable r w := by
  refine gathered.of_moves leaves.map (fun i => leaves.wakes) fun fileno other connection held found
    unattended => ?_
  by_cases same : other = id
  · rw [same, leaves.connection_self] at found
    cases found
    rw [same] at held
    refine .inr ?_
    rw [leaves.server]
    exact heard fileno (leaves.map fileno _ held) unattended
  · exact .inl ((leaves.connection_of_ne same).symm.trans found)

def escapes (adj : ServerAdjustments) (step : Int × Action) (process : Process) : Bool :=
  match step.2 with
  | .service threadNo _ _ =>
      process.serving threadNo matches some (.calling _) &&
        decide ((process.next adj step).map (fun after => after.serving threadNo) = some none)
  | _ => false

/-- A thread that has taken a step of a call is still in it, or behind its last section. -/
def StaysOn (process final : Process) (action : Action) : Prop :=
  ∀ threadNo id step woken, process.serving threadNo = some (.calling id) →
    action = .service threadNo step woken → final.serving threadNo ≠ none

theorem staysOn_of_unescaped {action : Action}
    (unescaped : process.escapes adj (now, action) = false)
    (performed : process.perform adj now action = some final) :
    process.StaysOn final action := by
  rintro threadNo id step woken calling rfl left
  have ends : (process.next adj (now, .service threadNo step woken)).map
      (fun after => after.serving threadNo) = some none := by
    rw [Process.next, performed]
    exact congrArg some left
  simp [escapes, calling, ends] at unescaped

omit [CPython] in
theorem StaysOn.ne_none {middle : Process} {threadNo : Nat} {step : HTTPChannel.Action}
    {next : Option Serving}
    (stays : process.StaysOn (middle.setServing threadNo next) (.service threadNo step woken))
    (calling : process.serving threadNo = some (.calling id)) : next ≠ none := by
  have still := stays threadNo id step woken calling rfl
  change Function.update middle.serving threadNo next threadNo ≠ none at still
  rw [Function.update_self] at still
  exact still

theorem Gathered.service {items : List (Nat × Registered)} {isReadable : Option Bool}
    {r w : List Nat} {threadNo : Nat} (connected : process.Connected)
    (attached : process.Attached none) (gathered : process.Gathered items isReadable r w)
    (stays : process.StaysOn final (.service threadNo action woken))
    (done : process.service threadNo action now woken = some final) :
    final.Gathered items isReadable r w := by
  cases service_serves done with
  | @calls id middle before after calling isService acted leaves =>
      have inCall := (HTTPChannel.service_serviceStep before.context isService leaves.taken).1
      have on := stays.ne_none calling
      have kept := gathered.act leaves fun fileno held unattended => ?_
      · exact kept.of_same rfl rfl rfl
      · obtain ⟨-, nobody, gone⟩ := unattended
        rw [Serving.go, gone, if_neg (Nat.not_lt_zero _), nobody, List.length_nil, if_pos inCall] at on
        exact absurd rfl on
  | @returns id middle before after returning acted leaves =>
      have kept := gathered.act leaves fun fileno held unattended => ?_
      · exact kept.of_same rfl rfl rfl
      · obtain ⟨another, found, registered⟩ := (connected.registry.channel fileno id).mp held
        obtain rfl := Option.some.inj (leaves.found.symm.trans found)
        have isConnected := (attached.registered id before found).mp
          (by rw [registered]; exact Option.some_ne_none _)
        by_cases closed : (middle.server before.server).trigger.closed = true
        · exact .inr closed
        · exact .inl (leaves.pulled isConnected (Bool.eq_false_iff.mpr closed))

theorem Gathered.handlerThread {items : List (Nat × Registered)} {isReadable : Option Bool}
    {r w : List Nat} {threadNo : Nat} (gathered : process.Gathered items isReadable r w)
    (done : process.handlerThread threadNo now = some final) :
    final.Gathered items isReadable r w := by
  cases handlerThread_takes done with
  | @task id queue pool middle before after free handled first taken acted leaves =>
      have popped := (HTTPChannel.next_pop before.context leaves.taken).2
      have kept := gathered.act leaves fun fileno held unattended => ?_
      · exact kept.of_same rfl rfl rfl
      · have nobody := unattended.running
        rw [popped] at nobody
        exact absurd nobody (List.append_ne_nil_of_right_ne_nil _ (List.cons_ne_nil _ _))
  | other =>
      exact gathered.of_same rfl rfl rfl

/-! ### Every run -/

/-- Nothing was missed so far. -/
structure Awake (adj : ServerAdjustments) (process : Process) : Prop where
  accounted : process.Accounted adj
  laid : process.Laid
  gathered : ∀ items isReadable r w e, process.loop = .gathering items isReadable r w e →
    process.Gathered items isReadable r w

theorem Handled.loop {busy : Option Nat} {r' r w e : List Nat}
    (done : Handled adj now process busy r' r w e final) :
    ∃ busy, final.loop = .handling busy r w e := by
  cases done with
  | channel alone done =>
      obtain ⟨middle, acted, done⟩ := Option.bind_eq_some_iff.mp done
      obtain ⟨connection, found, done⟩ := Option.bind_eq_some_iff.mp done
      cases done
      exact ⟨_, rfl⟩
  | nothing | accepts | closeServer | readTrigger => exact ⟨_, rfl⟩

theorem Awake.gathered_perform (awake : process.Awake adj) {action : Action}
    (stays : process.StaysOn final action)
    (taken : process.perform adj now action = some final) {items : List (Nat × Registered)}
    {isReadable : Option Bool} {r w e : List Nat}
    (at_ : final.loop = .gathering items isReadable r w e) :
    final.Gathered items isReadable r w := by
  obtain ⟨⟨connected, -, -, -⟩, laid, gathered⟩ := awake
  cases perform_steps adj taken with
  | testReadable atItem tested =>
      cases at_
      exact ((gathered _ _ _ _ _ atItem).testReadable tested).of_same rfl rfl rfl
  | testWritable atItem tested =>
      cases at_
      exact ((gathered _ _ _ _ _ atItem).testWritable tested).of_same rfl rfl rfl
  | handled atHandler suffix done =>
      obtain ⟨busy, handling⟩ := done.loop
      cases handling.symm.trans at_
  | poll atEnd =>
      cases at_
      exact (Gathered.polled connected.registry laid).of_same rfl rfl rfl
  | setThreadCount ended => cases ended.symm.trans at_
  | cancelPending ended done => cases ((cancelTasks_loop done).trans ended).symm.trans at_
  | handlerThread done =>
      rw [handlerThread_loop done] at at_
      exact (gathered _ _ _ _ _ at_).handlerThread done
  | service done =>
      have loop := service_loop done
      rw [loop] at at_
      have attached := (connected.quiet _ _ _ _ _ at_).2
      exact (gathered _ _ _ _ _ at_).service connected attached stays done
  | select | selectFails | interrupt => cases at_

theorem Awake.next (awake : process.Awake adj) {step : Int × Action}
    (unescaped : process.escapes adj step = false)
    (taken : process.next adj step = some final) : final.Awake adj := by
  have accounted := awake.accounted.next taken
  obtain ⟨now, action⟩ := step
  obtain ⟨middle, performed, same⟩ := Option.map_eq_some_iff.mp taken
  have stays := staysOn_of_unescaped unescaped performed
  subst same
  refine ⟨accounted, ?_, fun items isReadable r w e at_ => ?_⟩
  · have both := Laid.preserved.perform ⟨awake.accounted.connected.registry, awake.laid⟩
      (fun _ _ _ _ _ _ => trivial) performed
    exact both.2.of_same rfl (fun _ => ⟨rfl, rfl, rfl⟩) fun _ connection found => ⟨connection, found, rfl⟩
  · exact (awake.gathered_perform stays performed at_).of_same rfl rfl rfl

theorem Awake.created (threads : Nat) {filenos : List (Nat × Nat)}
    (distinct : (allFilenos filenos).Nodup) : (createServer threads filenos).Awake adj where
  accounted := .created threads distinct
  laid := .created threads (Registry.created threads distinct)
  gathered items isReadable r w e at_ := by
    obtain ⟨map, server, created⟩ := addServers_eq filenos 0
      { pool := ThreadedTaskDispatcher.setThreadCount threads {} }
    rw [createServer, created] at at_
    cases at_

def Unserved (id : Nat) (process : Process) : Prop :=
  id ∉ process.pool.queue ∧ ∀ threadNo ∈ process.pool.threads,
    process.serving threadNo ≠ some (.calling id) ∧ process.serving threadNo ≠ some (.returning id)

instance (id : Nat) (process : Process) : Decidable (process.Unserved id) :=
  inferInstanceAs (Decidable (_ ∧ _))

omit [CPython] in
theorem Ledger.unattended (ledger : process.Ledger) {connection : Connection}
    (found : process.connection id = some connection) (unserved : process.Unserved id) :
    connection.channel.Unattended := by
  obtain ⟨notQueued, unheld⟩ := unserved
  have tasks := ledger.tasks id
  have calling := ledger.calling id
  have returning := ledger.returning id
  rw [List.count_eq_zero.mpr notQueued, number_eq found] at tasks
  rw [Process.threadsAt, Finset.filter_false_of_mem fun threadNo mem => (unheld threadNo mem).1,
    number_eq found] at calling
  rw [Process.threadsAt, Finset.filter_false_of_mem fun threadNo mem => (unheld threadNo mem).2,
    number_eq found] at returning
  exact ⟨tasks.symm, List.length_eq_zero_iff.mp calling.symm, returning.symm⟩

/-- While the main thread is in `select`, a channel that no other thread is going to touch is
watched for all that it waits for, or `select` returns at once because of the trigger. -/
theorem run_awake {threads : Nat} {filenos : List (Nat × Nat)} {steps : List (Int × Action)}
    (distinct : (allFilenos filenos).Nodup)
    (unescaped : Transition.Along (Process.next adj)
      (fun step process => process.escapes adj step = false) steps (createServer threads filenos))
    (ran : Transition.run (Process.next adj) steps (createServer threads filenos) = some process)
    {isReadable : Option Bool} {r w e : List Nat}
    (at_ : process.loop = .gathering [] isReadable r w e) {id fileno : Nat}
    {connection : Connection} (found : process.connection id = some connection)
    (registered : connection.fileno = some fileno) (unserved : process.Unserved id) :
    ((connection.channel.readable connection.context = true → fileno ∈ r) ∧
        (connection.channel.writable = true → fileno ∈ w)) ∨
      (process.server connection.server).trigger.closed = true ∨
      0 < (process.server connection.server).trigger.pipe ∧
        ∃ triggerFileno ∈ r, process.map.get? triggerFileno = some (.trigger connection.server) := by
  have awake : process.Awake adj :=
    Transition.run_invariant_along (fun _ _ _ awake met taken => Awake.next awake met taken)
      (Awake.created threads distinct) unescaped ran
  obtain ⟨⟨connected, -, ledger, -⟩, laid, gathered⟩ := awake
  have gathered := gathered _ _ _ _ _ at_
  have unattended := ledger.unattended found unserved
  have held := (connected.registry.channel fileno id).mpr ⟨connection, found, registered⟩
  have asked : ∀ other, other ∉ (unasked [] isReadable).map Prod.fst := by
    intro other
    rw [unasked_nil]
    exact List.not_mem_nil
  by_cases wakes : Woken (process.server connection.server)
  · refine .inr ?_
    by_cases closed : (process.server connection.server).trigger.closed = true
    · exact .inl closed
    · obtain ⟨triggerFileno, isTrigger⟩ :=
        Option.ne_none_iff_exists'.mp ((laid.server id connection found).resolve_right closed)
      have there := (connected.registry.trigger triggerFileno connection.server).mpr isTrigger
      have watched := gathered.triggers triggerFileno _ there (asked _)
      rw [readers_nil] at watched
      exact .inr ⟨wakes.resolve_right closed, triggerFileno, watched, there⟩
  · refine .inl ⟨fun reads => ?_, fun writes => ?_⟩
    · have heard := gathered.readable fileno id connection held found unattended (asked _) reads
      rw [readers_nil] at heard
      exact heard.resolve_left wakes
    · have heard := gathered.writable fileno id connection held found unattended
        List.not_mem_nil writes
      exact heard.resolve_left wakes

/-- A request is served while the main thread is in `select`. -/
def serveInSelect (application : Call AppIter) : List (Int × Action) :=
  serveOne.take 17 ++
    [(6, .poll), (6, .testReadable), (6, .testWritable), (6, .testReadable), (6, .testWritable),
      (6, .testReadable), (6, .testWritable), (7, .handlerThread 0),
      (7, .service 0 (.startTask 0) none), (8, .service 0 (.testConnected 0) none),
      (8, .service 0 (.write 0 (.bytes (ascii "HTTP/1.1 200 OK\r\n\r\n"))) none),
      (8, .service 0 (.endTask 0 application Task.sampleContext) none),
      (9, .service 0 (.drain 0) none), (9, .service 0 (.resume 0) none),
      (9, .service 0 .return_ none)]

omit [CPython] in
theorem run_awake_sample :
    let _ : CPython := .unchecked
    ∃ process connection,
      Transition.run (Process.next {}) (serveInSelect (Task.sampleApplication (ascii "abc")))
        (createServer 1 [(3, 4)]) = some process ∧
      process.loop = .gathering [] none [3, 4] [] [3, 4] ∧
      process.connection 0 = some connection ∧ connection.channel.writable = true ∧
      (((connection.channel.readable connection.context = true → 5 ∈ [3, 4]) ∧
          (connection.channel.writable = true → 5 ∈ [])) ∨
        (process.server connection.server).trigger.closed = true ∨
        0 < (process.server connection.server).trigger.pipe ∧ ∃ triggerFileno ∈ [3, 4],
          process.map.get? triggerFileno = some (.trigger connection.server)) := by
  intro cpython
  have ends : (Transition.run (Process.next {}) (serveInSelect (Task.sampleApplication (ascii "abc")))
      (createServer 1 [(3, 4)])).map (fun process =>
        (process.loop, decide (process.Unserved 0), (process.connection 0).map fun connection =>
          (connection.fileno, connection.channel.writable))) =
      some (.gathering [] none [3, 4] [] [3, 4], true, some (some 5, true)) := by decide +kernel
  obtain ⟨process, ran, same⟩ := Option.map_eq_some_iff.mp ends
  obtain ⟨at_, same⟩ := Prod.mk.inj same
  obtain ⟨unserved, same⟩ := Prod.mk.inj same
  obtain ⟨connection, found, same⟩ := Option.map_eq_some_iff.mp same
  obtain ⟨registered, writable⟩ := Prod.mk.inj same
  refine ⟨process, connection, ran, at_, found, writable, ?_⟩
  exact run_awake (by decide) (by decide +kernel) ran at_ found registered
    (of_decide_eq_true unserved)

end

end Process

end Waitress
