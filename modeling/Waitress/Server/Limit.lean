import Mathlib.Data.Finset.Card
import Waitress.Server.Handlers

/-!
# The connection limit

A server looks at the length of the map when it is asked whether it is readable, and
accepts one connection for each time that it was.  In between the other servers may
accept one each, so that the limit is exceeded by less than the number of servers.
-/

namespace Waitress.Process

def awaited (servers : Nat) (r : List Nat) (process : Process) : Finset Nat :=
  (Finset.range servers).filter fun i => ∃ fileno ∈ r, (process.server i).fileno = some fileno

/-- The most objects that the map may have. -/
def mostObjects (adj : ServerAdjustments) (servers : Nat) : Int :=
  max (2 * servers) (adj.connectionLimit - 1 + servers)

section

variable (adj : ServerAdjustments) (servers : Nat)

structure Collected (items : List (Nat × Registered)) (isReadable : Option Bool) (r : List Nat)
    (process : Process) : Prop where
  distinct : (r ++ items.map Prod.fst).Nodup
  objects : ∀ item ∈ items, ∀ i, (process.server i).fileno = some item.1 → item.2 = .server i
  below : ∀ i fileno, fileno ∈ r → (process.server i).fileno = some fileno →
    (process.map.entries.length : Int) < adj.connectionLimit
  tested : isReadable = some true → ∀ item i, items.head? = some item → item.2 = .server i →
    (process.map.entries.length : Int) < adj.connectionLimit

structure Accepting (r : List Nat) (process : Process) : Prop where
  distinct : r.Nodup
  bound : (process.map.entries.length : Int) + (process.awaited servers r).card ≤
    mostObjects adj servers

/-- Where the main thread is, the limit is going to hold. -/
def Heeded (process : Process) : LoopPosition → Prop
  | .gathering items isReadable r _ _ => Collected adj items isReadable r process
  | .handling _ r _ _ => Accepting adj servers r process
  | .ended => True

structure Limited (process : Process) : Prop where
  bound : (process.map.entries.length : Int) ≤ mostObjects adj servers
  known : ∀ i fileno, (process.server i).fileno = some fileno → i < servers
  loop : process.Heeded adj servers process.loop

end

variable {adj : ServerAdjustments} {servers : Nat} {process after : Process}

/-! ### What the operations preserve -/

/-- Objects may leave the map, and servers may be closed. -/
structure Shrinks (process after : Process) : Prop where
  length : after.map.entries.length ≤ process.map.entries.length
  fileno : ∀ i fileno, (after.server i).fileno = some fileno →
    (process.server i).fileno = some fileno

theorem Shrinks.refl (process : Process) : Shrinks process process :=
  ⟨Nat.le_refl _, fun _ _ held => held⟩

theorem Shrinks.trans {final : Process} (first : Shrinks process after)
    (second : Shrinks after final) : Shrinks process final where
  length := Nat.le_trans second.length first.length
  fileno i fileno held := first.fileno i fileno (second.fileno i fileno held)

theorem Shrinks.awaited_card (shrinks : Shrinks process after) (r : List Nat) :
    (after.awaited servers r).card ≤ (process.awaited servers r).card := by
  apply Finset.card_le_card
  intro i mem
  obtain ⟨less, fileno, listed, held⟩ := Finset.mem_filter.mp mem
  exact Finset.mem_filter.mpr ⟨less, fileno, listed, shrinks.fileno i fileno held⟩

theorem Shrinks.accepting (shrinks : Shrinks process after) {r : List Nat}
    (accepting : process.Accepting adj servers r) : after.Accepting adj servers r where
  distinct := accepting.distinct
  bound := by
    have length := shrinks.length
    have card := @Shrinks.awaited_card servers _ _ shrinks r
    have bound := accepting.bound
    omega

theorem Shrinks.heeded (shrinks : Shrinks process after) {loop : LoopPosition}
    (heeded : process.Heeded adj servers loop) : after.Heeded adj servers loop := by
  have length := shrinks.length
  cases loop with
  | gathering items isReadable r w e =>
      refine ⟨heeded.distinct, fun item mem i held => ?_, fun i fileno listed held => ?_,
        fun isReadable item i first isServer => ?_⟩
      · exact heeded.objects item mem i (shrinks.fileno i _ held)
      · have below := heeded.below i fileno listed (shrinks.fileno i fileno held)
        omega
      · have below := heeded.tested isReadable item i first isServer
        omega
  | handling busy r w e => exact shrinks.accepting heeded
  | ended => trivial

theorem Limited.shrinks (limited : process.Limited adj servers) (shrinks : Shrinks process after)
    (loop : after.Heeded adj servers after.loop) : after.Limited adj servers where
  bound := by
    have length := shrinks.length
    have bound := limited.bound
    omega
  known i fileno held := limited.known i fileno (shrinks.fileno i fileno held)
  loop := loop

theorem length_eraseFileno_le (fileno : Option Nat) (map : Dict Nat Registered) :
    (eraseFileno fileno map).entries.length ≤ map.entries.length := by
  cases fileno with
  | none => exact Nat.le_refl _
  | some fileno => exact Dict.length_erase_le map fileno

theorem closeServer_shrinks (i : Nat) (process : Process) :
    Shrinks process (process.closeServer i) where
  length := Nat.le_trans (length_eraseFileno_le _ _) (length_eraseFileno_le _ _)
  fileno j fileno held := by
    by_cases same : j = i
    · rw [same, Process.closeServer, setServer_server_self] at held
      cases held
    · rw [Process.closeServer, setServer_server_of_ne _ _ same] at held
      exact held

theorem setServer_shrinks {i : Nat} {server : BaseWSGIServer}
    (fileno : server.fileno = (process.server i).fileno) :
    Shrinks process (process.setServer i server) where
  length := Nat.le_refl _
  fileno j other held := by
    by_cases same : j = i
    · rw [same, setServer_server_self, fileno] at held
      rw [same]
      exact held
    · rw [setServer_server_of_ne _ _ same] at held
      exact held

theorem cleanUp_shrinks (i : Nat) (now : Int) (process : Process) :
    Shrinks process (process.cleanUp adj i now) := by
  unfold Process.cleanUp
  dsimp only
  split
  · have kept := @setServer_shrinks process i
      { process.server i with nextChannelCleanup := now + adj.cleanupInterval } rfl
    exact ⟨kept.length, kept.fileno⟩
  · exact .refl process

/-- A server is readable only below the limit. -/
theorem lt_of_readable {size : Nat} {server : BaseWSGIServer}
    (isReadable : (server.readable adj size).1 = true) : (size : Int) < adj.connectionLimit := by
  unfold BaseWSGIServer.readable at isReadable
  split at isReadable
  · split at isReadable
    · cases isReadable
    · rename_i notReached
      split at isReadable
      · rename_i again
        exact again.2
      · refine Int.not_le.mp fun reached => notReached ⟨?_, reached⟩
        exact Bool.eq_false_of_not_eq_true' isReadable
  · cases isReadable

/-! ### The loop over the items -/

theorem testReadable_shrinks {now : Int} {registered : Registered} {tested : Bool × Process}
    (done : process.testReadable adj now registered = some tested) :
    Shrinks process tested.2 := by
  cases testReadable_tests done with
  | @server i inConnectionOverflow cleaned same =>
      have cleanedUp := @cleanUp_shrinks adj i now process
      rw [← same] at cleanedUp
      exact cleanedUp.trans (setServer_shrinks rfl)
  | other => exact .refl process

theorem Collected.testReadable {items : List (Nat × Registered)} {item : Nat × Registered}
    {r : List Nat} {now : Int} {tested : Bool × Process}
    (collected : process.Collected adj (item :: items) none r)
    (done : process.testReadable adj now item.2 = some tested) :
    tested.2.Collected adj (item :: items) (some tested.1) r := by
  have shrinks := testReadable_shrinks done
  have kept := @Shrinks.heeded adj 0 _ _ shrinks (.gathering (item :: items) none r [] []) collected
  refine ⟨kept.distinct, kept.objects, kept.below, fun isReadable other i first isServer => ?_⟩
  obtain rfl := Option.some.inj first
  rw [isServer] at done
  cases testReadable_tests done with
  | server same => exact lt_of_readable (Option.some.inj isReadable)
  | other notServer => exact absurd rfl (notServer i)

theorem Collected.testWritable {items : List (Nat × Registered)} {item : Nat × Registered}
    {r : List Nat} {isReadable : Bool}
    (collected : process.Collected adj (item :: items) (some isReadable) r) :
    process.Collected adj items none (appendIf isReadable item.1 r) where
  distinct := by
    have distinct := collected.distinct
    rw [appendIf]
    split
    · rw [List.append_assoc]
      exact distinct
    · exact distinct.sublist ((List.sublist_cons_self _ _).append_left r)
  objects other mem := collected.objects other (List.mem_cons_of_mem _ mem)
  below i fileno listed held := by
    rw [appendIf] at listed
    split at listed
    · rename_i isReadable
      rcases List.mem_append.mp listed with earlier | last
      · exact collected.below i fileno earlier held
      · rw [List.mem_singleton.mp last] at held
        have isServer := collected.objects item (List.mem_cons_self ..) i held
        exact collected.tested (congrArg some isReadable) item i rfl isServer
    · exact collected.below i fileno listed held
  tested := nofun

theorem Collected.select {isReadable : Option Bool} {r r' : List Nat}
    (limited : process.Limited adj servers) (collected : process.Collected adj [] isReadable r)
    (fewer : r'.Sublist r) : process.Accepting adj servers r' where
  distinct := ((List.nodup_append.mp collected.distinct).1).sublist fewer
  bound := by
    have most := @Finset.card_filter_le _ (Finset.range servers)
      (fun i => ∃ fileno ∈ r', (process.server i).fileno = some fileno) _
    rw [Finset.card_range] at most
    change (process.awaited servers r').card ≤ servers at most
    by_cases nobody : process.awaited servers r' = ∅
    · rw [nobody]
      exact (Int.add_zero _).trans_le limited.bound
    · obtain ⟨i, mem⟩ := Finset.nonempty_iff_ne_empty.mpr nobody
      obtain ⟨-, fileno, listed, held⟩ := Finset.mem_filter.mp mem
      have below := collected.below i fileno (fewer.subset listed) held
      unfold mostObjects
      omega

theorem Collected.polled (registry : process.Registry) :
    process.Collected adj process.map.entries none [] where
  distinct := registry.distinct
  objects item mem i held := by
    have found := (Dict.mem_entries_iff registry.distinct).mp mem
    have isServer := (registry.server item.1 i).mpr held
    exact Option.some.inj (found.symm.trans isServer)
  below _ _ absent := absurd absent List.not_mem_nil
  tested := nofun

/-! ### The loops behind `select` -/

theorem Accepting.suffix {r r' : List Nat} (accepting : process.Accepting adj servers r')
    (suffix : r <:+ r') : process.Accepting adj servers r where
  distinct := accepting.distinct.sublist suffix.sublist
  bound := by
    have fewer : (process.awaited servers r).card ≤ (process.awaited servers r').card := by
      apply Finset.card_le_card
      intro i mem
      obtain ⟨less, other, listed, held⟩ := Finset.mem_filter.mp mem
      exact Finset.mem_filter.mpr ⟨less, other, suffix.subset listed, held⟩
    have bound := accepting.bound
    omega

/-- The server that accepts is not awaited any more. -/
theorem Accepting.addChannel {fileno : Nat} {r : List Nat}
    (accepting : process.Accepting adj servers (fileno :: r)) {i : Nat} (less : i < servers)
    (held : (process.server i).fileno = some fileno) (accepted : Nat) (context : ChannelContext)
    (socket : List SendResult) (now : Int) :
    (process.addChannel i accepted context socket now).Accepting adj servers r where
  distinct := (List.nodup_cons.mp accepting.distinct).2
  bound := by
    have notAgain := (List.nodup_cons.mp accepting.distinct).1
    have length := Dict.length_set_le process.map accepted (.channel process.nextId)
    have listening : ∀ j, ((process.addChannel i accepted context socket now).server j).fileno =
        (process.server j).fileno := fun j => by rw [addChannel_server]
    have fewer : ((process.addChannel i accepted context socket now).awaited servers r).card <
        (process.awaited servers (fileno :: r)).card := by
      apply Finset.card_lt_card
      refine (Finset.ssubset_iff_of_subset fun j mem => ?_).mpr ⟨i, ?_, fun mem => ?_⟩
      · obtain ⟨known, other, listed, holds⟩ := Finset.mem_filter.mp mem
        rw [listening] at holds
        exact Finset.mem_filter.mpr ⟨known, other, List.mem_cons_of_mem _ listed, holds⟩
      · exact Finset.mem_filter.mpr
          ⟨Finset.mem_range.mpr less, _, List.mem_cons_self .., held⟩
      · obtain ⟨-, other, listed, holds⟩ := Finset.mem_filter.mp mem
        rw [listening, held] at holds
        exact notAgain (Option.some.inj holds ▸ listed)
    have bound := accepting.bound
    change ((process.map.set accepted _).entries.length : Int) + _ ≤ _
    omega

/-! ### Steps -/

theorem Limited.turn (limited : process.Limited adj servers) (shrinks : Shrinks process after)
    {loop : LoopPosition} (heeded : process.Heeded adj servers loop) :
    ({ after with loop } : Process).Limited adj servers := by
  have moved : Shrinks process { after with loop } := ⟨shrinks.length, shrinks.fileno⟩
  exact limited.shrinks moved (moved.heeded heeded)

theorem Limited.worker (limited : process.Limited adj servers) (shrinks : Shrinks process after)
    (loop : after.loop = process.loop) : after.Limited adj servers := by
  apply limited.shrinks shrinks
  rw [loop]
  exact shrinks.heeded limited.loop

theorem readTrigger_shrinks (i : Nat) (process : Process) :
    Shrinks process (process.readTrigger i) := by
  unfold Process.readTrigger
  dsimp only
  split
  · exact setServer_shrinks rfl
  · exact .refl process

section

variable [CPython] {id : Nat} {action : HTTPChannel.Action} {now : Int} {woken : Option Nat}

theorem act_shrinks (acted : process.act id action now woken = some after) :
    Shrinks process after := by
  obtain ⟨before, changed, leaves⟩ := act_leaves acted
  exact ⟨leaves.entries.length_le, fun i fileno held => (leaves.listening i).symm.trans held⟩

theorem Limited.handle (limited : process.Limited adj servers) {r w e : List Nat}
    (accepting : process.Accepting adj servers r)
    (done : process.handle id action now woken r w e = some after) :
    after.Limited adj servers := by
  obtain ⟨middle, acted, done⟩ := Option.bind_eq_some_iff.mp done
  obtain ⟨connection, found, done⟩ := Option.bind_eq_some_iff.mp done
  cases done
  exact limited.turn (act_shrinks acted) accepting

theorem Limited.handled (limited : process.Limited adj servers) (registry : process.Registry)
    {busy : Option Nat} {r' r w e : List Nat} (accepting : process.Accepting adj servers r')
    (suffix : r <:+ r') (done : Handled adj now process busy r' r w e after) :
    after.Limited adj servers := by
  have left := accepting.suffix suffix
  cases done with
  | nothing => exact limited.turn (Shrinks.refl process) left
  | @accepts i fileno accepted sendbufLen socket _ first isServer =>
      rw [first] at accepting
      have held := (registry.server fileno i).mp isServer
      have less := limited.known i fileno held
      have added := accepting.addChannel less held accepted
        { adj := adj.toAdjustments, sendbufLen } socket now
      refine ⟨?_, fun j other holds => ?_, ⟨added.distinct, added.bound⟩⟩
      · have bound := added.bound
        dsimp only
        omega
      · dsimp only at holds
        rw [addChannel_server] at holds
        exact limited.known j other holds
  | closeServer => exact limited.turn (closeServer_shrinks _ _) left
  | readTrigger => exact limited.turn (readTrigger_shrinks _ _) left
  | channel alone done isMain => exact limited.handle left done

theorem service_shrinks {threadNo : Nat}
    (done : process.service threadNo action now woken = some after) : Shrinks process after := by
  cases service_serves done with
  | calls calling isService acted => exact ⟨(act_shrinks acted).length, (act_shrinks acted).fileno⟩
  | returns returning acted => exact ⟨(act_shrinks acted).length, (act_shrinks acted).fileno⟩

theorem handlerThread_shrinks {threadNo : Nat}
    (done : process.handlerThread threadNo now = some after) : Shrinks process after := by
  cases handlerThread_takes done with
  | task free handled first taken acted =>
      exact ⟨(act_shrinks acted).length, (act_shrinks acted).fileno⟩
  | other => exact ⟨Nat.le_refl _, fun _ _ held => held⟩

theorem cancelTasks_shrinks {ids : List Nat} (done : cancelTasks now ids process = some after) :
    Shrinks process after := by
  induction ids generalizing process with
  | nil =>
      cases done
      exact .refl _
  | cons id ids inductionHypothesis =>
      obtain ⟨middle, acted, rest⟩ := Option.bind_eq_some_iff.mp done
      exact (act_shrinks acted).trans (inductionHypothesis rest)

theorem Limited.perform (limited : process.Limited adj servers) (registry : process.Registry)
    {action : Action} (taken : process.perform adj now action = some after) :
    after.Limited adj servers := by
  have heeded := limited.loop
  have turn : ∀ {loop}, process.Heeded adj servers loop →
      ({ process with loop } : Process).Limited adj servers :=
    fun heeded => limited.turn (Shrinks.refl process) heeded
  cases perform_steps adj taken with
  | @testReadable item items r w e tested at_ done =>
      rw [at_] at heeded
      have shrinks := testReadable_shrinks done
      have collected := heeded.testReadable done
      refine limited.shrinks ⟨shrinks.length, shrinks.fileno⟩ ?_
      exact ⟨collected.distinct, collected.objects, collected.below, collected.tested⟩
  | testWritable at_ done =>
      rw [at_] at heeded
      exact turn heeded.testWritable
  | select at_ allOpen r w e =>
      rw [at_] at heeded
      exact turn (heeded.select limited r)
  | handled at_ suffix done =>
      rw [at_] at heeded
      exact limited.handled registry heeded suffix done
  | poll at_ => exact turn (Collected.polled registry)
  | selectFails | interrupt => exact turn trivial
  | setThreadCount at_ =>
      exact limited.worker ⟨Nat.le_refl _, fun _ _ held => held⟩ rfl
  | @cancelPending cancelled at_ done =>
      have kept := limited.worker (cancelTasks_shrinks done) (cancelTasks_loop done)
      exact kept.worker ⟨Nat.le_refl _, fun _ _ held => held⟩ rfl
  | handlerThread done => exact limited.worker (handlerThread_shrinks done) (handlerThread_loop done)
  | service done => exact limited.worker (service_shrinks done) (service_loop done)

omit [CPython] in
theorem addServers_length (filenos : List (Nat × Nat)) (i : Nat) (process : Process) :
    (addServers i filenos process).map.entries.length ≤
      process.map.entries.length + 2 * filenos.length := by
  induction filenos generalizing i process with
  | nil => exact Nat.le_refl _
  | cons pair rest inductionHypothesis =>
      have others := inductionHypothesis (i + 1) (process.addServer i pair.1 pair.2)
      have first := Dict.length_set_le process.map pair.1 (.trigger i)
      have second := Dict.length_set_le (process.map.set pair.1 (.trigger i)) pair.2 (.server i)
      change _ ≤ ((process.map.set pair.1 _).set pair.2 _).entries.length + _ at others
      rw [List.length_cons, addServers]
      omega

omit [CPython] in
theorem addServers_server {filenos : List (Nat × Nat)} {i j : Nat}
    (later : i + filenos.length ≤ j) (process : Process) :
    (addServers i filenos process).server j = process.server j := by
  induction filenos generalizing i process with
  | nil => rfl
  | cons pair rest inductionHypothesis =>
      rw [List.length_cons] at later
      rw [addServers, inductionHypothesis (by omega), addServer,
        setServer_server_of_ne _ _ (by omega)]

omit [CPython] in
/-- At the start there are two objects for each server. -/
theorem Limited.created (threads : Nat) (filenos : List (Nat × Nat)) :
    (createServer threads filenos).Limited adj filenos.length := by
  have length := addServers_length filenos 0
    { pool := ThreadedTaskDispatcher.setThreadCount threads {} }
  change _ ≤ 0 + _ at length
  change (createServer threads filenos).map.entries.length ≤ _ at length
  have bound : ((createServer threads filenos).map.entries.length : Int) ≤
      mostObjects adj filenos.length := by
    unfold mostObjects
    omega
  have known : ∀ i fileno, ((createServer threads filenos).server i).fileno = some fileno →
      i < filenos.length := by
    intro i fileno held
    refine Nat.lt_of_not_le fun later => ?_
    rw [createServer, addServers_server (by omega)] at held
    cases held
  refine ⟨bound, known, ?_⟩
  obtain ⟨map, server, created⟩ := addServers_eq filenos 0
    { pool := ThreadedTaskDispatcher.setThreadCount threads {} }
  have loop : (createServer threads filenos).loop = .handling none [] [] [] := by
    rw [createServer, created]
  have nobody : (createServer threads filenos).awaited filenos.length [] = ∅ := by
    simp [awaited]
  rw [loop]
  refine ⟨List.nodup_nil, ?_⟩
  rw [nobody]
  exact (Int.add_zero _).trans_le bound

/-- The connection limit holds up to one connection for each further server. -/
theorem run_withinLimit {threads : Nat} {filenos : List (Nat × Nat)} {steps : List (Int × Action)}
    (distinct : (allFilenos filenos).Nodup)
    (ran : Transition.run (next adj) steps (createServer threads filenos) = some process) :
    (process.map.entries.length : Int) ≤ mostObjects adj filenos.length := by
  have both : process.Registry ∧ process.Limited adj filenos.length := by
    apply Transition.run_invariant ?_ ?_ ran
    rotate_left
    · exact ⟨Registry.created threads distinct, Limited.created threads filenos⟩
    rintro step before after ⟨registry, limited⟩ taken
    obtain ⟨middle, performed, rfl⟩ := Option.map_eq_some_iff.mp taken
    refine ⟨?_, ?_⟩
    · have kept := registry.perform adj performed
      exact kept.of_same ⟨rfl, rfl, fun _ => rfl, fun _ => rfl⟩
    · have kept := limited.perform registry performed
      exact kept.worker ⟨Nat.le_refl _, fun _ _ held => held⟩ rfl
  exact both.2.bound

/-- Two servers accept a connection each, at a limit of five objects. -/
def acceptTwo : List (Int × Action) :=
  [(1, .poll), (1, .testReadable), (1, .testWritable), (1, .testReadable), (1, .testWritable),
    (1, .testReadable), (1, .testWritable), (1, .testReadable), (1, .testWritable),
    (2, .select [4, 6] [] []), (2, .handleRead (.accepted 7 65536 []) none),
    (2, .handleRead (.accepted 8 65536 []) none)]

omit [CPython] in
theorem run_withinLimit_sample :
    let _ : CPython := .unchecked
    ∃ process, Transition.run (next { connectionLimit := 5 }) acceptTwo
        (createServer 1 [(3, 4), (5, 6)]) = some process ∧
      (process.map.entries.length : Int) = mostObjects { connectionLimit := 5 } 2 ∧
      (process.map.entries.length : Int) ≤ mostObjects { connectionLimit := 5 } 2 := by
  intro cpython
  have ends : (Transition.run (next { connectionLimit := 5 }) acceptTwo
      (createServer 1 [(3, 4), (5, 6)])).map (fun process => process.map.entries.length) =
      some 6 := by decide +kernel
  obtain ⟨process, ran, length⟩ := Option.map_eq_some_iff.mp ends
  refine ⟨process, ran, ?_, run_withinLimit (by decide) ran⟩
  rw [length]
  rfl

end

end Waitress.Process
