import Dfs.Network.Peers

/-!
# The table of connections

What `fail_connection` and `register_connection` do, seen without sockets and frames: each
connection has at most one peer in its life, it is closed at most once, and the table names
connections. Every handler does nothing to this view, or makes one connection, gives one up or
registers one.
-/

namespace Dfs

open Lib

/-- The connections of a node and what it takes them for. -/
@[ext] structure Table where
  next : ConnectionPtr
  remote : ConnectionPtr → Option NodeIdentity
  expectedRemote : ConnectionPtr → Option NodeIdentity
  closed : ConnectionPtr → Bool
  connections : NodeId → Option ConnectionPtr
  pending : List ConnectionPtr

namespace Table

variable {t t' : Table} {c : ConnectionPtr} {remote : NodeIdentity} {role : NodeRole}

def make (expected : Option NodeIdentity) (t : Table) : Table :=
  { t with
    next := t.next + 1
    remote := Function.update t.remote t.next none
    expectedRemote := Function.update t.expectedRemote t.next expected
    closed := Function.update t.closed t.next false
    pending := t.next :: t.pending }

def fail (c : ConnectionPtr) (t : Table) : Table :=
  { t with
    closed := Function.update t.closed c true
    connections := fun id =>
      if t.connections id = some c ∧ (t.remote c).map (·.id) = some id then none else t.connections id
    pending := t.pending.erase c }

def register (c : ConnectionPtr) (remote : NodeIdentity) (t : Table) : Table :=
  { t with
    remote := Function.update t.remote c (some remote)
    connections := Function.update t.connections remote.id (some c)
    pending := t.pending.erase c }

/-- The peer may be taken for the one that is at the other end. -/
structure Admits (role : NodeRole) (expected : Option NodeIdentity) (remote : NodeIdentity) : Prop where
  allowed : canConnectWithRole role remote.role = true
  named : remote.id ≠ []
  expects : expected = none ∨ expected = some remote

/-- One handler, with the peer it registers. -/
inductive Step (role : NodeRole) (t : Table) : Option (ConnectionPtr × NodeIdentity) → Table → Prop where
  | idle : Step role t none t
  | make (expected : Option NodeIdentity) : Step role t none (t.make expected)
  | fail (c : ConnectionPtr) : Step role t none (t.fail c)
  | register {c : ConnectionPtr} {remote : NodeIdentity} (below : c < t.next) (unset : t.remote c = none)
      (opened : t.closed c = false) (admits : Admits role (t.expectedRemote c) remote) :
      Step role t (some (c, remote)) (t.register c remote)

/-- An entry of the table serves its peer; what waits for its handshake has none. -/
structure Good (role : NodeRole) (t : Table) : Prop where
  entries : ∀ id c, t.connections id = some c →
    c < t.next ∧ t.closed c = false ∧ ∃ remote, t.remote c = some remote ∧ remote.id = id
  admitted : ∀ c < t.next, ∀ remote, t.remote c = some remote → Admits role (t.expectedRemote c) remote
  waiting : ∀ c ∈ t.pending, c < t.next ∧ t.remote c = none
  single : t.pending.Nodup

theorem Good.make (good : t.Good role) (expected : Option NodeIdentity) : (t.make expected).Good role := by
  have older : ∀ {c}, c < t.next → c ≠ t.next := fun below same => Nat.lt_irrefl _ (same ▸ below)
  refine ⟨fun id c found => ?_, fun c below remote known => ?_, fun c mem => ?_, ?_⟩
  · obtain ⟨below, rest⟩ := good.entries id c found
    simp only [Table.make, Function.update_of_ne (older below)]
    exact ⟨Nat.lt_succ_of_lt below, rest⟩
  · simp only [Table.make] at below known ⊢
    by_cases same : c = t.next
    · rw [same, Function.update_self] at known
      cases known
    · rw [Function.update_of_ne same] at known ⊢
      exact good.admitted c (Nat.lt_of_le_of_ne (Nat.le_of_lt_succ below) same) remote known
  · simp only [Table.make] at mem ⊢
    rcases List.mem_cons.1 mem with rfl | mem
    · exact ⟨Nat.lt_succ_self _, Function.update_self ..⟩
    · obtain ⟨below, unset⟩ := good.waiting c mem
      rw [Function.update_of_ne (older below)]
      exact ⟨Nat.lt_succ_of_lt below, unset⟩
  · exact List.nodup_cons.2 ⟨fun mem => Nat.lt_irrefl _ (good.waiting _ mem).1, good.single⟩

/-- An entry for another connection stays as it is. -/
theorem fail_other {id : NodeId} {c' : ConnectionPtr} (found : t.connections id = some c') (other : c' ≠ c) :
    (t.fail c).connections id = some c' ∧ (t.fail c).closed c' = t.closed c' := by
  refine ⟨?_, Function.update_of_ne other ..⟩
  exact (if_neg fun same => other (Option.some.inj (found.symm.trans same.1))).trans found

theorem fail_connections {id : NodeId} {c' : ConnectionPtr} (good : t.Good role)
    (found : (t.fail c).connections id = some c') : c' ≠ c ∧ t.connections id = some c' := by
  rw [fail] at found
  dsimp only at found
  split at found
  · cases found
  rename_i other
  refine ⟨fun same => ?_, found⟩
  subst same
  obtain ⟨-, -, remote, known, named⟩ := good.entries id c' found
  exact other ⟨found, by rw [known]; exact congrArg some named⟩

theorem Good.fail (good : t.Good role) (c : ConnectionPtr) : (t.fail c).Good role := by
  refine ⟨fun id c' found => ?_, good.admitted, fun c' mem => good.waiting c' (List.mem_of_mem_erase mem),
    good.single.erase c⟩
  obtain ⟨other, found⟩ := fail_connections good found
  have closed : (t.fail c).closed c' = t.closed c' := Function.update_of_ne other ..
  rw [closed]
  exact good.entries id c' found

theorem Good.register (good : t.Good role) (below : c < t.next) (unset : t.remote c = none) (opened : t.closed c = false)
    (admits : Admits role (t.expectedRemote c) remote) : (t.register c remote).Good role := by
  refine ⟨fun id c' found => ?_, fun c' below' remote' known => ?_, fun c' mem => ?_, good.single.erase c⟩
  · simp only [Table.register] at found ⊢
    by_cases named : id = remote.id
    · rw [named, Function.update_self] at found
      cases found
      exact ⟨below, opened, remote, Function.update_self .., named.symm⟩
    · rw [Function.update_of_ne named] at found
      obtain ⟨below', opened', peer, known, named'⟩ := good.entries id c' found
      have other : c' ≠ c := fun same => by rw [same, unset] at known; cases known
      rw [Function.update_of_ne other]
      exact ⟨below', opened', peer, known, named'⟩
  · simp only [Table.register] at known ⊢
    by_cases same : c' = c
    · rw [same, Function.update_self] at known
      cases known
      exact same ▸ admits
    · rw [Function.update_of_ne same] at known
      exact good.admitted c' below' remote' known
  · obtain ⟨other, mem⟩ := good.single.mem_erase_iff.1 mem
    obtain ⟨below', unset'⟩ := good.waiting c' mem
    exact ⟨below', (Function.update_of_ne other ..).trans unset'⟩

theorem Step.good {registers : Option (ConnectionPtr × NodeIdentity)} (step : Step role t registers t') (good : t.Good role) : t'.Good role := by
  cases step with
  | idle => exact good
  | make expected => exact good.make expected
  | fail c => exact good.fail c
  | register below unset opened admits => exact good.register below unset opened admits

/-- What waits for its handshake is not in the table. -/
theorem Good.apart (good : t.Good role) {id : NodeId} (waits : c ∈ t.pending) : t.connections id ≠ some c := by
  intro found
  obtain ⟨-, -, remote, known, -⟩ := good.entries id c found
  rw [(good.waiting c waits).2] at known
  cases known

/-! ## One open connection for each peer -/

/-- An open connection with a peer is the one that the table has for the peer. -/
def Alone (t : Table) : Prop :=
  ∀ c < t.next, ∀ remote, t.remote c = some remote → t.closed c = false → t.connections remote.id = some c

theorem Alone.make (alone : t.Alone) (expected : Option NodeIdentity) : (t.make expected).Alone := by
  intro c below remote known opened
  simp only [Table.make] at below known opened ⊢
  by_cases same : c = t.next
  · rw [same, Function.update_self] at known
    cases known
  · rw [Function.update_of_ne same] at known opened
    exact alone c (Nat.lt_of_le_of_ne (Nat.le_of_lt_succ below) same) remote known opened

theorem Alone.fail (alone : t.Alone) (c : ConnectionPtr) : (t.fail c).Alone := by
  intro c' below remote known opened
  have other : c' ≠ c := fun same => by
    simp [Table.fail, same] at opened
  have was : t.closed c' = false := (Function.update_of_ne other ..).symm.trans opened
  exact (fail_other (alone c' below remote known was) other).1

/-- A registration leaves one connection for each peer exactly where the peer had none. -/
theorem Alone.register_iff (alone : t.Alone) (good : t.Good role) (unset : t.remote c = none) :
    (t.register c remote).Alone ↔ t.connections remote.id = none := by
  constructor
  · intro alone'
    by_contra stored
    obtain ⟨c', found⟩ := Option.ne_none_iff_exists'.1 stored
    obtain ⟨below, opened, peer, known, named⟩ := good.entries remote.id c' found
    have other : c' ≠ c := fun same => by rw [same, unset] at known; cases known
    have first := alone' c' below peer ((Function.update_of_ne other ..).trans known) opened
    rw [named] at first
    exact other (Option.some.inj (first.symm.trans (Function.update_self ..)))
  · intro vacant c' below peer known opened
    simp only [Table.register] at known ⊢
    by_cases same : c' = c
    · rw [same, Function.update_self] at known
      cases known
      rw [same, Function.update_self]
    · rw [Function.update_of_ne same] at known
      have found := alone c' below peer known opened
      rw [Function.update_of_ne fun named => by rw [named, vacant] at found; cases found]
      exact found

theorem Step.stays_alone_iff {registers : Option (ConnectionPtr × NodeIdentity)} (step : Step role t registers t') (good : t.Good role)
    (alone : t.Alone) : t'.Alone ↔ ∀ r ∈ registers, t.connections r.2.id = none := by
  cases step with
  | idle => exact ⟨fun _ => nofun, fun _ => alone⟩
  | make expected => exact ⟨fun _ => nofun, fun _ => alone.make expected⟩
  | fail c => exact ⟨fun _ => nofun, fun _ => alone.fail c⟩
  | register below unset opened admits => simpa using alone.register_iff good unset

end Table

namespace NetworkState

variable {s s' : NetworkState} {c : ConnectionPtr}

def table (s : NetworkState) : Table where
  next := s.next
  remote c := (s.heap c).remote
  expectedRemote c := (s.heap c).expectedRemote
  closed c := (s.heap c).closed
  connections := s.connections.lookup
  pending := s.pendingConnections

/-! ## What the operations do to the table -/

@[simp] theorem begin_table (op : Op) : (s.begin op).table = s.table := rfl

@[simp] theorem complete_table (op : Op) : (s.complete op).table = s.table := rfl

@[simp] theorem scheduleReconnect_table (endpoint : Endpoint) : (s.scheduleReconnect endpoint).table = s.table := rfl

/-- A field of the connections where only the connection `c` has changed. -/
theorem field_update {α : Type} (g : Connection → α) (others : ∀ c', c' ≠ c → s'.heap c' = s.heap c') :
    (fun c' => g (s'.heap c')) = Function.update (fun c' => g (s.heap c')) c (g (s'.heap c)) := by
  funext c'
  by_cases here : c' = c
  · rw [here, Function.update_self]
  · rw [Function.update_of_ne here, others c' here]

theorem field_same {α : Type} (g : Connection → α) (others : ∀ c', c' ≠ c → s'.heap c' = s.heap c')
    (same : g (s'.heap c) = g (s.heap c)) : (fun c' => g (s'.heap c')) = fun c' => g (s.heap c') := by
  rw [field_update g others, same]
  exact Function.update_eq_self ..

theorem modify_table {f : Connection → Connection} (remote : (f (s.heap c)).remote = (s.heap c).remote)
    (expectedRemote : (f (s.heap c)).expectedRemote = (s.heap c).expectedRemote)
    (closed : (f (s.heap c)).closed = (s.heap c).closed) : (s.modify c f).table = s.table := by
  have others : ∀ c', c' ≠ c → (s.modify c f).heap c' = s.heap c' := fun _ ne => heap_modify_ne ne
  refine Table.ext rfl (field_same (·.remote) others ?_) (field_same (·.expectedRemote) others ?_)
    (field_same (·.closed) others ?_) rfl rfl
  all_goals rw [heap_modify]
  · exact remote
  · exact expectedRemote
  · exact closed

theorem Puts.table {frames : List Frame} (puts : Puts c frames s s') : s'.table = s.table := by
  have others : ∀ c', c' ≠ c → s'.heap c' = s.heap c' := fun c' ne => (puts.others c' ne).1
  refine Table.ext puts.aside.next (field_same (·.remote) others puts.remote)
    (field_same (·.expectedRemote) others puts.expectedRemote) (field_same (·.closed) others puts.closed) ?_ ?_
  all_goals rw [puts.same]
  all_goals rfl

theorem handshake_table : (s.handshake c).table = s.table := by
  obtain ⟨encoded, result⟩ := handshake_cases c s
  rw [result, begin_table]
  exact modify_table rfl rfl rfl

theorem makeConnection_table {conn : Connection} (unset : conn.remote = none) (opened : conn.closed = false) :
    (s.makeConnection conn).table = s.table.make conn.expectedRemote := by
  have others : ∀ c', c' ≠ s.next → (s.makeConnection conn).heap c' = s.heap c' := fun _ ne => makeConnection_heap_ne ne
  refine Table.ext rfl ((field_update (·.remote) others).trans ?_) ((field_update (·.expectedRemote) others).trans ?_)
    ((field_update (·.closed) others).trans ?_) rfl rfl
  all_goals rw [makeConnection_heap]
  · rw [unset]
    rfl
  · rfl
  · rw [opened]
    rfl

theorem failConnection_pending : (s.failConnection c).pendingConnections = s.pendingConnections.erase c := by
  have close : (s.close c).pendingConnections = s.pendingConnections := by
    rw [NetworkState.close]
    split <;> rfl
  rw [← close, failConnection]
  dsimp only
  split
  · rfl
  · split <;> rfl

theorem failConnection_table : (s.failConnection c).table = s.table.fail c := by
  have fails := @failConnection_fails s c
  refine Table.ext fails.aside.next (field_same (·.remote) fails.aside.heap fails.remote) (funext fails.expectedRemote)
    ((field_update (·.closed) fails.aside.heap).trans ?_) (funext fails.lookup) failConnection_pending
  rw [fails.closed]
  rfl

theorem registered_table {remote : NodeIdentity} : (s.registered c remote).table = s.table.register c remote := by
  have others : ∀ c', c' ≠ c → (s.registered c remote).heap c' = s.heap c' := fun _ ne => by
    rw [registered, heap_modify_ne ne]
  have here : (s.registered c remote).heap c = { s.heap c with remote := some remote } := by
    rw [registered, heap_modify]
  refine Table.ext rfl ((field_update (·.remote) others).trans ?_) (field_same (·.expectedRemote) others ?_)
    (field_same (·.closed) others ?_) (funext fun id => ?_) rfl
  · rw [here]
    rfl
  · rw [here]
  · rw [here]
  · refine (Assoc.lookup_insert_ite _ _ _ _).trans ?_
    change _ = Function.update (fun id => s.connections.lookup id) remote.id (some c) id
    rw [Function.update_apply]

theorem registerConnection_table {remote : NodeIdentity} : (s.registerConnection c remote).table = s.table.register c remote := by
  have flushed : ((s.registered c remote).flush c remote.id).table = (s.registered c remote).table := by
    rw [flush]
    split
    · rfl
    · exact (enqueueAll_puts _).table
  have known : (((s.registered c remote).flush c remote.id).heap c).remote = some remote := by
    have here := congrFun (congrArg Table.remote (flushed.trans registered_table)) c
    exact here.trans (Function.update_self ..)
  change (((s.registered c remote).flush c remote.id).startReading c).table = _
  rw [startReading_eq known, begin_table, flushed, registered_table]

theorem handleBroadcast_table {role : NodeRole} {frame : Frame} : (s.handleBroadcast role frame).table = s.table := by
  rw [handleBroadcast]
  generalize s.connections.entries = entries
  induction entries generalizing s with
  | nil => rfl
  | cons entry entries ih =>
      rw [List.foldl_cons, ih]
      split
      · exact enqueueWrite_puts.table
      · rfl

theorem handleWritten_table {error : Bool} :
    (s.handleWritten c error).table = s.table ∨ error = true ∧ (s.handleWritten c error).table = s.table.fail c := by
  rw [handleWritten]
  split
  · exact .inl rfl
  cases error with
  | true =>
      rw [if_pos rfl, failConnection_table, modify_table rfl rfl rfl]
      exact .inr ⟨rfl, rfl⟩
  | false => exact .inl writeNext_puts.table

theorem connect_table {endpoint : Endpoint} : (s.connect endpoint).table = s.table.make (some endpoint.identity) :=
  makeConnection_table rfl rfl

/-! ## Every handler is a step of the table -/

/-- The connection that the handler gives up. -/
def fails (s : NetworkState) : NetworkEvent → Option ConnectionPtr
  | .resolved _ c true | .connected _ c true => some c
  | event => s.abandons event

/-- The handler closes a connection it gives up, unless that is closed, and leaves the table alone otherwise. -/
theorem step_fails {event : NetworkEvent} (h : s.step event = .ok s') (gives : s.fails event = some c) :
    s'.table = s.table.fail c ∨ s'.table = s.table := by
  have given : s.abandons event = some c → s'.table = s.table.fail c ∨ s'.table = s.table := by
    intro gives
    cases step_handles h with
    | @failed event op c' mem here gives' none first completes =>
        cases gives.symm.trans gives'
        exact .inl failConnection_table
    | @written c' encoded error mem =>
        cases error with
        | true =>
            cases gives
            exact handleWritten_table.symm.imp_left (·.2)
        | false => cases gives
    | retry mem waits none completes =>
        rw [none.1] at gives
        cases gives
    | registered mem accepted =>
        rw [abandons, accepted] at gives
        cases gives
    | read mem proper =>
        rw [abandons, if_neg proper] at gives
        cases gives
    | _ => cases gives
  cases event with
  | resolved endpoint c' error =>
      cases error with
      | true =>
          obtain ⟨mem, h⟩ := finish_bind h
          cases gives
          cases h
          exact .inl failConnection_table
      | false => exact given gives
  | connected endpoint c' error =>
      cases error with
      | true =>
          obtain ⟨mem, h⟩ := finish_bind h
          cases gives
          cases h
          exact .inl failConnection_table
      | false => exact given gives
  | _ => exact given gives

theorem step_table {event : NetworkEvent} (sound : s.Sound) (h : s.step event = .ok s') :
    Table.Step s.self.role s.table (s.registers event) s'.table := by
  cases step_handles h with
  | queue absent => exact .idle
  | send found =>
      rw [enqueueWrite_puts.table]
      exact .idle
  | broadcast =>
      rw [handleBroadcast_table]
      exact .idle
  | @retry event op endpoint c mem waits none completes =>
      rw [none.2, scheduleReconnect_table, failConnection_table]
      exact .fail c
  | resolved mem => exact .idle
  | connected mem =>
      rw [handshake_table]
      exact .idle
  | refused mem => exact .idle
  | accepted mem =>
      rw [handshake_table, makeConnection_table rfl rfl]
      exact .make none
  | greeted mem => exact .idle
  | @failed event op c mem here gives none first completes =>
      rw [none, failConnection_table]
      exact .fail c
  | @registered c frame remote mem accepted =>
      obtain ⟨allowed, named, expects⟩ := acceptHello_some accepted
      obtain ⟨greeting, -⟩ := sound.registers mem remote
      have here : s.registers (.helloRead c frame) = some (c, remote) := congrArg (Option.map _) accepted
      rw [here, registerConnection_table]
      exact .register (sound.allocated mem rfl) greeting.unset greeting.opened ⟨allowed, named, expects⟩
  | @read c remote frame mem proper =>
      rw [sound.reading mem]
      exact .idle
  | @written c encoded error mem =>
      rcases @handleWritten_table (s.complete (.write c encoded)) c error with same | ⟨-, failed⟩
      · rw [same]
        exact .idle
      · rw [failed]
        exact .fail c
  | held mem found => exact .idle
  | redial mem =>
      rw [connect_table]
      exact .make _

/-- Only connections to seed peers have been made at first. -/
theorem start_table {P : Table → Prop} (self : Endpoint) (seedNodes : List Endpoint) (none : P (initial self).table)
    (make : ∀ t expected, P t → P (t.make expected)) : P (start self seedNodes).table := by
  have all : ∀ (endpoints : List Endpoint) (s : NetworkState), P s.table →
      P (endpoints.foldl (fun s endpoint => s.connect endpoint) s).table := by
    intro endpoints
    induction endpoints with
    | nil => exact fun s holds => holds
    | cons endpoint endpoints ih =>
        intro s holds
        refine ih _ ?_
        rw [connect_table]
        exact make _ _ holds
  exact all _ (initial self) none

/-- What holds of a node in every state that it reaches. -/
structure Reached (node : Endpoint) (s : NetworkState) : Prop where
  sound : s.Sound
  same : s.self = node
  good : s.table.Good node.role

theorem start_reached (self : Endpoint) (seedNodes : List Endpoint) : Reached self (start self seedNodes) := by
  refine ⟨start_sound self seedNodes, (start_fields self seedNodes).1, start_table self seedNodes ?_ ?_⟩
  · exact ⟨nofun, fun c below => absurd below (Nat.not_lt_zero c), nofun, List.nodup_nil⟩
  · exact fun t expected good => good.make expected

theorem Reached.step {self : Endpoint} {event : NetworkEvent} (reached : Reached self s) (h : s.step event = .ok s') :
    Reached self s' :=
  ⟨step_sound reached.sound h, (step_self reached.sound h).trans reached.same,
    (reached.same ▸ step_table reached.sound h).good reached.good⟩

/-- The entries of the table, what waits beside it, and what a failure leaves of it. -/
theorem table_sound {self : Endpoint} {seedNodes : List Endpoint} {events : List NetworkEvent}
    (h : run step (start self seedNodes) events = .ok s) :
    (∀ id c, s.connections.lookup id = some c → (s.heap c).closed = false ∧ ∃ remote, (s.heap c).remote = some remote ∧
      remote.id = id ∧ id ≠ [] ∧ canConnectWithRole self.role remote.role = true ∧
      ∀ expected, (s.heap c).expectedRemote = some expected → remote = expected) ∧
    (∀ c ∈ s.pendingConnections, ∀ id, s.connections.lookup id ≠ some c) ∧
    ∀ event s' c, s.step event = .ok s' → s.fails event = some c →
      ∀ id c', s.connections.lookup id = some c' → c' ≠ c →
        s'.connections.lookup id = some c' ∧ (s'.heap c').closed = false := by
  have good := (run_keeps (fun _ _ _ _ reached stepped => reached.step stepped) (start_reached self seedNodes) h).good
  refine ⟨fun id c found => ?_, fun c waits id => good.apart waits, fun event s' c stepped gives id c' found other => ?_⟩
  · obtain ⟨below, opened, remote, known, rfl⟩ := good.entries id c found
    obtain ⟨allowed, named, expects⟩ := good.admitted c below remote known
    refine ⟨opened, remote, known, rfl, named, allowed, fun expected expecting => ?_⟩
    rcases expects with none | some
    · exact absurd (none.symm.trans expecting) nofun
    · exact Option.some.inj (some.symm.trans expecting)
  · obtain ⟨-, opened, -⟩ := good.entries id c' found
    have kept : s'.table.connections id = some c' ∧ s'.table.closed c' = s.table.closed c' := by
      rcases step_fails stepped gives with failed | same
      · rw [failed]
        exact Table.fail_other found other
      · rw [same]
        exact ⟨found, rfl⟩
    exact ⟨kept.1, kept.2.trans opened⟩

section Examples

/-- A node that is connected to. -/
def acceptingNode : Endpoint := ⟨[97], .metadata, [104], 1⟩

/-- A node that connects to it. -/
def storagePeer : Endpoint := ⟨[99], .storage, [], 0⟩

def acceptedRun : List NetworkEvent :=
  [.accepted false, .helloWritten 0 true false, .helloRead 0 (some (helloFrame storagePeer))]

/-- The peer connects again, before its first connection has failed. -/
def supersedingRun : List NetworkEvent :=
  acceptedRun ++ [.accepted false, .helloWritten 1 true false, .helloRead 1 (some (helloFrame storagePeer))]

/-- The first connection fails when the second one has taken its place. -/
theorem table_sound_superseded : ∃ s s', run step (start acceptingNode []) supersedingRun = .ok s ∧
    s.step (.frameRead 0 storagePeer.identity none) = .ok s' ∧
    s'.connections.lookup storagePeer.nodeId = some 1 ∧ (s'.heap 1).closed = false := by
  obtain ⟨s, ran, found⟩ := exists_ok (r := run step (start acceptingNode []) supersedingRun)
    (f := fun s => decide (s.connections.lookup storagePeer.nodeId = some 1) &&
      (s.step (.frameRead 0 storagePeer.identity none)).toBool) (by decide +kernel)
  obtain ⟨found, steps⟩ := Bool.and_eq_true_iff.1 found
  obtain ⟨s', stepped⟩ : ∃ s', s.step (.frameRead 0 storagePeer.identity none) = .ok s' := by
    cases stepped : s.step (.frameRead 0 storagePeer.identity none) with
    | ok s' => exact ⟨s', rfl⟩
    | error x =>
        rw [stepped] at steps
        cases steps
  have kept := (table_sound ran).2.2 _ s' 0 stepped rfl storagePeer.nodeId 1 (of_decide_eq_true found) (by decide)
  exact ⟨s, s', ran, stepped, kept⟩

end Examples

/-- The peer that the handler registers has no connection in the table. -/
def Vacant (s : NetworkState) (event : NetworkEvent) : Prop :=
  ∀ r ∈ s.registers event, s.connections.lookup r.2.id = none

instance {event : NetworkEvent} : Decidable (s.Vacant event) := inferInstanceAs (Decidable (∀ r ∈ _, _))

/-- Each open connection with a peer is the one in the table. -/
def Alone (s : NetworkState) : Prop :=
  ∀ c < s.next, ∀ remote, (s.heap c).remote = some remote → (s.heap c).closed = false →
    s.connections.lookup remote.id = some c

/-- Peers have one open connection each in every state of a run exactly if no handler of the run
registers a peer that is in the table. -/
theorem alone_iff {self : Endpoint} {seedNodes : List Endpoint} {events : List NetworkEvent}
    (h : run step (start self seedNodes) events = .ok s) :
    Along step Vacant (start self seedNodes) events ↔
      ∀ before after s₁, events = before ++ after → run step (start self seedNodes) before = .ok s₁ → s₁.Alone := by
  refine along_iff (P := Reached self) (Q := Alone) (fun _ _ _ reached stepped => reached.step stepped) ?_
    (start_reached self seedNodes) ?_ h
  · intro s s' event reached alone stepped
    exact (reached.same ▸ step_table reached.sound stepped).stays_alone_iff reached.good alone
  · refine start_table (P := Table.Alone) self seedNodes ?_ fun t expected alone => alone.make expected
    exact fun c below => absurd below (Nat.not_lt_zero c)

section Examples

theorem alone_iff_accepted : ∃ s, run step (start acceptingNode []) acceptedRun = .ok s ∧ s.Alone := by
  obtain ⟨s, ran, -⟩ := exists_ok (r := run step (start acceptingNode []) acceptedRun) (f := fun _ => true)
    (by decide +kernel)
  exact ⟨s, ran, (alone_iff ran).1 (by decide +kernel) acceptedRun [] s (List.append_nil _).symm ran⟩

/-- The first connection is open beside the second one, and what is read from it is queued. -/
theorem superseded_delivers :
    let message : Message := ⟨storagePeer.identity, ⟨headerMagic, 0, .storageHeartbeat⟩, []⟩
    ∃ s, run step (start acceptingNode [])
        (supersedingRun ++ [.frameRead 0 message.sender (some ⟨message.header, message.buffer⟩)]) = .ok s ∧
      s.connections.lookup storagePeer.nodeId = some 1 ∧ s.messageQueue = [message] ∧ ¬ s.Alone := by
  intro message
  obtain ⟨s, ran, holds⟩ := exists_ok
    (r := run step (start acceptingNode [])
      (supersedingRun ++ [.frameRead 0 message.sender (some ⟨message.header, message.buffer⟩)]))
    (f := fun s => decide (s.connections.lookup storagePeer.nodeId = some 1 ∧ s.messageQueue = [message] ∧
      0 < s.next ∧ (s.heap 0).remote = some storagePeer.identity ∧ (s.heap 0).closed = false)) (by decide +kernel)
  obtain ⟨stored, queued, below, known, opened⟩ := of_decide_eq_true holds
  refine ⟨s, ran, stored, queued, fun alone => ?_⟩
  have first := alone 0 below _ known opened
  rw [show storagePeer.identity.id = storagePeer.nodeId from rfl, stored] at first
  cases first

end Examples

end NetworkState

end Dfs
